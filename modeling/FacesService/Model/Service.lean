import FacesService.Base.Prog
import FacesService.Model.Writes
import FacesService.Model.Clustering
import Mathlib.Logic.Function.Basic

/-!
The process around the code: what a call of `db.py`, of the object store or of
the suggestion cache does to the world, so that the engine and the endpoints
are programs over these calls (`Prog`). The world is the two tables, the
bucket and the per-owner cache.
-/

namespace FacesService

variable {K : Type}

abbrev Bytes := List UInt8

/-- A decoded frame. -/
structure Image where
  height : ℕ
  width : ℕ
  pixels : Bytes
  deriving DecidableEq

/-- A detection of `FaceModel.embed`; the box is `[x1, y1, x2, y2]`. -/
structure Detection (K : Type) where
  embedding : List K
  confidence : K
  bbox : Option (K × K × K × K)
  deriving DecidableEq

/-- OpenCV and the face model. `embed` takes the detection threshold, the size
of the detector's input (`0` for the model's own) and the least face ratio; all
its embeddings have the length of the recognition model's output. -/
structure Vision (K : Type) where
  imdecode : Bytes → Option Image
  /-- `cv2.imencode(".jpg", img, …)` -/
  imencode : Image → Option Bytes
  /-- `img[y1:y2, x1:x2]` -/
  slice : Image → (y1 y2 x1 x2 : ℤ) → Image
  embed : Image → K → ℕ → K → List (Detection K)
  dim : ℕ
  length_embedding : ∀ img threshold size ratio, ∀ det ∈ embed img threshold size ratio,
    det.embedding.length = dim

/-- The settings of `config.Config` the modelled code reads. -/
structure Config (K : Type) where
  matchThreshold : K
  unknownThreshold : K
  detectThreshold : K
  assistAutoThreshold : K
  assistDetSize : ℕ
  assistMinFaceRatio : K

/-- One deployment: the libraries, the settings, and whether `app.state` has a
store and an engine. -/
structure Service (K : Type) where
  pf : Platform K
  vision : Vision K
  config : Config K
  storeReady : Bool
  engineReady : Bool

/-- What the outside decides: the ids Postgres draws, the clock at each call,
and whether the caller is gone at each poll. -/
structure Oracle where
  fresh : ℕ → Uuid
  clock : ℕ → ℕ
  gone : ℕ → Bool

/-! ### Calls of `db.py` -/

/-- A read of `db.py` with its arguments. -/
inductive Query (K : Type)
  | searchNamedClusters (ownerId pre : String) (limit : ℕ)
  | getClustersForOwner (ownerId : String)
  | getCluster (clusterId : String) (ownerId : Option String)
  | getClusterVideos (clusterId : String)
  | getClustersVideos (ownerId : String)
  | getStreamsForClusters (ownerId : String) (clusterIds : List String) (mode : Db.SearchMode)
  | getClustersWithoutOccurrences (ownerId : String)
  | getClusterOccurrences (clusterId : String)
  | getClusterOccurrence (clusterId streamId : String) (tSeconds : K)
  | getOccurrencesForStream (streamId : String)

/-- A write function of `db.py` with its arguments. -/
inductive Write (K : Type)
  | upsertCluster (ownerId : String) (name : Option String) (isNamed : Bool) (centroid : List K)
  | appendStreamOccurrences (ownerId streamId : String) (items : List (Db.Item K))
  | renameCluster (clusterId ownerId : String) (name : Option String)
  | deleteCluster (clusterId ownerId : String)
  | detachClusterFromStream (clusterId streamId ownerId : String)
  | mergeClusters (ownerId targetId : String) (sourceIds : List String)
  | updateClusterCentroid (clusterId ownerId : String) (centroid : List K)
  | setClusterCrop (clusterId ownerId : String) (cropObject : Option String)
  | cascadeStream (streamId : String)

/-- What a read returns. The rows are whole: the dicts of `db.py` drop columns. -/
@[reducible] def Query.Answer : Query K → Type
  | searchNamedClusters .. => List Db.NamedCluster
  | getClustersForOwner .. => List (Cluster K)
  | getCluster .. => Option (Cluster K)
  | getClusterVideos .. => List Db.VideoCount
  | getClustersVideos .. => List (Uuid × List Db.VideoCount)
  | getStreamsForClusters .. => List Db.StreamHit
  | getClustersWithoutOccurrences .. => List (Cluster K)
  | getClusterOccurrences .. => List (Occurrence K)
  | getClusterOccurrence .. => Option (Occurrence K)
  | getOccurrencesForStream .. => List (Occurrence K)

def Query.run [LinearOrder K] (pf : Platform K) (db : Database K) :
    (q : Query K) → Except PyError q.Answer
  | searchNamedClusters ownerId pre limit => Db.searchNamedClusters pf db ownerId pre limit
  | getClustersForOwner ownerId => Db.getClustersForOwner db ownerId
  | getCluster clusterId ownerId => Db.getCluster db clusterId ownerId
  | getClusterVideos clusterId => Db.getClusterVideos db clusterId
  | getClustersVideos ownerId => Db.getClustersVideos db ownerId
  | getStreamsForClusters ownerId clusterIds mode =>
      Db.getStreamsForClusters db ownerId clusterIds mode
  | getClustersWithoutOccurrences ownerId => Db.getClustersWithoutOccurrences db ownerId
  | getClusterOccurrences clusterId => Db.getClusterOccurrences db clusterId
  | getClusterOccurrence clusterId streamId tSeconds =>
      Db.getClusterOccurrence db clusterId streamId tSeconds
  | getOccurrencesForStream streamId => Db.getOccurrencesForStream db streamId

@[reducible] def Write.Answer : Write K → Type
  | upsertCluster .. => Uuid
  | appendStreamOccurrences .. => ℕ
  | renameCluster .. => Option (String × String)
  | deleteCluster .. => Option Db.DeletedCluster
  | detachClusterFromStream .. => Option Db.DetachSummary
  | mergeClusters .. => Option Db.Merged
  | updateClusterCentroid .. => Unit
  | setClusterCrop .. => Unit
  | cascadeStream .. => Db.CascadeResult

/-- The transaction of a write: its result and what it commits, or the error
that rolls it back. -/
def Write.run [DecidableEq K] (pf : Platform K) (fresh : Uuid) (now : ℕ) (db : Database K) :
    (w : Write K) → Except PyError (Commit K w.Answer)
  | upsertCluster ownerId name isNamed centroid =>
      Db.upsertCluster pf fresh now db ownerId name isNamed centroid
  | appendStreamOccurrences ownerId streamId items =>
      Db.appendStreamOccurrences pf now db ownerId streamId items
  | renameCluster clusterId ownerId name => Db.renameCluster pf now db clusterId ownerId name
  | deleteCluster clusterId ownerId => Db.deleteCluster db clusterId ownerId
  | detachClusterFromStream clusterId streamId ownerId =>
      Db.detachClusterFromStream now db clusterId streamId ownerId
  | mergeClusters ownerId targetId sourceIds =>
      Db.mergeClusters pf now db ownerId targetId sourceIds
  | updateClusterCentroid clusterId ownerId centroid =>
      Db.updateClusterCentroid pf now db clusterId ownerId centroid
  | setClusterCrop clusterId ownerId cropObject =>
      Db.setClusterCrop now db clusterId ownerId cropObject
  | cascadeStream streamId => Db.cascadeStream now db streamId

/-! ### The bucket -/

/-- An object with its content type. -/
structure Blob where
  data : Bytes
  contentType : String
  deriving DecidableEq

/-- `f"{prefix.rstrip('/')}/frame_{index:05d}.jpg"`. -/
def frameKey (pre : String) (index : ℕ) : String :=
  let digits := Nat.toDigits 10 index
  String.ofList (pre.toList.rdropWhile (· = '/')) ++ "/frame_" ++
    String.ofList (List.replicate (5 - digits.length) '0' ++ digits) ++ ".jpg"

/-- `crop_key`. -/
def cropKey (ownerId clusterId : String) : String :=
  "faces/crops/" ++ ownerId ++ "/" ++ clusterId ++ ".jpg"

/-! ### The world -/

/-- An entry of the suggestion cache: the epoch and time it was stored at. -/
structure CacheEntry (K : Type) where
  epoch : ℕ
  storedAt : ℕ
  value : SuggestionIndex K

structure World (K : Type) where
  db : Database K
  objects : String → Option Blob
  epoch : String → ℕ
  entries : String → Option (CacheEntry K)
  /-- the ids drawn, the calls made and the polls made so far -/
  draws : ℕ
  calls : ℕ
  polls : ℕ

inductive Call (K : Type)
  | query (q : Query K)
  | write (w : Write K)
  | getFrame (pre : String) (index : ℕ)
  | getCrop (ownerId clusterId : String)
  | putCrop (ownerId clusterId : String) (data : Bytes)
  | deleteCrop (ownerId clusterId : String)
  | cacheLookup (ownerId : String)
  | cacheStore (ownerId : String) (epoch : ℕ) (value : SuggestionIndex K)
  | poll

@[reducible] def Call.Answer : Call K → Type
  | query q => q.Answer
  | write w => w.Answer
  | getFrame .. => Option Bytes
  | getCrop .. => Option Blob
  | putCrop .. => String
  | deleteCrop .. => Unit
  | cacheLookup .. => ℕ × Option (SuggestionIndex K)
  | cacheStore .. => Unit
  | poll => Bool

/-- The programs of the service. -/
abbrev Program (K α : Type) := Prog (Call K) Call.Answer PyError α

/-- A call of a run with its answer and the worlds around it. -/
abbrev Event (K : Type) := Prog.Step (Call K) Call.Answer PyError (World K)

def World.setObject (w : World K) (key : String) (blob : Option Blob) : World K :=
  { w with objects := Function.update w.objects key blob }

/-- One call, as a program. -/
abbrev call (c : Call K) : Program K c.Answer := Prog.perform c

abbrev query (q : Query K) : Program K q.Answer := call (.query q)

abbrev write (w : Write K) : Program K w.Answer := call (.write w)

/-- `SUGGESTION_INDEX.bump`. -/
def World.bump (w : World K) (ownerId : String) : World K :=
  { w with epoch := Function.update w.epoch ownerId (w.epoch ownerId + 1)
           entries := Function.update w.entries ownerId none }

/-- `SuggestionIndexCache._ttl`, in microseconds. -/
def cacheTtl : ℕ := 300000000

/-- The entry `SuggestionIndexCache.get` may return. -/
def World.cached (w : World K) (now : ℕ) (ownerId : String) : Option (SuggestionIndex K) :=
  match w.entries ownerId with
  | none => none
  | some e => if e.epoch = w.epoch ownerId ∧ now < e.storedAt + cacheTtl then some e.value else none

/-- What a call does. A write commits whole or not at all, and the owners it
touched lose their cache entry after the commit. -/
def Call.effect [LinearOrder K] (pf : Platform K) (oracle : Oracle) (w : World K) :
    (c : Call K) → Except PyError c.Answer × World K
  | query q => (q.run pf w.db, w)
  | write wr =>
      match wr.run pf (oracle.fresh w.draws) (oracle.clock w.calls) w.db with
      | .error e => (.error e, w)
      | .ok c => (.ok c.result, c.bumps.foldl World.bump { w with db := c.db })
  | getFrame pre index => (.ok ((w.objects (frameKey pre index)).map (·.data)), w)
  | getCrop ownerId clusterId => (.ok (w.objects (cropKey ownerId clusterId)), w)
  | putCrop ownerId clusterId data =>
      (.ok (cropKey ownerId clusterId),
        w.setObject (cropKey ownerId clusterId) (some ⟨data, "image/jpeg"⟩))
  | deleteCrop ownerId clusterId => (.ok (), w.setObject (cropKey ownerId clusterId) none)
  | cacheLookup ownerId => (.ok (w.epoch ownerId, w.cached (oracle.clock w.calls) ownerId), w)
  | cacheStore ownerId epoch value =>
      let entry := ⟨epoch, oracle.clock w.calls, value⟩
      (.ok (), { w with entries := Function.update w.entries ownerId (some entry) })
  | poll => (.ok (oracle.gone w.polls), { w with polls := w.polls + 1 })

def Write.isUpsert : Write K → Bool
  | upsertCluster .. => true
  | _ => false

/-- Whether the call draws an id. -/
def Call.draws : Call K → Bool
  | write w => w.isUpsert
  | _ => false

/-- The handler of the service: the effect of the call, counted. -/
def answer [LinearOrder K] (pf : Platform K) (oracle : Oracle) :
    Prog.Handler (Call K) Call.Answer PyError (World K) :=
  fun c w =>
    let (r, w') := c.effect pf oracle w
    (r, { w' with calls := w'.calls + 1, draws := w'.draws + if c.draws then 1 else 0 })

end FacesService
