import FacesService.Model.Schema
import FacesService.Base.Probe

/-!
`app/db.py`. Each function is the body of one `with conn()` block: it takes
the committed database and either raises, in which case the transaction is
rolled back, or returns. A write returns a `Commit`: the Python result, the
committed database, and the owners whose suggestion index it bumps once the
block has been left.

An id arrives as the string the caller has. The first statement that mentions
it casts it, so a string that is no uuid raises there and not before.
-/

namespace FacesService

structure Commit (K α : Type) where
  result : α
  db : Database K
  bumps : List String

namespace Db

variable {K : Type}

/-- `[… for r in rows ORDER BY le]`; Postgres and Python both sort stably
enough for the row order to decide ties. -/
def orderBy {α : Type} (le : α → α → Bool) (rows : List α) : List α :=
  rows.insertionSort fun a b => le a b = true

/-- `list(dict.fromkeys(l))`: of equal entries the first stays. -/
def fromKeys {α : Type} [DecidableEq α] (l : List α) : List α := l.reverse.dedup.reverse

/-! ### Name search -/

/-- `_escape_like`. -/
def escapeLike (s : List Char) : List Char :=
  s.flatMap fun c => if c = '\\' || c = '%' || c = '_' then ['\\', c] else [c]

inductive LikeToken
  | anyString
  | anyChar
  | lit (c : Char)
  deriving DecidableEq

/-- A `LIKE` pattern with `ESCAPE '\'`; a pattern may not end in the escape. -/
def likeTokens : List Char → Option (List LikeToken)
  | [] => some []
  | ['\\'] => none
  | '\\' :: c :: p => (likeTokens p).map (.lit c :: ·)
  | '%' :: p => (likeTokens p).map (.anyString :: ·)
  | '_' :: p => (likeTokens p).map (.anyChar :: ·)
  | c :: p => (likeTokens p).map (.lit c :: ·)

/-- `ILIKE`: letters are compared after case folding. -/
def likeMatch (fold : Char → Char) : List LikeToken → List Char → Bool
  | [], s => s.isEmpty
  | .anyString :: p, s => s.tails.any (likeMatch fold p)
  | .anyChar :: p, s =>
      match s with
      | [] => false
      | _ :: s => likeMatch fold p s
  | .lit c :: p, s =>
      match s with
      | [] => false
      | d :: s => fold c = fold d && likeMatch fold p s

structure NamedCluster where
  id : Uuid
  name : Option String
  isNamed : Bool
  sampleCount : ℕ
  cropObject : Option String
  deriving DecidableEq

def NamedCluster.ofRow (c : Cluster K) : NamedCluster where
  id := c.id
  name := c.name
  isNamed := c.isNamed
  sampleCount := c.sampleCount
  cropObject := c.cropObject

/-- `search_named_clusters`. -/
def searchNamedClusters (pf : Platform K) (db : Database K) (ownerId pre : String)
    (limit : ℕ) : Except PyError (List NamedCluster) := do
  let owner ← castUuid ownerId
  match likeTokens (escapeLike pre.toList ++ ['%']) with
  | none => .error .invalidEscape
  | some pattern =>
      let rows := db.clusters.filter fun c =>
        c.ownerId = owner && c.isNamed &&
          match c.name with
          | none => false
          | some n => likeMatch pf.foldCase pattern n.toList
      let rows := orderBy (fun a b => pf.collate (a.name.getD "") (b.name.getD "")) rows
      .ok ((rows.take limit).map .ofRow)

/-! ### Clusters and their videos -/

/-- `get_clusters_for_owner`: `ORDER BY is_named DESC, created_at ASC`. -/
def getClustersForOwner (db : Database K) (ownerId : String) : Except PyError (List (Cluster K)) := do
  let owner ← castUuid ownerId
  let rows := db.clusters.filter fun c => c.ownerId = owner
  .ok (orderBy (fun a b =>
    (a.isNamed && !b.isNamed) || (a.isNamed == b.isNamed && a.createdAt ≤ b.createdAt)) rows)

/-- `get_cluster`. The owner, when given, is compared as a string. -/
def getCluster (db : Database K) (clusterId : String) (ownerId : Option String) :
    Except PyError (Option (Cluster K)) := do
  let id ← castUuid clusterId
  match db.clusterById id with
  | none => .ok none
  | some r =>
      match ownerId with
      | none => .ok (some r)
      | some owner => .ok (if r.ownerId.text ≠ owner then none else some r)

structure VideoCount where
  streamId : Uuid
  count : ℕ
  deriving DecidableEq

/-- `SELECT stream_id, count(*) AS n … GROUP BY stream_id ORDER BY n DESC`. -/
def videoCounts (rows : List (Occurrence K)) : List VideoCount :=
  let streams := (rows.map (·.streamId)).dedup
  orderBy (fun a b => b.count ≤ a.count) (streams.map fun s => ⟨s, rows.countP (·.streamId = s)⟩)

/-- `get_cluster_videos`. -/
def getClusterVideos (db : Database K) (clusterId : String) : Except PyError (List VideoCount) := do
  let id ← castUuid clusterId
  .ok (videoCounts (db.occurrences.filter fun o => o.clusterId = id))

/-- `get_clusters_videos`: a dict from cluster id to its videos, over the
clusters of the owner that occur in a video. -/
def getClustersVideos (db : Database K) (ownerId : String) :
    Except PyError (List (Uuid × List VideoCount)) := do
  let owner ← castUuid ownerId
  let joined := db.occurrences.filter fun o =>
    db.clusters.any fun c => c.id = o.clusterId && c.ownerId = owner
  .ok ((joined.map (·.clusterId)).dedup.map fun id =>
    (id, videoCounts (joined.filter fun o => o.clusterId = id)))

inductive SearchMode
  | all
  | any
  deriving DecidableEq

structure StreamHit where
  streamId : Uuid
  persons : ℕ
  frames : ℕ
  deriving DecidableEq

/-- `get_streams_for_clusters`. -/
def getStreamsForClusters (db : Database K) (ownerId : String) (clusterIds : List String)
    (mode : SearchMode) : Except PyError (List StreamHit) := do
  let ids := fromKeys clusterIds
  if ids = [] then .ok []
  else
    let threshold := if mode = .all then ids.length else 1
    let owner ← castUuid ownerId
    let uuids ← ids.mapM castUuid
    let rows := db.occurrences.filter fun o => o.ownerId = owner && o.clusterId ∈ uuids
    let hits := (rows.map (·.streamId)).dedup.map fun s =>
      let rows := rows.filter fun o => o.streamId = s
      (⟨s, (rows.map (·.clusterId)).dedup.length, rows.length⟩ : StreamHit)
    .ok (orderBy (fun a b => b.persons < a.persons ||
        (a.persons = b.persons && (b.frames < a.frames ||
          (a.frames = b.frames && a.streamId.text ≤ b.streamId.text))))
      (hits.filter fun h => threshold ≤ h.persons))

/-- `get_clusters_without_occurrences`. -/
def getClustersWithoutOccurrences (db : Database K) (ownerId : String) :
    Except PyError (List (Cluster K)) := do
  let owner ← castUuid ownerId
  .ok (db.clusters.filter fun c => c.ownerId = owner && db.countFor c.id = 0)

/-- `get_cluster_occurrences`: `ORDER BY created_at DESC`. -/
def getClusterOccurrences (db : Database K) (clusterId : String) :
    Except PyError (List (Occurrence K)) := do
  let id ← castUuid clusterId
  .ok (orderBy (fun a b => b.createdAt ≤ a.createdAt)
    (db.occurrences.filter fun o => o.clusterId = id))

/-- `get_cluster_occurrence`. -/
def getClusterOccurrence [DecidableEq K] (db : Database K) (clusterId streamId : String) (t : K) :
    Except PyError (Option (Occurrence K)) := do
  let id ← castUuid clusterId
  let stream ← castUuid streamId
  .ok (db.occurrences.find? fun o => o.clusterId = id && o.streamId = stream && o.tSeconds = t)

/-- `get_occurrences_for_stream`: `ORDER BY cluster_id, t_seconds`. -/
def getOccurrencesForStream [LinearOrder K] (db : Database K) (streamId : String) :
    Except PyError (List (Occurrence K)) := do
  let stream ← castUuid streamId
  .ok (orderBy (fun a b => a.clusterId.text < b.clusterId.text ||
      (a.clusterId = b.clusterId && a.tSeconds ≤ b.tSeconds))
    (db.occurrences.filter fun o => o.streamId = stream))

end Db

end FacesService
