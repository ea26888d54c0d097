import FacesService.Model.Service

/-!
`app/infer.py`. `clusters` and `cluster_map` share their dicts, so the run has
one list of known clusters, looked up by id; what the dicts say of crops is a
dict of its own, with an entry for each cluster that has one.
-/

namespace FacesService

open Prog

variable {K : Type} [Arithmetic K]

/-- The arguments of `InferEngine.run`; `cancel` tells whether one is given. -/
structure RunArgs where
  streamId : String
  ownerId : String
  framesPrefix : String
  count : ℤ
  maxFrames : ℤ
  cancel : Bool
  cancelEvery : ℕ

/-- `frame_indices`. -/
def frameIndices (count maxFrames : ℤ) : List ℕ :=
  if count ≤ 0 then []
  else if maxFrames ≤ 0 ∨ count ≤ maxFrames then List.range count.toNat
  else
    -- `range(0, count, stride)` with `stride = ceil(count / max_frames)`
    let stride := ((count + maxFrames - 1) / maxFrames).toNat
    (List.range ((count.toNat + stride - 1) / stride)).map (· * stride)

/-- `(idx + 0.5) * SAMPLE_INTERVAL_SECONDS`. -/
def sampleTime (idx : ℕ) : K := ((idx : K) + 1 / 2) * 5

/-- `decode_img`. -/
def decodeImg (vision : Vision K) (raw : Bytes) : Option Image :=
  match vision.imdecode raw with
  | none => none
  | some img => if img.height = 0 ∨ img.width = 0 then none else some img

/-- `_crop_jpeg`. -/
def cropJpeg (svc : Service K) (img : Image) (bbox : K × K × K × K) : Option Bytes :=
  let pad : K := 15 / 100
  let (x1, y1, x2, y2) := bbox
  let (bw, bh) := (x2 - x1, y2 - y1)
  if bw ≤ 1 ∨ bh ≤ 1 then none
  else
    let x1 := max 0 (svc.pf.trunc (x1 - bw * pad))
    let y1 := max 0 (svc.pf.trunc (y1 - bh * pad))
    let x2 := min (img.width : ℤ) (svc.pf.trunc (x2 + bw * pad))
    let y2 := min (img.height : ℤ) (svc.pf.trunc (y2 + bh * pad))
    if x2 - x1 < 8 ∨ y2 - y1 < 8 then none
    else svc.vision.imencode (svc.vision.slice img y1 y2 x1 x2)

/-! ### The clusters in memory -/

/-- The cluster an embedding goes to: the best match, if it is in the map. -/
def assign (svc : Service K) (known : List (Known K)) (embedding : List K) :
    Except PyError (Option (Known K)) := do
  let (best, _) ← matchCluster svc.pf embedding known svc.config.matchThreshold
    svc.config.unknownThreshold
  match best with
  | none => .ok none
  | some id => .ok (known.find? fun c => c.id = id)

/-- The dict of a cluster the run has just created. -/
def Known.created (pf : Platform K) (id : String) (embedding : List K) : Known K where
  id := id
  isNamed := false
  centroid := asFloat32 pf embedding
  sampleCount := 0

/-- A matched cluster takes the embedding into its running mean. -/
def absorb (pf : Platform K) (c : Known K) (embedding : List K) : Except PyError (Known K) := do
  let merged ← mergeCentroid pf (asFloat32 pf c.centroid) c.sampleCount embedding
  .ok { c with centroid := merged, sampleCount := c.sampleCount + 1 }

/-- The dict of one id changes in place. -/
def updateKnown (known : List (Known K)) (c : Known K) : List (Known K) :=
  known.map fun k => if k.id = c.id then c else k

/-- `d[key] = value` on a dict in insertion order. -/
def dictSet {α : Type} (d : List (String × α)) (key : String) (value : α) : List (String × α) :=
  if d.any fun e => e.1 = key then d.map fun e => if e.1 = key then (key, value) else e
  else d ++ [(key, value)]

/-- The local variables of the frame loop. -/
structure LoopState (K : Type) where
  known : List (Known K)
  crops : List (String × String)
  drift : List (String × List K)
  items : List (Db.Item K)
  facesDetected : ℕ
  frameSkipped : ℕ
  createdIds : List String
  cropsSaved : ℕ

/-! ### The frame loop -/

/-- The cluster a detection goes to, created if there is none, and whether it
needs a crop. -/
def place (svc : Service K) (ownerId : String) (st : LoopState K) (embedding : List K) :
    Program K (Known K × Bool × LoopState K) := do
  match ← lift (assign svc st.known embedding) with
  | none =>
      let newId ← write (.upsertCluster ownerId none false (asFloat32 svc.pf embedding))
      let c := Known.created svc.pf newId.text embedding
      return (c, true, { st with
        known := st.known ++ [c]
        drift := dictSet st.drift c.id c.centroid
        createdIds := st.createdIds ++ [c.id] })
  | some c =>
      let c ← lift (absorb svc.pf c embedding)
      return (c, st.crops.lookup c.id = none, { st with
        known := updateKnown st.known c
        drift := dictSet st.drift c.id c.centroid })

/-- The crop a detection gives its cluster. -/
def newCrop (svc : Service K) (img : Image) (needCrop : Bool) (det : Detection K) : Option Bytes :=
  if needCrop then det.bbox.bind (cropJpeg svc img) else none

def saveCrop (svc : Service K) (ownerId : String) (img : Image) (det : Detection K)
    (c : Known K) (needCrop : Bool) (st : LoopState K) : Program K (LoopState K) :=
  match newCrop svc img needCrop det with
  | none => pure st
  | some jpeg => do
      let key ← call (.putCrop ownerId c.id jpeg)
      write (.setClusterCrop c.id ownerId (some key))
      return { st with
        crops := dictSet st.crops c.id key
        cropsSaved := st.cropsSaved + 1 }

/-- The body of the loop over the detections of a frame. -/
def seeDetection (svc : Service K) (ownerId : String) (img : Image) (tSeconds : K)
    (st : LoopState K) (det : Detection K) : Program K (LoopState K) := do
  let (c, needCrop, st) ←
    place svc ownerId { st with facesDetected := st.facesDetected + 1 } det.embedding
  let st ← saveCrop svc ownerId img det c needCrop st
  return { st with
    items := st.items ++ [⟨c.id, asFloat32 svc.pf det.embedding, tSeconds, det.confidence⟩] }

/-- `if cancel is not None and done % cancel_every == 0 and cancel()`. -/
def pollCancel (args : RunArgs) (done : ℕ) : Program K Unit :=
  if args.cancel then
    if args.cancelEvery = 0 then raise .zeroDivision
    else if done % args.cancelEvery = 0 then do
      let gone ← call .poll
      if gone then raise (.inferenceAborted done) else pure ()
    else pure ()
  else pure ()

/-- What the loop does with one frame. -/
def seeFrame (svc : Service K) (args : RunArgs) (idx : ℕ) (st : LoopState K) :
    Program K (LoopState K) := do
  match ← call (.getFrame args.framesPrefix idx) with
  | none => return { st with frameSkipped := st.frameSkipped + 1 }
  | some raw =>
      match decodeImg svc.vision raw with
      | none => return { st with frameSkipped := st.frameSkipped + 1 }
      | some img =>
          (svc.vision.embed img svc.config.detectThreshold 0 0).foldlM
            (seeDetection svc args.ownerId img (sampleTime idx)) st

def seeFrames (svc : Service K) (args : RunArgs) : List ℕ → ℕ → LoopState K →
    Program K (LoopState K)
  | [], _, st => return st
  | idx :: rest, done, st => do
      pollCancel args done
      let st ← seeFrame svc args idx st
      seeFrames svc args rest (done + 1) st

/-! ### The run -/

structure RunResult where
  facesDetected : ℕ
  framesProcessed : ℕ
  framesSkipped : ℕ
  framesSampledOut : ℤ
  occurrencesWritten : ℕ
  clustersCreated : List String
  cropsSaved : ℕ
  deriving DecidableEq

/-- The loop starts from the clusters of the owner. -/
def LoopState.start (rows : List (Cluster K)) : LoopState K where
  known := rows.map .ofRow
  crops := rows.filterMap fun c => c.cropObject.map (c.id.text, ·)
  drift := []
  items := []
  facesDetected := 0
  frameSkipped := 0
  createdIds := []
  cropsSaved := 0

/-- The writes after the loop. -/
def persist (args : RunArgs) (st : LoopState K) : Program K ℕ := do
  let written ← write (.appendStreamOccurrences args.ownerId args.streamId st.items)
  st.drift.forM fun (clusterId, centroid) =>
    write (.updateClusterCentroid clusterId args.ownerId centroid)
  return written

/-- `InferEngine.run`. -/
def run (svc : Service K) (args : RunArgs) : Program K RunResult := do
  let indices := frameIndices args.count args.maxFrames
  let clusters ← query (.getClustersForOwner args.ownerId)
  let st ← seeFrames svc args indices 0 (.start clusters)
  let written ← persist args st
  return {
    facesDetected := st.facesDetected
    framesProcessed := indices.length - st.frameSkipped
    framesSkipped := st.frameSkipped
    framesSampledOut := args.count - indices.length
    occurrencesWritten := written
    clustersCreated := st.createdIds
    cropsSaved := st.cropsSaved }

end FacesService
