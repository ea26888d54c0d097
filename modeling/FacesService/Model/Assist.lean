import FacesService.Model.Reader

/-!
The endpoints of `app/routes/reader.py` that look at pictures: the assist on a
paused frame and the crop of a cluster. `took_ms` is left out of the response.
-/

namespace FacesService.Reader

open Prog

variable {K : Type} [Arithmetic K] (svc : Service K) (auth : AuthContext)

def maxCropBytes : ℕ := 5 * 1024 * 1024

omit [Arithmetic K] in
/-- `_read_image`. -/
def readImage (raw : Bytes) : Except PyError Image :=
  if maxCropBytes < raw.length then .error (.http 413 "file too large")
  else match decodeImg svc.vision raw with
    | none => .error (.http 400 "invalid image")
    | some img => .ok img

omit [Arithmetic K] in
/-- `_engine_or_503`. -/
def engineOr503 : Except PyError Unit :=
  if svc.engineReady then .ok () else .error (.http 503 "engine not ready")

omit [Arithmetic K] in
/-- `if store is None: raise …`. -/
def storeOr503 : Except PyError Unit :=
  if svc.storeReady then .ok () else .error (.http 503 "storage unavailable")

omit [Arithmetic K] in
/-- `engine.model.embed`, as the interactive endpoints call it. -/
def detectOn (img : Image) : List (Detection K) :=
  svc.vision.embed img svc.config.detectThreshold svc.config.assistDetSize
    svc.config.assistMinFaceRatio

/-! ### The paused frame -/

structure Suggestion (K : Type) where
  id : Uuid
  name : Option String
  isNamed : Bool
  sampleCount : ℕ
  cropObject : Option String
  similarity : K
  auto : Bool
  deriving DecidableEq

structure DetectedFace (K : Type) where
  bbox : K × K × K × K
  confidence : K
  suggestion : Option (Suggestion K)
  deriving DecidableEq

structure DetectBody (K : Type) where
  faces : List (DetectedFace K)
  width : ℕ
  height : ℕ
  deriving DecidableEq

/-- `{**_public_cluster(cluster), "similarity": …, "auto": …}`. -/
def suggestion (c : Cluster K) (sim : K) : Suggestion K where
  id := c.id
  name := c.name
  isNamed := c.isNamed
  sampleCount := c.sampleCount
  cropObject := c.cropObject
  similarity := svc.pf.round4 sim
  auto := svc.config.assistAutoThreshold ≤ sim

/-- The loop over the detections of `detect_faces`. -/
def detectedFaces (index : SuggestionIndex K) :
    List (Detection K) → Except PyError (List (DetectedFace K))
  | [] => .ok []
  | det :: dets =>
      match det.bbox with
      | none => detectedFaces index dets
      | some bbox => do
          let (cluster, sim) ← bestMatch svc.pf index det.embedding svc.config.unknownThreshold
          let faces ← detectedFaces index dets
          .ok (⟨bbox, det.confidence, cluster.map (suggestion svc · sim)⟩ :: faces)

/-- `SUGGESTION_INDEX.get`. -/
def suggestionIndex (ownerId : String) : Program K (SuggestionIndex K) := do
  let (epoch, entry) ← call (.cacheLookup ownerId)
  match entry with
  | some value => return value
  | none =>
      let clusters ← query (.getClustersForOwner ownerId)
      let value ← lift (buildSuggestionIndex svc.pf clusters)
      call (.cacheStore ownerId epoch value)
      return value

/-- `detect_faces`. -/
def detectFaces (file : Bytes) : Program K (DetectBody K) := do
  let img ← lift (readImage svc file)
  lift (engineOr503 svc)
  let index ← suggestionIndex svc auth.userId
  let faces ← lift (detectedFaces svc index (detectOn svc img))
  return ⟨faces, img.width, img.height⟩

/-- `[float(v) for v in bbox.split(",")]` and the checks on it. -/
def parseBox (bbox : String) : Except PyError (K × K × K × K) :=
  match (bbox.splitOn ",").mapM svc.pf.parseFloat with
  | some [x1, y1, x2, y2] =>
      if x2 ≤ x1 ∨ y2 ≤ y1 then .error (.http 400 "bbox must be x1,y1,x2,y2")
      else .ok (x1, y1, x2, y2)
  | _ => .error (.http 400 "bbox must be x1,y1,x2,y2")

/-- The detection that overlaps the box most, and its overlap. -/
def bestBox (box : K × K × K × K) (dets : List (Detection K)) : Option (Detection K) × K :=
  dets.foldl (fun best det =>
    match det.bbox with
    | none => best
    | some bbox => if best.2 < iou bbox box then (some det, iou bbox box) else best) (none, 0)

/-- The detection to attach. -/
def faceInBox (box : K × K × K × K) (dets : List (Detection K)) : Except PyError (Detection K) :=
  match bestBox box dets with
  | (some det, score) =>
      if score < 1 / 2 then .error (.http 409 "face not found in the given box") else .ok det
  | (none, _) => .error (.http 409 "face not found in the given box")

structure AttachBody (K : Type) where
  cluster : Option (Cluster K)
  created : Bool
  written : ℕ
  tSeconds : K

/-- The cluster to attach to, if one is given. -/
def givenCluster (clusterId : Option String) : Program K (Option (Cluster K)) :=
  match clusterId with
  | none => pure none
  | some id => if id = "" then pure none else some <$> ownedCluster auth id

/-- `if cluster is None: …`: a new cluster, read back. -/
def attachTarget (ownerId : String) (centroid : List K) (cluster : Option (Cluster K)) :
    Program K (Cluster K × Bool) := do
  match cluster with
  | some c => return (c, false)
  | none =>
      let newId ← write (.upsertCluster ownerId none false centroid)
      match ← query (.getCluster newId.text (some ownerId)) with
      | none => raise .typeError
      | some c => return (c, true)

/-- The crop a cluster without one gets on the way. -/
def attachCrop (img : Image) (ownerId clusterId : String) (det : Detection K) (c : Cluster K) :
    Program K Unit :=
  if truthy c.cropObject then pure ()
  else match det.bbox.bind (cropJpeg svc img) with
    | none => pure ()
    | some jpeg =>
        if svc.storeReady then do
          let key ← call (.putCrop ownerId clusterId jpeg)
          write (.setClusterCrop clusterId ownerId (some key))
        else pure ()

/-- `attach_frame_face`. -/
def attachFrameFace (streamId : String) (file : Bytes) (bbox : String) (tSeconds : K)
    (clusterId : Option String) : Program K (AttachBody K) := do
  let img ← lift (readImage svc file)
  lift (engineOr503 svc)
  let box ← lift (parseBox svc bbox)
  if tSeconds < 0 then raise (.http 400 "t_seconds out of range")
  else do
    let cluster ← givenCluster auth clusterId
    let det ← lift (faceInBox box (detectOn svc img))
    let centroid := asFloat32 svc.pf det.embedding
    let ownerId := match cluster with
      | none => auth.userId
      | some c => c.ownerId.text
    let (c, created) ← attachTarget ownerId centroid cluster
    let id := c.id.text
    let written ← write (.appendStreamOccurrences ownerId streamId
      [⟨id, centroid, tSeconds, det.confidence⟩])
    let merged ← lift (mergeCentroid svc.pf (asFloat32 svc.pf c.centroid) c.sampleCount centroid)
    write (.updateClusterCentroid id ownerId merged)
    attachCrop svc img ownerId id det c
    let updated ← query (.getCluster id (some ownerId))
    return ⟨updated, created, written, tSeconds⟩

/-! ### Crops -/

omit [Arithmetic K] in
/-- `face_crop`. -/
def faceCrop (clusterId : String) : Program K Blob := do
  let c ← ownedCluster auth clusterId
  lift (storeOr503 svc)
  match ← call (.getCrop c.ownerId.text clusterId) with
  | none => raise (.http 404 "no crop yet")
  | some blob => return blob

structure CropBody (K : Type) where
  cluster : Option (Cluster K)
  cropObject : String

omit [Arithmetic K] in
/-- The last lines of the endpoints that replace a crop. -/
def putClusterCrop (c : Cluster K) (clusterId : String) (jpeg : Bytes) : Program K (CropBody K) := do
  let key ← call (.putCrop c.ownerId.text clusterId jpeg)
  write (.setClusterCrop clusterId c.ownerId.text (some key))
  let updated ← query (.getCluster clusterId none)
  return ⟨updated, key⟩

omit [Arithmetic K] in
/-- `replace_face_crop`. -/
def replaceFaceCrop (clusterId : String) (file : Bytes) : Program K (CropBody K) := do
  let c ← ownedCluster auth clusterId
  let img ← lift (readImage svc file)
  match svc.vision.imencode img with
  | none => raise (.http 500 "image encode failed")
  | some jpeg =>
      lift (storeOr503 svc)
      putClusterCrop c clusterId jpeg

/-- `_sample_frame_index`. -/
def sampleFrameIndex (tSeconds : K) : ℤ := svc.pf.round (tSeconds / 5 - 1 / 2)

/-- `SAMPLE_MATCH_FLOOR`. -/
def sampleMatchFloor : K := 4 / 10

/-- One round of the loop that picks the face of a sample. -/
def sampleStep (target : List K) (best : Option (K × K × K × K) × K) (det : Detection K) :
    Except PyError (Option (K × K × K × K) × K) :=
  match det.bbox with
  | none => .ok best
  | some bbox => do
      let sim ← cosineSimilarity svc.pf (asFloat32 svc.pf det.embedding) target
      .ok (if best.2 ≤ sim then (some bbox, sim) else best)

/-- `_render_sample_crop`. -/
def renderSampleCrop (c : Cluster K) (streamId : String) (tSeconds : K) :
    Program K (Option Bytes) := do
  let idx := sampleFrameIndex svc tSeconds
  if tSeconds < 0 ∨ idx < 0 then return none
  else do
    lift (engineOr503 svc)
    match ← query (.getClusterOccurrence c.id.text streamId tSeconds) with
    | none => return none
    | some occ =>
        if svc.storeReady then do
          match ← call (.getFrame ("faces/" ++ streamId) idx.toNat) with
          | none => return none
          | some raw =>
              match decodeImg svc.vision raw with
              | none => return none
              | some img => do
                  let target := asFloat32 svc.pf occ.embedding
                  let (best, _) ← lift ((detectOn svc img).foldlM (sampleStep svc target)
                    (none, sampleMatchFloor))
                  return best.bind (cropJpeg svc img)
        else return none

/-- `face_sample_crop`. -/
def faceSampleCrop (clusterId streamId : String) (tSeconds : K) : Program K Bytes := do
  let c ← ownedCluster auth clusterId
  match ← renderSampleCrop svc c streamId tSeconds with
  | none => raise (.http 404 "no sample image")
  | some jpeg => return jpeg

/-- `replace_face_crop_from_sample`. -/
def replaceFaceCropFromSample (clusterId streamId : String) (tSeconds : K) :
    Program K (CropBody K) := do
  let c ← ownedCluster auth clusterId
  lift (storeOr503 svc)
  match ← renderSampleCrop svc c streamId tSeconds with
  | none => raise (.http 404 "no sample image")
  | some jpeg => putClusterCrop c clusterId jpeg

/-! ### All endpoints -/

/-- A request to the reader, past authorization and FastAPI's checks. -/
inductive Request (K : Type)
  | listFaces (limit offset : ℕ) (sort : String) (order : Option String)
  | searchVideosByFaces (clusterIds : List String) (mode : Db.SearchMode)
  | suggestFaces (q : String) (exclude : Option String)
  | deleteEmptyFaces
  | deleteFacesBatch (clusterIds : List String)
  | deleteFace (clusterId : String)
  | detachStreamFace (streamId clusterId : String)
  | mergeFaces (clusterIds : List String)
  | mergeDuplicateGroups (minSimilarity : Option K)
  | getFace (clusterId : String)
  | renameFace (clusterId : String) (name : Option String)
  | streamFaces (streamId : String)
  | detectFaces (file : Bytes)
  | attachFrameFace (streamId : String) (file : Bytes) (bbox : String) (tSeconds : K)
      (clusterId : Option String)
  | faceCrop (clusterId : String)
  | replaceFaceCrop (clusterId : String) (file : Bytes)
  | faceSampleCrop (clusterId streamId : String) (tSeconds : K)
  | replaceFaceCropFromSample (clusterId streamId : String) (tSeconds : K)

/-- The body of the response. -/
@[reducible] def Request.Body : Request K → Type
  | listFaces .. => ListBody K
  | searchVideosByFaces .. => SearchBody
  | suggestFaces .. => List Db.NamedCluster
  | deleteEmptyFaces => ℕ
  | deleteFacesBatch .. => ℕ
  | deleteFace .. => String
  | detachStreamFace .. => DetachBody
  | mergeFaces .. => MergeBody K
  | mergeDuplicateGroups .. => MergeCounts
  | getFace .. => FaceBody K
  | renameFace .. => Option (Cluster K)
  | streamFaces .. => List (StreamCluster K)
  | detectFaces .. => DetectBody K
  | attachFrameFace .. => AttachBody K
  | faceCrop .. => Blob
  | replaceFaceCrop .. => CropBody K
  | faceSampleCrop .. => Bytes
  | replaceFaceCropFromSample .. => CropBody K

/-- The endpoint a request is routed to. -/
def serve : (r : Request K) → Program K r.Body
  | .listFaces limit offset sort order => listFaces svc auth limit offset sort order
  | .searchVideosByFaces clusterIds mode => searchVideosByFaces auth clusterIds mode
  | .suggestFaces q exclude => suggestFaces auth q exclude
  | .deleteEmptyFaces => deleteEmptyFaces svc auth
  | .deleteFacesBatch clusterIds => deleteFacesBatch svc auth clusterIds
  | .deleteFace clusterId => deleteFace svc auth clusterId
  | .detachStreamFace streamId clusterId => detachStreamFace svc auth streamId clusterId
  | .mergeFaces clusterIds => mergeFaces svc auth clusterIds
  | .mergeDuplicateGroups minSimilarity => mergeDuplicateGroups svc auth minSimilarity
  | .getFace clusterId => getFace auth clusterId
  | .renameFace clusterId name => renameFace auth clusterId name
  | .streamFaces streamId => streamFaces auth streamId
  | .detectFaces file => detectFaces svc auth file
  | .attachFrameFace streamId file bbox tSeconds clusterId =>
      attachFrameFace svc auth streamId file bbox tSeconds clusterId
  | .faceCrop clusterId => faceCrop svc auth clusterId
  | .replaceFaceCrop clusterId file => replaceFaceCrop svc auth clusterId file
  | .faceSampleCrop clusterId streamId tSeconds =>
      faceSampleCrop svc auth clusterId streamId tSeconds
  | .replaceFaceCropFromSample clusterId streamId tSeconds =>
      replaceFaceCropFromSample svc auth clusterId streamId tSeconds

end FacesService.Reader
