import FacesService.Model.Infer

/-!
`app/routes/reader.py`: one program for each endpoint. A response with a status
other than 200 is the error `http status detail`; any other error is answered
with status 500. The checks FastAPI makes before an endpoint is entered (types,
lengths, bounds of the parameters) are the types and the callers' business.
-/

namespace FacesService.Reader

open Prog

variable {K : Type}

/-! ### Callers -/

/-- What `authorized` reads off the token. -/
structure AuthContext where
  userId : String
  role : Option String

/-- `ensure_owner`. -/
def ensureOwner (auth : AuthContext) (ownerId : String) : Except PyError Unit :=
  if auth.role = some "admin" then .ok ()
  else if auth.userId ≠ ownerId then .error (.auth 404 "not found")
  else .ok ()

/-- `except AuthError as e: raise HTTPException(e.status, e.message)`. -/
def asHttp : PyError → PyError
  | .auth status message => .http status message
  | e => e

/-- The first lines of every endpoint about one cluster. -/
def ownedCluster (auth : AuthContext) (clusterId : String) : Program K (Cluster K) := do
  match ← query (.getCluster clusterId none) with
  | none => raise (.http 404 "not found")
  | some c =>
      match ensureOwner auth c.ownerId.text with
      | .error e => raise (asHttp e)
      | .ok () => return c

/-- `if s:` on a string that may be missing. -/
def truthy : Option String → Bool
  | none => false
  | some s => s ≠ ""

/-- `try: … except Exception: return other`; a call that hangs is not caught. -/
def orElse {α : Type} (p : Program K α) (other : α) : Program K α :=
  p.tryCatch fun e => if e = .hangs then raise e else pure other

/-! ### Lists -/

structure ListedCluster where
  id : Uuid
  name : Option String
  isNamed : Bool
  sampleCount : ℕ
  cropObject : Option String
  createdAt : ℕ
  updatedAt : ℕ
  videoCount : ℕ
  videos : List Db.VideoCount
  deriving DecidableEq

structure ListedGroup (K : Type) where
  rep : ListedCluster
  members : List (ListedCluster × K)
  maxSim : K
  deriving DecidableEq

structure ListBody (K : Type) where
  clusters : List ListedCluster
  groups : List (ListedGroup K)
  total : ℕ
  emptyCount : ℕ
  restTotal : ℕ
  limit : ℕ
  offset : ℕ
  deriving DecidableEq

/-- `videos_by_cluster.get(id, [])`. -/
def videosOf (videos : List (Uuid × List Db.VideoCount)) (id : Uuid) : List Db.VideoCount :=
  (videos.lookup id).getD []

/-- `stats`. -/
def listed (videos : List (Uuid × List Db.VideoCount)) (c : Cluster K) : ListedCluster where
  id := c.id
  name := c.name
  isNamed := c.isNamed
  sampleCount := c.sampleCount
  cropObject := c.cropObject
  createdAt := c.createdAt
  updatedAt := c.updatedAt
  videoCount := (videosOf videos c.id).length
  videos := videosOf videos c.id

/-- `l.sort(key=key, reverse=reverse)`. -/
def sortBy {α β : Type} [LinearOrder β] (key : α → β) (reverse : Bool) (l : List α) : List α :=
  l.insertionSort fun a b => if reverse then key b ≤ key a else key a ≤ key b

/-- `.sort(key=_flat_key, reverse=reverse)`. -/
def sortClusters (sort : String) (reverse : Bool) (l : List (Cluster K)) : List (Cluster K) :=
  if sort = "samples" then sortBy (fun c => toLex (c.sampleCount, c.id.text)) reverse l
  else if sort = "added" then sortBy (fun c => toLex (c.createdAt, c.id.text)) reverse l
  else sortBy (fun c => toLex (c.name.isNone, toLex (c.name.getD "", c.id.text))) reverse l

/-- The clusters of the owner that appear in a video. -/
def withVideos (clusters : List (Cluster K)) (videos : List (Uuid × List Db.VideoCount)) :
    List (Cluster K) :=
  clusters.filter fun c => c.id ∈ videos.map (·.1)

/-- `sort` and `order` after the checks: whether to sort in reverse. -/
def sortOrder (sort : String) (order : Option String) : Except PyError Bool :=
  if sort ∉ ["name", "samples", "added"] then .error (.http 400 "invalid sort")
  else match order with
    | none => .ok (sort ≠ "name")
    | some order =>
        if order ∉ ["asc", "desc"] then .error (.http 400 "invalid order") else .ok (order = "desc")

section Endpoints

variable [Arithmetic K] (svc : Service K) (auth : AuthContext)

/-- The body of `list_faces`, once the rows are read. -/
def listBody (limit offset : ℕ) (sort : String) (reverse : Bool) (clusters : List (Cluster K))
    (videos : List (Uuid × List Db.VideoCount)) : Except PyError (ListBody K) := do
  let rest := withVideos clusters videos
  let groups ← buildSimilarityGroups svc.pf (withCentroid rest) similarityThreshold
  let grouped := groups.flatMap fun g => g.clusters.map (·.id)
  let flat := rest.filter fun c => c.id ∉ grouped || c.isNamed
  let flat := sortClusters sort reverse (flat.filter (·.isNamed)) ++
    sortClusters sort reverse (flat.filter (!·.isNamed))
  .ok {
    clusters := ((flat.drop offset).take limit).map (listed videos)
    groups := groups.map fun g =>
      ⟨listed videos g.rep, g.members.map fun m => (listed videos m.cluster, m.sim), g.maxSim⟩
    total := rest.length
    emptyCount := clusters.length - rest.length
    restTotal := flat.length
    limit := limit
    offset := offset }

/-- `list_faces`. -/
def listFaces (limit offset : ℕ) (sort : String) (order : Option String) :
    Program K (ListBody K) := do
  let reverse ← lift (sortOrder sort order)
  let clusters ← query (.getClustersForOwner auth.userId)
  let videos ← query (.getClustersVideos auth.userId)
  lift (listBody svc limit offset sort reverse clusters videos)

structure SearchBody where
  streams : List Db.StreamHit
  total : ℕ
  mode : Db.SearchMode
  deriving DecidableEq

omit [Arithmetic K] in
/-- `search_videos_by_faces`. -/
def searchVideosByFaces (clusterIds : List String) (mode : Db.SearchMode) :
    Program K SearchBody := do
  let streams ← query (.getStreamsForClusters auth.userId (Db.fromKeys clusterIds) mode)
  return ⟨streams, streams.length, mode⟩

omit [Arithmetic K] in
/-- `suggest_faces`. -/
def suggestFaces (q : String) (exclude : Option String) : Program K (List Db.NamedCluster) := do
  let clusters ← query (.searchNamedClusters auth.userId (pyStrip q) 10)
  return if truthy exclude then clusters.filter fun c => some c.id.text ≠ exclude else clusters

/-! ### Deleting -/

/-- `if store is not None and …: try: store.delete_crop(…) except Exception`. -/
def purgeCrop (due : Bool) (ownerId clusterId : String) : Program K Unit :=
  if svc.storeReady && due then orElse (call (.deleteCrop ownerId clusterId)) () else pure ()

omit [Arithmetic K] in
/-- One round of the loop of `delete_empty_faces` and `delete_faces_batch`. -/
def deleteListed (deleted : ℕ) (clusterId : String) : Program K ℕ := do
  match ← write (.deleteCluster clusterId auth.userId) with
  | none => return deleted
  | some result =>
      purgeCrop svc (truthy result.cropObject) result.ownerId clusterId
      return deleted + 1

omit [Arithmetic K] in
/-- `delete_empty_faces`. -/
def deleteEmptyFaces : Program K ℕ := do
  let rows ← query (.getClustersWithoutOccurrences auth.userId)
  (rows.map (·.id.text)).foldlM (deleteListed svc auth) 0

omit [Arithmetic K] in
/-- `delete_faces_batch`. -/
def deleteFacesBatch (clusterIds : List String) : Program K ℕ :=
  (Db.fromKeys clusterIds).foldlM (deleteListed svc auth) 0

omit [Arithmetic K] in
/-- `delete_face`. -/
def deleteFace (clusterId : String) : Program K String := do
  let c ← ownedCluster auth clusterId
  match ← write (.deleteCluster clusterId c.ownerId.text) with
  | none => raise (.http 404 "not found")
  | some result =>
      purgeCrop svc (truthy result.cropObject) result.ownerId clusterId
      return clusterId

structure DetachBody where
  clusterId : String
  streamId : String
  removed : ℕ
  sampleCount : ℕ
  clusterDeleted : Bool
  deriving DecidableEq

omit [Arithmetic K] in
/-- `detach_stream_face`. -/
def detachStreamFace (streamId clusterId : String) : Program K DetachBody := do
  let c ← ownedCluster auth clusterId
  match ← write (.detachClusterFromStream clusterId streamId c.ownerId.text) with
  | none => raise (.http 404 "not found")
  | some result =>
      purgeCrop svc (truthy result.cropObject) c.ownerId.text clusterId
      return ⟨clusterId, streamId, result.removed, result.sampleCount, result.clusterDeleted⟩

/-! ### Merging -/

structure MergeBody (K : Type) where
  cluster : Option (Cluster K)
  mergedIds : List String
  targetId : String

/-- The loop of `merge_faces`: every cluster is the caller's; the first one
with a name is the target. -/
def chooseTarget : List String → Option (String × String) → Program K (Option (String × String))
  | [], target => return target
  | cid :: ids, target => do
      let c ← ownedCluster auth cid
      chooseTarget ids (target.or (if c.isNamed then some (cid, c.ownerId.text) else none))

/-- `if target_id is None: …`. -/
def defaultTarget (ids : List String) : Program K (String × String) :=
  match ids with
  | [] => raise .indexError
  | cid :: _ => do
      match ← query (.getCluster cid none) with
      | none => raise .typeError
      | some c => return (cid, c.ownerId.text)

/-- The target of a merge and its owner. -/
def selectTarget (ids : List String) : Program K (String × String) := do
  match ← chooseTarget auth ids none with
  | some target => return target
  | none => defaultTarget ids

omit [Arithmetic K] in
/-- `merge_faces`. -/
def mergeFaces (clusterIds : List String) : Program K (MergeBody K) := do
  let (targetId, targetOwner) ← selectTarget auth clusterIds
  match ← write (.mergeClusters targetOwner targetId (clusterIds.filter (· ≠ targetId))) with
  | none => raise (.http 404 "not found")
  | some result =>
      result.deletedClusterIds.forM (purgeCrop svc true targetOwner)
      let merged ← query (.getCluster targetId (some targetOwner))
      return ⟨merged, clusterIds, targetId⟩

structure MergeCounts where
  groupsMerged : ℕ
  clustersMerged : ℕ
  failures : ℕ
  deriving DecidableEq

/-- The member a group is merged into: the named one, or the representative. -/
def groupTarget (g : Group K) : Cluster K := (g.clusters.find? (·.isNamed)).getD g.rep

omit [Arithmetic K] in
/-- One round of the loop of `merge_duplicate_groups`. -/
def mergeGroup (counts : MergeCounts) (g : Group K) : Program K MergeCounts := do
  let ids := g.clusters.map (·.id.text)
  let target := (groupTarget g).id.text
  match ← orElse (write (.mergeClusters auth.userId target (ids.filter (· ≠ target)))) none with
  | none => return { counts with failures := counts.failures + 1 }
  | some result =>
      result.deletedClusterIds.forM (purgeCrop svc true auth.userId)
      return { counts with
        groupsMerged := counts.groupsMerged + 1
        clustersMerged := counts.clustersMerged + ids.length }

/-- `merge_duplicate_groups`. -/
def mergeDuplicateGroups (minSimilarity : Option K) : Program K MergeCounts := do
  let clusters ← query (.getClustersForOwner auth.userId)
  let videos ← query (.getClustersVideos auth.userId)
  let groups ← lift (buildSimilarityGroups svc.pf (withCentroid (withVideos clusters videos))
    similarityThreshold)
  let exact := selectExactDuplicateGroups groups (minSimilarity.getD exactDuplicateThreshold)
  exact.foldlM (mergeGroup svc auth) ⟨0, 0, 0⟩

/-! ### One cluster -/

structure OccurrenceInfo (K : Type) where
  streamId : Uuid
  tSeconds : K
  confidence : K
  createdAt : ℕ
  deriving DecidableEq

def OccurrenceInfo.ofRow (o : Occurrence K) : OccurrenceInfo K :=
  ⟨o.streamId, o.tSeconds, o.confidence, o.createdAt⟩

structure FaceBody (K : Type) where
  cluster : Cluster K
  occurrences : List (OccurrenceInfo K)
  videos : List Db.VideoCount

omit [Arithmetic K] in
/-- `get_face`. -/
def getFace (clusterId : String) : Program K (FaceBody K) := do
  let c ← ownedCluster auth clusterId
  let occurrences ← query (.getClusterOccurrences clusterId)
  let videos ← query (.getClusterVideos clusterId)
  return ⟨c, occurrences.map .ofRow, videos⟩

omit [Arithmetic K] in
/-- `rename_face`. -/
def renameFace (clusterId : String) (name : Option String) : Program K (Option (Cluster K)) := do
  let c ← ownedCluster auth clusterId
  match ← write (.renameCluster clusterId c.ownerId.text name) with
  | some (code, message) =>
      raise (.http (if code = "not_found" then 404 else 409) message)
  | none => query (.getCluster clusterId none)

structure StreamOccurrence (K : Type) where
  clusterId : Uuid
  tSeconds : K
  confidence : K
  deriving DecidableEq

def StreamOccurrence.ofRow (o : Occurrence K) : StreamOccurrence K :=
  ⟨o.clusterId, o.tSeconds, o.confidence⟩

structure StreamCluster (K : Type) where
  cluster : Cluster K
  count : ℕ
  occurrences : List (StreamOccurrence K)

/-- `clusters.setdefault(r["cluster_id"], []).append(r)`. -/
def byCluster (rows : List (StreamOccurrence K)) : List (Uuid × List (StreamOccurrence K)) :=
  (Db.fromKeys (rows.map (·.clusterId))).map fun id => (id, rows.filter (·.clusterId = id))

/-- One round of the loop of `stream_faces`. -/
def streamFace (out : List (StreamCluster K)) (entry : Uuid × List (StreamOccurrence K)) :
    Program K (List (StreamCluster K)) := do
  match ← query (.getCluster entry.1.text none) with
  | none => return out
  | some c =>
      match ensureOwner auth c.ownerId.text with
      | .error _ => return out
      | .ok () => return out ++ [⟨c, entry.2.length, entry.2⟩]

omit [Arithmetic K] in
/-- `stream_faces`. -/
def streamFaces (streamId : String) : Program K (List (StreamCluster K)) := do
  let rows ← query (.getOccurrencesForStream streamId)
  (byCluster (rows.map .ofRow)).foldlM (streamFace auth) []

end Endpoints

end FacesService.Reader
