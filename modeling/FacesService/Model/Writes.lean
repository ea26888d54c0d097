import FacesService.Model.Db

/-!
The write functions of `app/db.py`: one transaction each. `now` is the
transaction's `now()`; the id of a new cluster is the one Postgres draws for it.
-/

namespace FacesService.Db

variable {K : Type} [DecidableEq K]

/-- What a `float8[]` column holds after `_tolist_array`. -/
def toListArray (pf : Platform K) (a : List K) : List K := a.map pf.fmt

/-! ### Single clusters -/

/-- The name `rename_cluster` stores: stripped, and `None` if nothing is left. -/
def storedName (name : Option String) : Option String :=
  match name with
  | none => none
  | some n => if pyStrip n = "" then none else some (pyStrip n)

/-- Another cluster of the owner has the name, up to `lower`. -/
def nameTaken (pf : Platform K) (db : Database K) (owner id : Uuid) (name : Option String) : Bool :=
  match name with
  | none => false
  | some n => db.clusters.any fun c =>
      c.ownerId = owner && c.name.map pf.lower = some (pf.lower n) && c.id ≠ id

/-- `rename_cluster`: `none` on success, `(code, message)` on a conflict. -/
def renameCluster (pf : Platform K) (now : ℕ) (db : Database K) (clusterId ownerId : String)
    (name : Option String) : Except PyError (Commit K (Option (String × String))) := do
  let id ← castUuid clusterId
  match db.clusterById id with
  | none => .ok ⟨some ("not_found", "cluster not found"), db, []⟩
  | some row =>
      if row.ownerId.text ≠ ownerId then .ok ⟨some ("not_found", "cluster not found"), db, []⟩
      else
        let owner ← castUuid ownerId
        let name := storedName name
        if nameTaken pf db owner id name then
          .ok ⟨some ("conflict", "name already in use"), db, []⟩
        else .ok ⟨none, db.updateClusters (fun c => c.id = id) (fun c =>
          { c with name := name, isNamed := name.isSome, updatedAt := now }), [ownerId]⟩

/-- `upsert_cluster`, which only ever inserts. `fresh` is the drawn id. -/
def upsertCluster (pf : Platform K) (fresh : Uuid) (now : ℕ) (db : Database K) (ownerId : String)
    (name : Option String) (isNamed : Bool) (centroid : List K) :
    Except PyError (Commit K Uuid) := do
  let owner ← castUuid ownerId
  let db ← db.insertCluster
    { id := fresh, ownerId := owner, name := name, isNamed := isNamed,
      centroid := toListArray pf centroid, sampleCount := 0, cropObject := none,
      createdAt := now, updatedAt := now }
  .ok ⟨fresh, db, [ownerId]⟩

/-- `update_cluster_centroid`. -/
def updateClusterCentroid (pf : Platform K) (now : ℕ) (db : Database K) (clusterId ownerId : String)
    (centroid : List K) : Except PyError (Commit K Unit) := do
  let id ← castUuid clusterId
  let owner ← castUuid ownerId
  .ok ⟨(), db.updateClusters (fun c => c.id = id && c.ownerId = owner) (fun c =>
    { c with centroid := toListArray pf centroid, updatedAt := now }), [ownerId]⟩

/-- `set_cluster_crop`, the one write that bumps nothing. -/
def setClusterCrop (now : ℕ) (db : Database K) (clusterId ownerId : String)
    (cropObject : Option String) : Except PyError (Commit K Unit) := do
  let id ← castUuid clusterId
  let owner ← castUuid ownerId
  .ok ⟨(), db.updateClusters (fun c => c.id = id && c.ownerId = owner) (fun c =>
    { c with cropObject := cropObject, updatedAt := now }), []⟩

structure DeletedCluster where
  ownerId : String
  cropObject : Option String
  affectedStreams : List Uuid
  deriving DecidableEq

/-- `delete_cluster`. -/
def deleteCluster (db : Database K) (clusterId ownerId : String) :
    Except PyError (Commit K (Option DeletedCluster)) := do
  let id ← castUuid clusterId
  match db.clusterById id with
  | none => .ok ⟨none, db, []⟩
  | some row =>
      if row.ownerId.text ≠ ownerId then .ok ⟨none, db, []⟩
      else
        let streams := ((db.occurrences.filter fun o => o.clusterId = id).map (·.streamId)).dedup
        let db := db.deleteOccurrences fun o => o.clusterId = id
        let db := db.deleteClusters fun c => c.id = id
        .ok ⟨some ⟨row.ownerId.text, row.cropObject, streams⟩, db, [ownerId]⟩

/-! ### Occurrences -/

/-- One item of `append_stream_occurrences`: `(cluster_id, embedding,
t_seconds, confidence)`. -/
structure Item (K : Type) where
  clusterId : String
  embedding : List K
  tSeconds : K
  confidence : K
  deriving DecidableEq

def Item.row (pf : Platform K) (now : ℕ) (owner stream cluster : Uuid) (it : Item K) : Occurrence K where
  ownerId := owner
  streamId := stream
  clusterId := cluster
  embedding := toListArray pf it.embedding
  tSeconds := it.tSeconds
  confidence := it.confidence
  createdAt := now

/-- The insert loop, with the number of rows written so far. -/
def insertItems (pf : Platform K) (now : ℕ) (ownerId streamId : String) :
    List (Item K) → ℕ → Database K → Except PyError (ℕ × Database K)
  | [], written, db => .ok (written, db)
  | it :: items, written, db => do
      let owner ← castUuid ownerId
      let stream ← castUuid streamId
      let cluster ← castUuid it.clusterId
      let (n, db) ← db.insertOccurrenceIfNew (it.row pf now owner stream cluster)
      insertItems pf now ownerId streamId items (written + n) db

/-- `append_stream_occurrences`. -/
def appendStreamOccurrences (pf : Platform K) (now : ℕ) (db : Database K)
    (ownerId streamId : String) (items : List (Item K)) : Except PyError (Commit K ℕ) := do
  let (written, db) ← insertItems pf now ownerId streamId items 0 db
  let owner ← castUuid ownerId
  let stream ← castUuid streamId
  let db := db.recount now fun c =>
    c.ownerId = owner && db.occurrences.any fun o => o.streamId = stream && o.clusterId = c.id
  .ok ⟨written, db, [ownerId]⟩

structure DetachSummary where
  clusterId : String
  removed : ℕ
  sampleCount : ℕ
  clusterDeleted : Bool
  cropObject : Option String
  deriving DecidableEq

/-- `detach_cluster_from_stream`. -/
def detachClusterFromStream (now : ℕ) (db : Database K) (clusterId streamId ownerId : String) :
    Except PyError (Commit K (Option DetachSummary)) := do
  let id ← castUuid clusterId
  match db.clusterById id with
  | none => .ok ⟨none, db, []⟩
  | some row =>
      if row.ownerId.text ≠ ownerId then .ok ⟨none, db, []⟩
      else
        let stream ← castUuid streamId
        let owner ← castUuid ownerId
        let gone : Occurrence K → Bool := fun o =>
          o.clusterId = id && o.streamId = stream && o.ownerId = owner
        let removed := db.occurrences.countP gone
        let db := db.deleteOccurrences gone
        let db := db.recount now fun c => c.id = id && c.ownerId = owner
        let empty : Cluster K → Bool := fun c =>
          c.id = id && c.ownerId = owner && c.sampleCount = 0
        let clusterDeleted := db.clusters.any empty
        let db := db.deleteClusters empty
        let sampleCount :=
          if clusterDeleted then 0
          else match db.clusters.find? fun c => c.id = id && c.ownerId = owner with
            | some r => r.sampleCount
            | none => 0
        .ok ⟨some ⟨clusterId, removed, sampleCount, clusterDeleted,
          if clusterDeleted then row.cropObject else none⟩, db, [ownerId]⟩

structure CascadeResult where
  occurrencesDeleted : ℕ
  clustersDeleted : ℕ
  /-- `{owner_id, id}` of each removed cluster -/
  deletedClusters : List (String × Uuid)
  deriving DecidableEq

/-- One round of the loop of `cascade_stream`: recount the cluster, delete it
when nothing is left of it. -/
def cascadeCluster (now : ℕ) (acc : CascadeResult × List String × Database K) (cid : Uuid) :
    CascadeResult × List String × Database K :=
  let (res, touched, db) := acc
  let row := db.clusterById cid
  let touched := match row with
    | some r => touched.insert r.ownerId.text
    | none => touched
  let db := db.recount now fun c => c.id = cid
  let empty : Cluster K → Bool := fun c => c.id = cid && c.sampleCount = 0
  let n := db.clusters.countP empty
  let db := db.deleteClusters empty
  let res :=
    if n ≠ 0 then
      { res with
        clustersDeleted := res.clustersDeleted + n
        deletedClusters := match row with
          | some r => res.deletedClusters ++ [(r.ownerId.text, cid)]
          | none => res.deletedClusters }
    else res
  (res, touched, db)

/-- `cascade_stream`. -/
def cascadeStream (now : ℕ) (db : Database K) (streamId : String) :
    Except PyError (Commit K CascadeResult) := do
  let stream ← castUuid streamId
  let clusterIds := ((db.occurrences.filter fun o => o.streamId = stream).map (·.clusterId)).dedup
  let occurrencesDeleted := db.occurrences.countP fun o => o.streamId = stream
  let db := db.deleteOccurrences fun o => o.streamId = stream
  -- `if cid is None: continue` never fires: see `Occurrence`
  let (res, touched, db) := clusterIds.foldl (cascadeCluster now) (⟨occurrencesDeleted, 0, []⟩, [], db)
  .ok ⟨res, db, touched⟩

/-! ### Merging -/

/-- The ownership check of every source, in order, before anything is changed. -/
def verifySources (db : Database K) (ownerId : String) : List String → Except PyError Bool
  | [] => .ok true
  | cid :: rest => do
      let id ← castUuid cid
      match db.clusterById id with
      | none => .ok false
      | some r => if r.ownerId.text ≠ ownerId then .ok false else verifySources db ownerId rest

/-- The local variables of the merge loop and the tables under it. -/
structure MergeState (K : Type) where
  db : Database K
  affected : List Uuid
  occCache : List (Uuid × List K)

/-- `occupied`: the times of the target in a stream. -/
def occupied (db : Database K) (target stream : Uuid) : List K :=
  (db.occurrences.filter fun o => o.clusterId = target && o.streamId = stream).map (·.tSeconds)

/-- `occ_cache[stream_id]`, filled on first use. -/
def MergeState.timesIn (st : MergeState K) (target stream : Uuid) : List K :=
  match st.occCache.lookup stream with
  | some times => times
  | none => occupied st.db target stream

/-- Move one row of a source: nudge its time until the target has no sighting
there, and insert it for the target. -/
def moveRow (pf : Platform K) (now : ℕ) (owner target : Uuid) (st : MergeState K)
    (r : Occurrence K) : Except PyError (MergeState K) := do
  let times := st.timesIn target r.streamId
  match Probe.probe pf.nudge times r.tSeconds with
  | none => .error .hangs
  | some t =>
      let db ← st.db.insertOccurrence
        { ownerId := owner, streamId := r.streamId, clusterId := target,
          embedding := toListArray pf r.embedding, tSeconds := t, confidence := r.confidence,
          createdAt := now }
      .ok { db := db
            affected := st.affected.insert r.streamId
            occCache := (r.streamId, t :: times) ::
              st.occCache.filter fun entry => entry.1 ≠ r.streamId }

/-- One round of the source loop: copy the rows, then delete the rows and the
cluster they came from. -/
def mergeSource (pf : Platform K) (now : ℕ) (owner target : Uuid) (st : MergeState K)
    (cid : String) : Except PyError (MergeState K) := do
  let id ← castUuid cid
  let rows := pf.scan id (st.db.occurrences.filter fun o => o.clusterId = id)
  let st ← rows.foldlM (moveRow pf now owner target) st
  let db := st.db.deleteOccurrences fun o => o.clusterId = id
  let db := db.deleteClusters fun c => c.id = id
  .ok { st with db := db }

structure Merged where
  affectedStreams : List String
  deletedClusterIds : List String
  deriving DecidableEq

/-- `merge_clusters`. -/
def mergeClusters (pf : Platform K) (now : ℕ) (db : Database K) (ownerId targetId : String)
    (sourceIds : List String) : Except PyError (Commit K (Option Merged)) := do
  let target ← castUuid targetId
  match db.clusterById target with
  | none => .ok ⟨none, db, []⟩
  | some row =>
      if row.ownerId.text ≠ ownerId then .ok ⟨none, db, []⟩
      else if ← verifySources db ownerId sourceIds then
        let owner ← castUuid ownerId
        let affected :=
          ((db.occurrences.filter fun o => o.clusterId = target).map (·.streamId)).dedup
        let st ← sourceIds.foldlM (mergeSource pf now owner target) ⟨db, affected, []⟩
        let db := st.db.recount now fun c => c.id = target
        .ok ⟨some ⟨orderBy (· ≤ ·) (st.affected.map (·.text)), sourceIds⟩, db, [ownerId]⟩
      else .ok ⟨none, db, []⟩

end FacesService.Db
