import FacesService.Store.Album
import FacesService.Store.Tenants

/-!
What a write does to the crops that rows name: it takes rows away, with their crops,
or puts a new row without one; only `set_cluster_crop` gives a crop to a row.
-/

namespace FacesService

open Database Db

variable {K : Type} [DecidableEq K] {pf : Platform K} {fresh : Uuid} {now : ℕ} {db : Database K}

/-- Where a row that a write leaves has its crop from. -/
inductive Write.Leaves (wr : Write K) (fresh : Uuid) (db : Database K) (row : Cluster K) : Prop
  | same (old : Cluster K) (hold : old ∈ db.clusters) (hid : old.id = row.id)
      (hcrop : old.cropObject = row.cropObject)
  | noted (old : Cluster K) (hold : old ∈ db.clusters) (hid : old.id = row.id) {clusterId ownerId : String}
      (hwr : wr = .setClusterCrop clusterId ownerId row.cropObject) (hcast : castUuid clusterId = .ok row.id)
  | new (hupsert : wr.isUpsert = true) (hid : row.id = fresh) (hcrop : row.cropObject = none)

omit [DecidableEq K] in
theorem Write.leaves_of_loses {wr : Write K} {gone : List Uuid} {db' : Database K} (h : Loses gone db db')
    {row : Cluster K} (hrow : row ∈ db'.clusters) : wr.Leaves fresh db row := by
  obtain ⟨-, old, hold, hcell⟩ := h.mem hrow
  simp only [cropCell, Prod.mk.injEq] at hcell
  exact .same old hold hcell.1 hcell.2.2

omit [DecidableEq K] in
theorem Write.leaves_of_column {wr : Write K} {db' : Database K} (h : cropColumn db' = cropColumn db)
    {row : Cluster K} (hrow : row ∈ db'.clusters) : wr.Leaves fresh db row :=
  Write.leaves_of_loses (loses_nil.mpr h) hrow

theorem Write.run_leaves (hids : (db.clusters.map (·.id)).Nodup) {wr : Write K} {c : Commit K wr.Answer}
    (h : wr.run pf fresh now db = .ok c) {row : Cluster K} (hrow : row ∈ c.db.clusters) :
    wr.Leaves fresh db row := by
  cases wr with
  | renameCluster clusterId ownerId name => exact Write.leaves_of_column (cropColumn_run (by trivial) h) hrow
  | appendStreamOccurrences ownerId streamId items =>
      exact Write.leaves_of_column (cropColumn_run (by trivial) h) hrow
  | updateClusterCentroid clusterId ownerId centroid =>
      exact Write.leaves_of_column (cropColumn_run (by trivial) h) hrow
  | deleteCluster clusterId ownerId =>
      rcases deleteCluster_loses h with ⟨-, hdb, -⟩ | ⟨id, row', d, -, -, -, -, hloses⟩
      · exact Write.leaves_of_column (congrArg cropColumn hdb) hrow
      · exact Write.leaves_of_loses hloses hrow
  | detachClusterFromStream clusterId streamId ownerId =>
      rcases detachClusterFromStream_loses hids h with ⟨hcolumn, -⟩ | ⟨id, row', d, s, -, -, -, -, -, hloses⟩
      · exact Write.leaves_of_column hcolumn hrow
      · exact Write.leaves_of_loses hloses hrow
  | mergeClusters ownerId targetId sourceIds =>
      rcases mergeClusters_loses h with ⟨-, hdb⟩ | ⟨m, -, -, -, hloses⟩
      · exact Write.leaves_of_column (congrArg cropColumn hdb) hrow
      · exact Write.leaves_of_loses hloses hrow
  | cascadeStream streamId =>
      obtain ⟨stream, -, hdb⟩ := cascadeStream_db h
      rw [hdb, purge] at hrow
      obtain ⟨old, hold, hsettle⟩ := List.mem_filterMap.mp hrow
      exact .same old hold (settleCluster_keeps hsettle).1.symm
        (by rw [settleCluster_some hsettle])
  | upsertCluster ownerId name isNamed centroid =>
      obtain ⟨owner, -, -, -, hinsert⟩ := upsertCluster_ok h
      obtain ⟨-, hdb⟩ := insertCluster_eq_ok hinsert
      rw [hdb] at hrow
      rcases List.mem_append.mp hrow with hrow | hrow
      · exact .same row hrow rfl rfl
      · rw [List.mem_singleton.mp hrow]
        exact .new rfl rfl rfl
  | setClusterCrop clusterId ownerId cropObject =>
      obtain ⟨id, owner, hid, -, rfl⟩ := setClusterCrop_ok h
      obtain ⟨old, hold, rfl⟩ := mem_updateClusters hrow
      split
      · rename_i hhit
        simp only [Bool.and_eq_true, decide_eq_true_eq] at hhit
        exact .noted old hold rfl rfl (hid.trans (congrArg _ hhit.1.symm))
      · exact .same old hold rfl rfl

end FacesService
