import FacesService.Store.Invariant

/-!
Where the clusters of a state come from. Only three of the nine writes touch a
centroid or a `crop_object`: the others rename, recount or delete, so every
cluster they leave descends from one that was there.
-/

namespace FacesService

open Database Fallible Db

variable {K : Type}

/-! ### Descent -/

/-- The same person: name, counts and times may differ. -/
structure Heir (c c' : Cluster K) : Prop where
  id : c'.id = c.id
  ownerId : c'.ownerId = c.ownerId
  centroid : c'.centroid = c.centroid
  cropObject : c'.cropObject = c.cropObject

theorem Heir.refl (c : Cluster K) : Heir c c := ⟨rfl, rfl, rfl, rfl⟩

theorem Heir.trans {c c' c'' : Cluster K} (h : Heir c c') (h' : Heir c' c'') : Heir c c'' :=
  ⟨h'.id.trans h.id, h'.ownerId.trans h.ownerId, h'.centroid.trans h.centroid,
    h'.cropObject.trans h.cropObject⟩

/-- Every cluster of the second state is the heir of one of the first. -/
def Descends (db db' : Database K) : Prop :=
  ∀ c' ∈ db'.clusters, ∃ c ∈ db.clusters, Heir c c'

namespace Descends

theorem refl (db : Database K) : Descends db db := fun c hc => ⟨c, hc, .refl c⟩

theorem of_eq {db db' : Database K} (h : db'.clusters = db.clusters) : Descends db db' :=
  fun c hc => ⟨c, h ▸ hc, .refl c⟩

theorem trans {db db' db'' : Database K} (h : Descends db db') (h' : Descends db' db'') :
    Descends db db'' := by
  intro c'' hc''
  obtain ⟨c', hc', hheir'⟩ := h' c'' hc''
  obtain ⟨c, hc, hheir⟩ := h c' hc'
  exact ⟨c, hc, hheir.trans hheir'⟩

theorem updateClusters (db : Database K) (p : Cluster K → Bool) {f : Cluster K → Cluster K}
    (hf : ∀ c, Heir c (f c)) : Descends db (db.updateClusters p f) := by
  intro c' hc'
  obtain ⟨c, hc, rfl⟩ := mem_updateClusters hc'
  refine ⟨c, hc, ?_⟩
  split
  · exact hf c
  · exact .refl c

theorem recount (db : Database K) (now : ℕ) (p : Cluster K → Bool) :
    Descends db (db.recount now p) :=
  updateClusters db p fun _ => ⟨rfl, rfl, rfl, rfl⟩

theorem deleteOccurrences (db : Database K) (p : Occurrence K → Bool) :
    Descends db (db.deleteOccurrences p) :=
  of_eq rfl

theorem deleteClusters (db : Database K) (p : Cluster K → Bool) :
    Descends db (db.deleteClusters p) :=
  fun c hc => ⟨c, (mem_deleteClusters.mp hc).1, .refl c⟩

theorem cascadeCluster (now : ℕ) (acc : CascadeResult × List String × Database K) (cid : Uuid) :
    Descends acc.2.2 (Db.cascadeCluster now acc cid).2.2 :=
  (recount _ _ _).trans (deleteClusters _ _)

theorem cascadeClusters (now : ℕ) (ids : List Uuid)
    (acc : CascadeResult × List String × Database K) :
    Descends acc.2.2 (ids.foldl (Db.cascadeCluster now) acc).2.2 := by
  induction ids generalizing acc with
  | nil => exact refl _
  | cons cid ids ih => exact (cascadeCluster now acc cid).trans (ih _)

variable [DecidableEq K] {pf : Platform K}

theorem moveRow {now : ℕ} {owner target : Uuid} {st st' : MergeState K} {r : Occurrence K}
    (h : Db.moveRow pf now owner target st r = .ok st') : Descends st.db st'.db := by
  obtain ⟨t, hins⟩ := moveRow_ok h
  obtain ⟨-, -, hdb⟩ := insertOccurrence_eq_ok hins
  exact of_eq (by rw [hdb])

theorem mergeSource {now : ℕ} {owner target : Uuid} {st st' : MergeState K} {cid : String}
    (h : Db.mergeSource pf now owner target st cid = .ok st') : Descends st.db st'.db := by
  obtain ⟨id, st₁, -, hrows, rfl⟩ := mergeSource_ok h
  have hmoved : Descends st.db st₁.db :=
    foldlM_ok (fun _ st' => Descends st.db st'.db)
      (fun _ _ _ _ hst hmove => hst.trans (moveRow hmove)) (refl _) hrows
  exact hmoved.trans ((deleteOccurrences _ _).trans (deleteClusters _ _))

end Descends

namespace Write

/-- The writes that create a cluster or change its centroid or its crop. -/
def Reshapes : Write K → Prop
  | upsertCluster .. | updateClusterCentroid .. | setClusterCrop .. => True
  | _ => False

variable [DecidableEq K] {pf : Platform K} {fresh : Uuid} {now : ℕ} {db : Database K}

theorem descends {w : Write K} {c : Commit K w.Answer} (hw : ¬ w.Reshapes)
    (h : w.run pf fresh now db = .ok c) : Descends db c.db := by
  cases w with
  | upsertCluster ownerId name isNamed centroid => exact absurd trivial hw
  | updateClusterCentroid clusterId ownerId centroid => exact absurd trivial hw
  | setClusterCrop clusterId ownerId cropObject => exact absurd trivial hw
  | appendStreamOccurrences ownerId streamId items =>
      obtain ⟨db₁, owner, stream, hins, -, -, -, hdb⟩ := appendStreamOccurrences_ok h
      rw [hdb]
      exact (Descends.of_eq (insertItems_keeps hins).1).trans (.recount _ _ _)
  | renameCluster clusterId ownerId name =>
      rcases renameCluster_ok h with ⟨hdb, -⟩ | ⟨id, row, -, rfl⟩
      · rw [hdb]
        exact .refl _
      · exact .updateClusters _ _ fun _ => ⟨rfl, rfl, rfl, rfl⟩
  | deleteCluster clusterId ownerId =>
      rcases deleteCluster_ok h with rfl | ⟨id, row, streams, -, rfl⟩
      · exact .refl _
      · exact (Descends.deleteOccurrences _ _).trans (.deleteClusters _ _)
  | detachClusterFromStream clusterId streamId ownerId =>
      rcases detachClusterFromStream_ok h with rfl | ⟨id, row, stream, -, -, -, -, hdb⟩
      · exact .refl _
      · rw [hdb]
        exact (Descends.deleteOccurrences _ _).trans
          ((Descends.recount _ _ _).trans (.deleteClusters _ _))
  | mergeClusters ownerId targetId sourceIds =>
      rcases mergeClusters_ok h with rfl | ⟨target, row, affected, st, -, -, hst, rfl⟩
      · exact .refl _
      · have hmerged : Descends db st.db :=
          foldlM_ok (fun _ st => Descends db st.db)
            (fun _ _ _ _ hst hmerge => hst.trans (Descends.mergeSource hmerge)) (.refl _) hst
        exact hmerged.trans (.recount _ _ _)
  | cascadeStream streamId =>
      obtain ⟨stream, -, hres⟩ := cascadeStream_ok h
      have hdb := congrArg (fun r => r.2.2) hres
      simp only at hdb
      rw [hdb]
      exact (Descends.deleteOccurrences _ _).trans (Descends.cascadeClusters _ _ _)

/-! ### Centroids -/

/-- The vectors a call stores have `dim` entries. -/
def OfDim (dim : ℕ) : Write K → Prop
  | upsertCluster _ _ _ centroid => centroid.length = dim
  | updateClusterCentroid _ _ centroid => centroid.length = dim
  | _ => True

theorem ofDim_run {dim : ℕ} {w : Write K} {c : Commit K w.Answer} (hdim : w.OfDim dim)
    (h : w.run pf fresh now db = .ok c) (hdb : ∀ c ∈ db.clusters, c.centroid.length = dim) :
    ∀ c' ∈ c.db.clusters, c'.centroid.length = dim := by
  by_cases hw : w.Reshapes
  · cases w with
    | upsertCluster ownerId name isNamed centroid =>
        obtain ⟨owner, -, -, -, hins⟩ := upsertCluster_ok h
        rw [(insertCluster_eq_ok hins).2]
        intro c' hc'
        rcases List.mem_append.mp hc' with hc' | hc'
        · exact hdb c' hc'
        · rw [List.mem_singleton.mp hc']
          exact (List.length_map _).trans hdim
    | updateClusterCentroid clusterId ownerId centroid =>
        obtain ⟨id, owner, -, -, rfl⟩ := updateClusterCentroid_ok h
        intro c' hc'
        obtain ⟨c, hc, rfl⟩ := mem_updateClusters hc'
        split
        · exact (List.length_map _).trans hdim
        · exact hdb c hc
    | setClusterCrop clusterId ownerId cropObject =>
        obtain ⟨id, owner, -, -, rfl⟩ := setClusterCrop_ok h
        intro c' hc'
        obtain ⟨c, hc, rfl⟩ := mem_updateClusters hc'
        split
        · exact hdb c hc
        · exact hdb c hc
    | _ => exact hw.elim
  · intro c' hc'
    obtain ⟨c, hc, hheir⟩ := descends hw h c' hc'
    rw [hheir.centroid]
    exact hdb c hc

end Write

/-- The states of the service, all of whose vectors come from its model. -/
abbrev ReachedWith [DecidableEq K] (svc : Service K) : Database K → Prop :=
  Reachable svc.pf fun now db w =>
    (w.Admitted svc.pf now db ∧ w.FlagAgrees) ∧ w.OfDim svc.vision.dim

variable [DecidableEq K] {svc : Service K} {db : Database K}

theorem ReachedWith.reached (h : ReachedWith svc db) : Reached svc.pf db :=
  Reachable.mono (fun _ _ _ h => h.1) h

/-- All centroids have the dimension of the model. -/
theorem ReachedWith.centroids (h : ReachedWith svc db) :
    ∀ c ∈ db.clusters, c.centroid.length = svc.vision.dim := by
  induction h with
  | empty => simp
  | @step db _ fresh now w hw ih =>
      unfold Write.commit
      split
      · rename_i hrun
        exact Write.ofDim_run hw.2 hrun ih
      · exact ih

end FacesService
