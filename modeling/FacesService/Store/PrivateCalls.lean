import FacesService.Store.Private
import FacesService.Store.Invariant

/-!
The calls of `db.py` on a user's own tables. A read that asks for the user's
rows answers the same on them, and a write under the user's id commits the same
to them and nothing to anybody else's. A cluster of somebody else is then
nothing but a cluster that is not there.
-/

namespace FacesService

open Database Fallible Db

variable {K : Type} {db : Database K} {userId : String}

/-! ### Owned or not -/

/-- The user has no cluster with this id, be it missing or somebody else's. -/
def NotOwned (db : Database K) (userId : String) (id : Uuid) : Prop :=
  ∀ row, db.clusterById id = some row → row.ownerId.text ≠ userId

theorem owned_or_not (hl : db.Linked) (userId : String) (id : Uuid) :
    (∃ row, db.clusterById id = some row ∧ (db.of userId).clusterById id = some row ∧
        row.ownerId.text = userId) ∨
      NotOwned db userId id ∧ NotOwned (db.of userId) userId id := by
  rw [NotOwned, NotOwned, clusterById_of hl]
  cases hrow : db.clusterById id with
  | none => exact .inr ⟨by simp, by simp⟩
  | some row =>
      by_cases howner : row.ownerId.text = userId
      · have hmine : isMine userId row.ownerId = true := howner ▸ isMine_text _
        exact .inl ⟨row, rfl, by simp [hmine], howner⟩
      · refine .inr ⟨fun row' h => ?_, fun row' h => ?_⟩
        · cases h
          exact howner
        · obtain ⟨h, -⟩ := Option.filter_eq_some_iff.mp h
          cases h
          exact howner

theorem onlyMine_of_owner (hl : db.Linked) {id : Uuid} {row : Cluster K}
    (hrow : db.clusterById id = some row) (howner : row.ownerId.text = userId) :
    db.OnlyMine userId id :=
  hl.onlyMine_of_cast hrow (howner ▸ Uuid.castUuid_text _)

theorem Db.Owned.onlyMine {clusterId : String} {id : Uuid} {row : Cluster K} (hl : db.Linked)
    (h : Owned db clusterId userId id row) : db.OnlyMine userId id :=
  onlyMine_of_owner hl h.found h.owner

theorem Db.Owned.getCluster {clusterId : String} {id : Uuid} {row : Cluster K}
    (h : Owned db clusterId userId id row) : Db.getCluster db clusterId none = .ok (some row) := by
  unfold Db.getCluster
  rw [h.cast, ok_bind, h.found]

theorem Db.getCluster_owned {clusterId : String} {row : Cluster K}
    (h : Db.getCluster db clusterId (some userId) = .ok (some row)) :
    ∃ id, Owned db clusterId userId id row := by
  unfold Db.getCluster at h
  obtain ⟨id, hcast, h⟩ := bind_eq_ok.mp h
  cases hrow : db.clusterById id with
  | none =>
      rw [hrow] at h
      cases h
  | some r =>
      rw [hrow] at h
      simp only [Except.ok.injEq, ne_eq, ite_not] at h
      split at h
      · rename_i howner
        cases h
        exact ⟨id, hcast, hrow, howner⟩
      · cases h

/-- An `UPDATE` that keeps ids and owners keeps a cluster the caller's. -/
theorem Db.Owned.updateClusters {clusterId : String} {id : Uuid} {row : Cluster K}
    (h : Owned db clusterId userId id row) (p : Cluster K → Bool) {f : Cluster K → Cluster K}
    (hid : ∀ c, (f c).id = c.id) (howner : ∀ c, (f c).ownerId = c.ownerId) :
    ∃ row', Owned (db.updateClusters p f) clusterId userId id row' := by
  refine ⟨if p row then f row else row, h.cast, ?_, ?_⟩
  · have hpred : ((fun c : Cluster K => decide (c.id = id)) ∘ fun c => if p c then f c else c) =
        fun c => decide (c.id = id) := by
      funext c
      simp only [Function.comp]
      split
      · rw [hid]
      · rfl
    have hfound : db.clusters.find? (fun c => c.id = id) = some row := h.found
    rw [clusterById, Database.updateClusters, List.find?_map, hpred, hfound]
    rfl
  · split
    · rw [howner, h.owner]
    · exact h.owner

/-! ### Reads -/

section Reads

variable {pf : Platform K}

theorem searchNamedClusters_of (pre : String) (limit : ℕ) :
    searchNamedClusters pf (db.of userId) userId pre limit =
      searchNamedClusters pf db userId pre limit := by
  unfold searchNamedClusters
  cases howner : castUuid userId with
  | error e => rfl
  | ok owner =>
      simp only [ok_bind]
      cases likeTokens (escapeLike pre.toList ++ ['%']) with
      | none => rfl
      | some pattern =>
          simp only
          rw [filter_clusters_of _ _ fun c _ hq => ?_]
          simp only [Bool.and_eq_true, decide_eq_true_eq] at hq
          exact isMine_iff.mpr (hq.1.1 ▸ howner)

theorem getClustersForOwner_of : getClustersForOwner (db.of userId) userId =
    getClustersForOwner db userId := by
  unfold getClustersForOwner
  cases howner : castUuid userId with
  | error e => rfl
  | ok owner =>
      simp only [ok_bind]
      rw [filter_clusters_of _ _ fun c _ hq => isMine_iff.mpr (of_decide_eq_true hq ▸ howner)]

theorem getClustersVideos_of (hl : db.Linked) : getClustersVideos (db.of userId) userId =
    getClustersVideos db userId := by
  unfold getClustersVideos
  cases howner : castUuid userId with
  | error e => rfl
  | ok owner =>
      simp only [ok_bind]
      have hany : ∀ o : Occurrence K, ((db.of userId).clusters.any fun c =>
          c.id = o.clusterId && c.ownerId = owner) =
          db.clusters.any fun c => c.id = o.clusterId && c.ownerId = owner := fun o =>
        any_clusters_of _ _ fun c _ hq => isMine_iff.mpr
          (of_decide_eq_true (Bool.and_eq_true_iff.mp hq).2 ▸ howner)
      simp only [hany]
      rw [filter_occurrences_of _ _ fun o ho hq => ?_]
      obtain ⟨c, hc, hboth⟩ := List.any_eq_true.mp hq
      simp only [Bool.and_eq_true, decide_eq_true_eq] at hboth
      refine hl.isMine_row ho fun c' hc' hid => ?_
      rw [hl.eq_of_id hc' hc (hid.trans hboth.1.symm), hboth.2]
      exact isMine_iff.mpr howner

theorem getStreamsForClusters_of (clusterIds : List String) (mode : SearchMode) :
    getStreamsForClusters (db.of userId) userId clusterIds mode =
      getStreamsForClusters db userId clusterIds mode := by
  unfold getStreamsForClusters
  simp only
  split
  · rfl
  · cases howner : castUuid userId with
    | error e => rfl
    | ok owner =>
        simp only [ok_bind]
        congr 1
        funext uuids
        rw [filter_occurrences_of _ _ fun o _ hq => isMine_iff.mpr
          (of_decide_eq_true (Bool.and_eq_true_iff.mp hq).1 ▸ howner)]

theorem getClustersWithoutOccurrences_of (hl : db.Linked) :
    getClustersWithoutOccurrences (db.of userId) userId =
      getClustersWithoutOccurrences db userId := by
  unfold getClustersWithoutOccurrences
  cases howner : castUuid userId with
  | error e => rfl
  | ok owner =>
      simp only [ok_bind, Except.ok.injEq]
      have hmine := filter_clusters_of db userId
        (q := fun c => c.ownerId = owner && db.countFor c.id = 0) fun c _ hq => isMine_iff.mpr
          (of_decide_eq_true (Bool.and_eq_true_iff.mp hq).1 ▸ howner)
      rw [← hmine]
      refine List.filter_congr fun c hc => ?_
      obtain ⟨hmem, hmine⟩ := List.mem_filter.mp hc
      rw [countFor_of hl fun c' hc' hid => hl.eq_of_id hc' hmem hid ▸ hmine]

/-- Asked with the owner, `get_cluster` does not tell a foreign cluster from a
missing one. -/
theorem getCluster_owned_of (hl : db.Linked) (clusterId : String) :
    getCluster (db.of userId) clusterId (some userId) = getCluster db clusterId (some userId) := by
  cases hcast : castUuid clusterId with
  | error e => rw [getCluster, getCluster, hcast, error_bind, error_bind]
  | ok id =>
      rcases owned_or_not hl userId id with ⟨row, hrow, hrow', -⟩ | ⟨hnot, hnot'⟩
      · rw [getCluster, getCluster, hcast, ok_bind, ok_bind, hrow, hrow']
      · have hnone : ∀ d : Database K, NotOwned d userId id →
            getCluster d clusterId (some userId) = .ok none := by
          intro d hd
          rw [getCluster, hcast, ok_bind]
          cases hrow : d.clusterById id with
          | none => rfl
          | some row => simp [hd row hrow]
        exact (hnone _ hnot').trans (hnone _ hnot).symm

section Owned

variable {clusterId : String} {id : Uuid} {row : Cluster K}

theorem getCluster_of (hl : db.Linked) (h : Owned db clusterId userId id row) :
    getCluster (db.of userId) clusterId none = getCluster db clusterId none := by
  unfold getCluster
  rw [h.cast, ok_bind, ok_bind, clusterById_of_onlyMine hl (h.onlyMine hl)]

theorem getClusterVideos_of (hl : db.Linked) (h : Owned db clusterId userId id row) :
    getClusterVideos (db.of userId) clusterId = getClusterVideos db clusterId := by
  unfold getClusterVideos
  rw [h.cast, ok_bind, ok_bind, filter_occurrences_of _ _ fun o ho hq =>
    hl.isMine_row ho (of_decide_eq_true hq ▸ h.onlyMine hl)]

theorem getClusterOccurrences_of (hl : db.Linked) (h : Owned db clusterId userId id row) :
    getClusterOccurrences (db.of userId) clusterId = getClusterOccurrences db clusterId := by
  unfold getClusterOccurrences
  rw [h.cast, ok_bind, ok_bind, filter_occurrences_of _ _ fun o ho hq =>
    hl.isMine_row ho (of_decide_eq_true hq ▸ h.onlyMine hl)]

theorem getClusterOccurrence_of [DecidableEq K] (hl : db.Linked)
    (h : Owned db clusterId userId id row) (streamId : String) (t : K) :
    getClusterOccurrence (db.of userId) clusterId streamId t =
      getClusterOccurrence db clusterId streamId t := by
  unfold getClusterOccurrence
  rw [h.cast, ok_bind, ok_bind]
  cases castUuid streamId with
  | error e => rfl
  | ok stream =>
      simp only [ok_bind, Except.ok.injEq, occurrences_of, List.find?_filter]
      refine List.find?_congr fun o ho => ?_
      by_cases hid : o.clusterId = id
      · simp [hl.isMine_row ho (hid ▸ h.onlyMine hl)]
      · simp [hid]

end Owned

end Reads

/-! ### Writes -/

/-- The transaction did to the user's own tables what it did to the whole, and
nothing to anybody else's. -/
structure LocalCommit (userId : String) (db : Database K) {α : Type} (c c' : Commit K α) : Prop where
  result : c'.result = c.result
  bumps : c'.bumps = c.bumps
  own : c'.db = c.db.of userId
  others : c.db.others userId = db.others userId

theorem LocalCommit.same {α : Type} (a : α) (bumps : List String) :
    LocalCommit userId db ⟨a, db, bumps⟩ ⟨a, db.of userId, bumps⟩ :=
  ⟨rfl, rfl, rfl, rfl⟩

theorem LocalCommit.update {α : Type} {p : Cluster K → Bool} {f : Cluster K → Cluster K}
    (howner : ∀ c, (f c).ownerId = c.ownerId)
    (hp : ∀ c ∈ db.clusters, p c = true → isMine userId c.ownerId = true) (a : α)
    (bumps : List String) : LocalCommit userId db ⟨a, db.updateClusters p f, bumps⟩
      ⟨a, (db.of userId).updateClusters p f, bumps⟩ where
  result := rfl
  bumps := rfl
  own := (updateClusters_of p howner db userId).symm
  others := others_updateClusters howner hp

/-- What a write does with a cluster that is not the caller's is what it does
with none. -/
theorem agree_notOwned {ε α β : Type} {Q : α → β → Prop} {db' : Database K} {id : Uuid}
    {x : Except ε α} {y : Except ε β} {found : Cluster K → Except ε α}
    {found' : Cluster K → Except ε β} (h : NotOwned db userId id) (h' : NotOwned db' userId id)
    (hxy : Agree Q x y) :
    Agree Q
      (match db.clusterById id with
        | none => x
        | some row => if row.ownerId.text ≠ userId then x else found row)
      (match db'.clusterById id with
        | none => y
        | some row => if row.ownerId.text ≠ userId then y else found' row) := by
  have hone : ∀ {γ : Type} (d : Database K), NotOwned d userId id → ∀ (z : γ) (g : Cluster K → γ),
      (match d.clusterById id with
        | none => z
        | some row => if row.ownerId.text ≠ userId then z else g row) = z := by
    intro γ d hd z g
    cases hrow : d.clusterById id with
    | none => rfl
    | some row => exact if_pos (hd row hrow)
  rw [hone db h, hone db' h']
  exact hxy

section Writes

variable {pf : Platform K} {now : ℕ}

theorem renameCluster_of (hl : db.Linked) (clusterId : String) (name : Option String) :
    Agree (LocalCommit userId db) (renameCluster pf now db clusterId userId name)
      (renameCluster pf now (db.of userId) clusterId userId name) := by
  unfold renameCluster
  refine agree_bind_same fun id _ => ?_
  rcases owned_or_not hl userId id with ⟨row, hrow, hrow', howner⟩ | ⟨hnot, hnot'⟩
  · have honly := onlyMine_of_owner hl hrow howner
    rw [hrow, hrow']
    simp only [howner, ne_eq, not_true_eq_false, if_false]
    refine agree_bind_same fun owner hcast => ?_
    have htaken : nameTaken pf (db.of userId) owner id (storedName name) =
        nameTaken pf db owner id (storedName name) := by
      unfold nameTaken
      cases storedName name with
      | none => rfl
      | some n =>
          refine any_clusters_of db userId fun c _ hq => isMine_iff.mpr ?_
          simp only [Bool.and_eq_true, decide_eq_true_eq] at hq
          exact hq.1.1 ▸ hcast
    rw [htaken]
    split
    · exact .same _ _
    · refine LocalCommit.update ?_ ?_ _ _
      · exact fun _ => rfl
      · exact fun c hc hid => honly c hc (of_decide_eq_true hid)
  · exact agree_notOwned hnot hnot' (.same _ _)

theorem deleteCluster_of (hl : db.Linked) (clusterId : String) :
    Agree (LocalCommit userId db) (deleteCluster db clusterId userId)
      (deleteCluster (db.of userId) clusterId userId) := by
  unfold deleteCluster
  refine agree_bind_same fun id _ => ?_
  rcases owned_or_not hl userId id with ⟨row, hrow, hrow', howner⟩ | ⟨hnot, hnot'⟩
  · have honly := onlyMine_of_owner hl hrow howner
    have hrows : ∀ o ∈ db.occurrences, decide (o.clusterId = id) = true →
        isMine userId o.ownerId = true :=
      fun o ho hid => hl.isMine_row ho (of_decide_eq_true hid ▸ honly)
    rw [hrow, hrow']
    simp only [howner, ne_eq, not_true_eq_false, if_false]
    refine ⟨?_, rfl, ?_, ?_⟩
    · simp only
      rw [filter_occurrences_of db userId hrows]
    · simp only
      rw [deleteClusters_of (hl.deleteOccurrences _), deleteOccurrences_of]
    · simp only
      rw [others_deleteClusters (hl.deleteOccurrences _) fun c hc hid =>
        honly c hc (of_decide_eq_true hid), others_deleteOccurrences hrows]
  · exact agree_notOwned hnot hnot' (.same _ _)

/-- A column is set in the user's own rows. -/
theorem updateOwned_of {α : Type} (clusterId : String) {f : Cluster K → Cluster K}
    (howner : ∀ c, (f c).ownerId = c.ownerId) (a : α) (bumps : List String) :
    Agree (LocalCommit userId db)
      (do
        let id ← castUuid clusterId
        let owner ← castUuid userId
        .ok ⟨a, db.updateClusters (fun c => c.id = id && c.ownerId = owner) f, bumps⟩)
      (do
        let id ← castUuid clusterId
        let owner ← castUuid userId
        .ok ⟨a, (db.of userId).updateClusters (fun c => c.id = id && c.ownerId = owner) f, bumps⟩) := by
  refine agree_bind_same fun id _ => agree_bind_same fun owner hcast => ?_
  refine LocalCommit.update howner ?_ a bumps
  intro c _ hp
  simp only [Bool.and_eq_true, decide_eq_true_eq] at hp
  exact isMine_iff.mpr (hp.2 ▸ hcast)

theorem updateClusterCentroid_of (clusterId : String) (centroid : List K) :
    Agree (LocalCommit userId db) (updateClusterCentroid pf now db clusterId userId centroid)
      (updateClusterCentroid pf now (db.of userId) clusterId userId centroid) := by
  unfold updateClusterCentroid
  exact updateOwned_of clusterId (by exact fun _ => rfl) _ _

theorem setClusterCrop_of (clusterId : String) (cropObject : Option String) :
    Agree (LocalCommit userId db) (setClusterCrop now db clusterId userId cropObject)
      (setClusterCrop now (db.of userId) clusterId userId cropObject) := by
  unfold setClusterCrop
  exact updateOwned_of clusterId (by exact fun _ => rfl) _ _

theorem upsertCluster_of {fresh : Uuid} (hfresh : ∀ c ∈ db.clusters, c.id ≠ fresh)
    (name : Option String) (isNamed : Bool) (centroid : List K) :
    Agree (LocalCommit userId db) (upsertCluster pf fresh now db userId name isNamed centroid)
      (upsertCluster pf fresh now (db.of userId) userId name isNamed centroid) := by
  unfold upsertCluster
  refine agree_bind_same fun owner hcast => ?_
  obtain ⟨db', hins, hins', hothers⟩ := insertCluster_of
    (c := { id := fresh, ownerId := owner, name := name, isNamed := isNamed,
            centroid := toListArray pf centroid, sampleCount := 0, cropObject := none,
            createdAt := now, updatedAt := now }) hfresh (isMine_iff.mpr hcast)
  rw [hins, hins']
  exact ⟨rfl, rfl, rfl, hothers⟩

/-- What a detach commits, by the number of rows it removed and the tables after
the recount. -/
def detachCommit (clusterId userId : String) (id owner : Uuid) (row : Cluster K) (removed : ℕ)
    (db : Database K) : Commit K (Option DetachSummary) :=
  let clusterDeleted := db.clusters.any (emptied id owner)
  let db := db.deleteClusters (emptied id owner)
  let sampleCount :=
    if clusterDeleted then 0
    else match db.clusters.find? fun c => c.id = id && c.ownerId = owner with
      | some r => r.sampleCount
      | none => 0
  ⟨some ⟨clusterId, removed, sampleCount, clusterDeleted,
    if clusterDeleted then row.cropObject else none⟩, db, [userId]⟩

theorem detachCommit_of (hl : db.Linked) {owner : Uuid} (hcast : castUuid userId = .ok owner)
    (clusterId : String) (id : Uuid) (row : Cluster K) (removed : ℕ) :
    LocalCommit userId db (detachCommit clusterId userId id owner row removed db)
      (detachCommit clusterId userId id owner row removed (db.of userId)) := by
  have hcl : ∀ c : Cluster K, (decide (c.id = id) && decide (c.ownerId = owner)) = true →
      isMine userId c.ownerId = true := by
    intro c hc
    exact isMine_iff.mpr (of_decide_eq_true (Bool.and_eq_true_iff.mp hc).2 ▸ hcast)
  have hempty : ∀ c : Cluster K, emptied id owner c = true → isMine userId c.ownerId = true :=
    fun c hc => hcl c (Bool.and_eq_true_iff.mp hc).1
  have hany : (db.of userId).clusters.any (emptied id owner) = db.clusters.any (emptied id owner) :=
    any_clusters_of _ _ fun c _ => hempty c
  have hof : (db.of userId).deleteClusters (emptied id owner) =
      (db.deleteClusters (emptied id owner)).of userId := (deleteClusters_of hl _ _).symm
  refine ⟨?_, rfl, hof, others_deleteClusters hl fun c _ => hempty c⟩
  simp only [detachCommit, hof]
  rw [hany, find_clusters_of _ _ fun c _ => hcl c]

theorem detachClusterFromStream_of (hl : db.Linked) (clusterId streamId : String) :
    Agree (LocalCommit userId db) (detachClusterFromStream now db clusterId streamId userId)
      (detachClusterFromStream now (db.of userId) clusterId streamId userId) := by
  unfold detachClusterFromStream
  refine agree_bind_same fun id _ => ?_
  rcases owned_or_not hl userId id with ⟨row, hrow, hrow', howner⟩ | ⟨hnot, hnot'⟩
  · rw [hrow, hrow']
    simp only [howner, ne_eq, not_true_eq_false, if_false]
    refine agree_bind_same fun stream _ => agree_bind_same fun owner hcast => ?_
    have hrows : ∀ o ∈ db.occurrences, detached id stream owner o = true →
        isMine userId o.ownerId = true := by
      intro o _ ho
      exact isMine_iff.mpr (of_decide_eq_true (Bool.and_eq_true_iff.mp ho).2 ▸ hcast)
    have hl₁ := hl.deleteOccurrences (detached id stream owner)
    have hcl : ∀ c ∈ (db.deleteOccurrences (detached id stream owner)).clusters,
        (decide (c.id = id) && decide (c.ownerId = owner)) = true → isMine userId c.ownerId = true := by
      intro c _ hc
      exact isMine_iff.mpr (of_decide_eq_true (Bool.and_eq_true_iff.mp hc).2 ▸ hcast)
    have hl₂ := hl₁.recount now fun c => c.id = id && c.ownerId = owner
    have hcommit := detachCommit_of hl₂ hcast clusterId id row
      (db.occurrences.countP (detached id stream owner))
    rw [recount_of hl₁, deleteOccurrences_of] at hcommit
    change LocalCommit userId db
      (detachCommit clusterId userId id owner row (db.occurrences.countP (detached id stream owner)) _)
      (detachCommit clusterId userId id owner row
        ((db.of userId).occurrences.countP (detached id stream owner)) _)
    rw [countP_occurrences_of db userId hrows]
    refine ⟨hcommit.result, hcommit.bumps, hcommit.own, hcommit.others.trans ?_⟩
    rw [others_recount hcl, others_deleteOccurrences hrows]
  · exact agree_notOwned hnot hnot' (.same _ _)

variable [DecidableEq K]

/-- The insert loop does the same on the user's own tables. -/
theorem insertItems_of (hl : db.Linked) {streamId : String} {items : List (Item K)}
    (hitems : ∀ it ∈ items, ∀ id, castUuid it.clusterId = .ok id → db.OnlyMine userId id)
    (written : ℕ) :
    Agree (fun r r' => r'.1 = r.1 ∧ r'.2 = r.2.of userId ∧ r.2.others userId = db.others userId ∧
        r.2.Linked)
      (insertItems pf now userId streamId items written db)
      (insertItems pf now userId streamId items written (db.of userId)) := by
  induction items generalizing db written with
  | nil => exact ⟨rfl, rfl, rfl, hl⟩
  | cons it items ih =>
      unfold insertItems
      refine agree_bind_same fun owner hcast => agree_bind_same fun stream _ =>
        agree_bind_same fun id hid => ?_
      have honly := hitems it List.mem_cons_self id hid
      refine agree_bind (insertOccurrenceIfNew_of hl (isMine_iff.mpr hcast) honly) ?_
      rintro ⟨n, db₁⟩ ⟨n', db'⟩ hins - ⟨hn, hdb, hothers⟩
      simp only at hn hdb hothers ⊢
      subst hn hdb
      have hcl := (insertOccurrenceIfNew_keeps hins).1
      have hl₁ : db₁.Linked := by
        rcases insertOccurrenceIfNew_eq_ok hins with ⟨-, rfl, -⟩ | ⟨-, hins⟩
        · exact hl
        · exact hl.insertOccurrence (honly.owner_eq hcast) hins
      have hitems₁ : ∀ it ∈ items, ∀ id, castUuid it.clusterId = .ok id → db₁.OnlyMine userId id := by
        unfold Database.OnlyMine
        rw [hcl]
        exact fun it hit => hitems it (List.mem_cons_of_mem _ hit)
      have hrest := ih hl₁ hitems₁ (written + n')
      rw [hothers] at hrest
      exact hrest

theorem appendStreamOccurrences_of (hl : db.Linked) {streamId : String} {items : List (Item K)}
    (hitems : ∀ it ∈ items, ∀ id, castUuid it.clusterId = .ok id → db.OnlyMine userId id) :
    Agree (LocalCommit userId db) (appendStreamOccurrences pf now db userId streamId items)
      (appendStreamOccurrences pf now (db.of userId) userId streamId items) := by
  unfold appendStreamOccurrences
  refine agree_bind (insertItems_of hl hitems 0) ?_
  rintro ⟨written, db₁⟩ ⟨written', db'⟩ - - ⟨hwritten, hdb, hothers, hl₁⟩
  simp only at hwritten hdb hothers hl₁ ⊢
  subst hwritten hdb
  refine agree_bind_same fun owner hcast => agree_bind_same fun stream _ => ?_
  have hmine : ∀ c ∈ db₁.clusters, (decide (c.ownerId = owner) && db₁.occurrences.any fun o =>
      decide (o.streamId = stream) && decide (o.clusterId = c.id)) = true →
      isMine userId c.ownerId = true := by
    intro c _ hc
    exact isMine_iff.mpr (of_decide_eq_true (Bool.and_eq_true_iff.mp hc).1 ▸ hcast)
  refine ⟨rfl, rfl, ?_, (others_recount hmine).trans hothers⟩
  rw [recount_of hl₁]
  refine recount_congr (fun c hc => ?_) now
  obtain ⟨hmem, hc⟩ := List.mem_filter.mp hc
  have honly : db₁.OnlyMine userId c.id := fun c' hc' hid => hl₁.eq_of_id hc' hmem hid ▸ hc
  rw [any_occurrences_of _ _ fun o ho hq => ?_]
  exact hl₁.isMine_row ho (of_decide_eq_true (Bool.and_eq_true_iff.mp hq).2 ▸ honly)

omit [DecidableEq K] in
theorem verifySources_of (hl : db.Linked) (sourceIds : List String) :
    verifySources (db.of userId) userId sourceIds = verifySources db userId sourceIds := by
  induction sourceIds with
  | nil => rfl
  | cons cid rest ih =>
      unfold verifySources
      cases castUuid cid with
      | error e => rfl
      | ok id =>
          simp only [ok_bind]
          rcases owned_or_not hl userId id with ⟨row, hrow, hrow', -⟩ | ⟨hnot, hnot'⟩
          · rw [hrow, hrow', ih]
          · have hfalse : ∀ d : Database K, NotOwned d userId id →
                (match d.clusterById id with
                  | none => .ok false
                  | some r => if r.ownerId.text ≠ userId then .ok false
                      else verifySources d userId rest : Except PyError Bool) = .ok false := by
              intro d hd
              cases hrow : d.clusterById id with
              | none => rfl
              | some row => simp [hd row hrow]
            exact (hfalse _ hnot').trans (hfalse _ hnot).symm

/-- Two merges in step: over the whole tables and over the user's own. -/
structure MergesAlike (userId : String) (db : Database K) (st st' : MergeState K) : Prop where
  own : st'.db = st.db.of userId
  affected : st'.affected = st.affected
  occCache : st'.occCache = st.occCache
  others : st.db.others userId = db.others userId
  linked : st.db.Linked
  clusters : st.db.clusters ⊆ db.clusters

variable {owner target : Uuid}

theorem moveRow_of (hcast : castUuid userId = .ok owner) (htarget : db.OnlyMine userId target)
    {st st' : MergeState K} (h : MergesAlike userId db st st') (r : Occurrence K) :
    Agree (MergesAlike userId db) (moveRow pf now owner target st r)
      (moveRow pf now owner target st' r) := by
  have honly : st.db.OnlyMine userId target := fun c hc => htarget c (h.clusters hc)
  have htimes : st'.timesIn target r.streamId = st.timesIn target r.streamId := by
    unfold MergeState.timesIn occupied
    rw [h.occCache, h.own, filter_occurrences_of _ _ fun o ho hq => ?_]
    exact h.linked.isMine_row ho (of_decide_eq_true (Bool.and_eq_true_iff.mp hq).1 ▸ honly)
  unfold moveRow
  simp only [htimes]
  cases Probe.probe pf.nudge (st.timesIn target r.streamId) r.tSeconds with
  | none => rfl
  | some t =>
      simp only
      rw [h.own, h.affected, h.occCache]
      refine agree_bind (insertOccurrence_of h.linked (isMine_iff.mpr hcast) honly) ?_
      rintro db₁ _ hins - ⟨rfl, hothers⟩
      obtain ⟨-, -, hdb₁⟩ := insertOccurrence_eq_ok hins
      refine ⟨rfl, rfl, rfl, hothers.trans h.others, ?_, ?_⟩
      · exact h.linked.insertOccurrence (honly.owner_eq hcast) hins
      · simp only [hdb₁]
        exact h.clusters

theorem mergeSource_of (hcast : castUuid userId = .ok owner) (htarget : db.OnlyMine userId target)
    {st st' : MergeState K} (h : MergesAlike userId db st st') {cid : String}
    (hcid : ∀ id, castUuid cid = .ok id → db.OnlyMine userId id) :
    Agree (MergesAlike userId db) (mergeSource pf now owner target st cid)
      (mergeSource pf now owner target st' cid) := by
  unfold mergeSource
  refine agree_bind_same fun id hid => ?_
  have honly : ∀ d : Database K, d.clusters ⊆ db.clusters → d.OnlyMine userId id :=
    fun d hd c hc => hcid id hid c (hd hc)
  have hrows : ∀ d : Database K, d.Linked → d.clusters ⊆ db.clusters → ∀ o ∈ d.occurrences,
      decide (o.clusterId = id) = true → isMine userId o.ownerId = true :=
    fun d hl hd o ho hq => hl.isMine_row ho (of_decide_eq_true hq ▸ honly d hd)
  rw [h.own, filter_occurrences_of _ _ (hrows _ h.linked h.clusters)]
  refine agree_bind (agree_foldlM (fun r _ _ _ hst => moveRow_of hcast htarget hst r) h) ?_
  intro st₁ st₁' _ _ h₁
  have hl := h₁.linked.deleteOccurrences fun o => o.clusterId = id
  refine ⟨?_, h₁.affected, h₁.occCache, ?_, hl.deleteClusters _, ?_⟩
  · simp only
    rw [h₁.own, deleteClusters_of hl, deleteOccurrences_of]
  · simp only
    rw [others_deleteClusters hl fun c hc hq => honly _ h₁.clusters c hc (of_decide_eq_true hq),
      others_deleteOccurrences (hrows _ h₁.linked h₁.clusters), h₁.others]
  · exact fun c hc => h₁.clusters (mem_deleteClusters.mp hc).1

theorem mergeSources_of (hcast : castUuid userId = .ok owner) (htarget : db.OnlyMine userId target)
    {st st' : MergeState K} (h : MergesAlike userId db st st') {sourceIds : List String}
    (hsources : ∀ cid ∈ sourceIds, ∀ id, castUuid cid = .ok id → db.OnlyMine userId id) :
    Agree (MergesAlike userId db) (sourceIds.foldlM (mergeSource pf now owner target) st)
      (sourceIds.foldlM (mergeSource pf now owner target) st') := by
  refine agree_foldlM ?_ h
  intro cid hcid st st' hst
  exact mergeSource_of hcast htarget hst (hsources cid hcid)

theorem mergeClusters_of (hl : db.Linked) (targetId : String) (sourceIds : List String) :
    Agree (LocalCommit userId db) (mergeClusters pf now db userId targetId sourceIds)
      (mergeClusters pf now (db.of userId) userId targetId sourceIds) := by
  unfold mergeClusters
  refine agree_bind_same fun target _ => ?_
  rcases owned_or_not hl userId target with ⟨row, hrow, hrow', howner⟩ | ⟨hnot, hnot'⟩
  · have honly := onlyMine_of_owner hl hrow howner
    rw [hrow, hrow', verifySources_of hl]
    simp only [howner, ne_eq, not_true_eq_false, if_false]
    refine agree_bind_same fun ok hok => ?_
    cases ok with
    | false => exact .same _ _
    | true =>
        simp only [if_true]
        refine agree_bind_same fun owner hcast => ?_
        have hsources : ∀ cid ∈ sourceIds, ∀ id, castUuid cid = .ok id → db.OnlyMine userId id := by
          intro cid hcid id hid
          obtain ⟨id', row', hown⟩ := verifySources_true hok cid hcid
          have hid' := hid.symm.trans hown.cast
          cases hid'
          exact hown.onlyMine hl
        have hstart : ∀ affected,
            MergesAlike userId db ⟨db, affected, []⟩ ⟨db.of userId, affected, []⟩ :=
          fun _ => ⟨rfl, rfl, rfl, rfl, hl, List.Subset.refl _⟩
        have hloop : ∀ affected, Agree (MergesAlike userId db)
            (sourceIds.foldlM (mergeSource pf now owner target) ⟨db, affected, []⟩)
            (sourceIds.foldlM (mergeSource pf now owner target) ⟨db.of userId, affected, []⟩) :=
          fun affected => mergeSources_of hcast honly (hstart affected) hsources
        rw [filter_occurrences_of _ _ fun o ho hq => hl.isMine_row ho (of_decide_eq_true hq ▸ honly)]
        refine agree_bind (hloop _) ?_
        intro st st' _ _ hst
        have htarget : ∀ c ∈ st.db.clusters, decide (c.id = target) = true →
            isMine userId c.ownerId = true :=
          fun c hc hq => honly c (hst.clusters hc) (of_decide_eq_true hq)
        simp only [hst.own, hst.affected, ← recount_of hst.linked]
        exact ⟨rfl, rfl, rfl, (others_recount htarget).trans hst.others⟩
  · exact agree_notOwned hnot hnot' (.same _ _)

end Writes

/-! ### All of them -/

variable [LinearOrder K]

/-- A write of the user's own, as the endpoints make it: under the user's id,
for clusters of the user, with a new id for a new cluster. -/
def Write.OwnWrite (userId : String) (fresh : Uuid) (db : Database K) : Write K → Prop
  | upsertCluster ownerId name isNamed _ =>
      ownerId = userId ∧ name = none ∧ isNamed = false ∧ ∀ c ∈ db.clusters, c.id ≠ fresh
  | appendStreamOccurrences ownerId _ items => ownerId = userId ∧ ItemsOwned db userId items
  | renameCluster _ ownerId _ => ownerId = userId
  | deleteCluster _ ownerId => ownerId = userId
  | detachClusterFromStream _ _ ownerId => ownerId = userId
  | mergeClusters ownerId _ _ => ownerId = userId
  | updateClusterCentroid _ ownerId _ => ownerId = userId
  | setClusterCrop _ ownerId _ => ownerId = userId
  | cascadeStream _ => False

variable (pf : Platform K) {fresh : Uuid} (now : ℕ)

theorem Write.OwnWrite.admitted {w : Write K} (h : w.OwnWrite userId fresh db) :
    w.Admitted pf now db ∧ w.FlagAgrees := by
  cases w with
  | upsertCluster ownerId name isNamed centroid =>
      obtain ⟨-, rfl, rfl, -⟩ := h
      exact ⟨rfl, rfl⟩
  | appendStreamOccurrences ownerId streamId items =>
      obtain ⟨rfl, hitems⟩ := h
      exact ⟨.inr hitems, trivial⟩
  | cascadeStream streamId => exact h.elim
  | _ => exact ⟨trivial, trivial⟩

/-- **The frame of a write**: on the user's own tables it does the same, and
off them nothing. -/
theorem Write.run_of (hl : db.Linked) {w : Write K} (h : w.OwnWrite userId fresh db) :
    Agree (LocalCommit userId db) (w.run pf fresh now db) (w.run pf fresh now (db.of userId)) := by
  cases w with
  | upsertCluster ownerId name isNamed centroid =>
      obtain ⟨rfl, -, -, hfresh⟩ := h
      exact upsertCluster_of hfresh name isNamed centroid
  | appendStreamOccurrences ownerId streamId items =>
      obtain ⟨rfl, hitems⟩ := h
      exact appendStreamOccurrences_of hl (hitems.onlyMine hl)
  | renameCluster clusterId ownerId name =>
      obtain rfl : ownerId = userId := h
      exact renameCluster_of hl clusterId name
  | deleteCluster clusterId ownerId =>
      obtain rfl : ownerId = userId := h
      exact deleteCluster_of hl clusterId
  | detachClusterFromStream clusterId streamId ownerId =>
      obtain rfl : ownerId = userId := h
      exact detachClusterFromStream_of hl clusterId streamId
  | mergeClusters ownerId targetId sourceIds =>
      obtain rfl : ownerId = userId := h
      exact mergeClusters_of hl targetId sourceIds
  | updateClusterCentroid clusterId ownerId centroid =>
      obtain rfl : ownerId = userId := h
      exact updateClusterCentroid_of clusterId centroid
  | setClusterCrop clusterId ownerId cropObject =>
      obtain rfl : ownerId = userId := h
      exact setClusterCrop_of clusterId cropObject
  | cascadeStream streamId => exact h.elim

end FacesService
