import FacesService.Reader.StreamFaces
import FacesService.Model.Assist

/-!
Owners are isolated from each other. Whatever the other owners have, a caller
who is no admin gets the same response and the same changes to their own part,
and the part of the others stays as it was: no endpoint tells the caller more
than the caller's own rows, crops and frames.

Each endpoint is followed along its text, once for the world as it is and once
for the world with nothing but the caller's own rows in it.
-/

namespace FacesService.Reader

open Prog Database Db

section Endpoints

variable {K : Type} [Arithmetic K] {svc : Service K} {auth : AuthContext} {oracle : Oracle}
  {w₀ : World K}

/-- An endpoint that needs nothing but the caller's own part. -/
abbrev Isolates (svc : Service K) (oracle : Oracle) (auth : AuthContext) (w₀ : World K) {α : Type}
    (p : Program K α) : Prop :=
  Mirrors svc.pf oracle (InStep auth.userId w₀) p (fun _ => InStep auth.userId w₀)
    (InStep auth.userId w₀)

/-! ### Lists -/

theorem lift_isolates {α : Type} (r : Except PyError α) : Isolates svc oracle auth w₀ (lift r) :=
  Twin.lifted (fun _ _ _ _ h => h) fun _ _ h => h

theorem pure_isolates {α : Type} (a : α) : Isolates svc oracle auth w₀ (pure a : Program K α) :=
  Twin.ret fun _ _ h => h

theorem getClustersForOwner_isolates :
    Isolates svc oracle auth w₀ (query (.getClustersForOwner auth.userId)) :=
  read_mirrors fun _ _ => getClustersForOwner_of

theorem getClustersVideos_isolates :
    Isolates svc oracle auth w₀ (query (.getClustersVideos auth.userId)) :=
  read_mirrors fun _ hl => getClustersVideos_of hl

theorem listFaces_isolates (limit offset : ℕ) (sort : String) (order : Option String) :
    Isolates svc oracle auth w₀ (listFaces svc auth limit offset sort order) :=
  Twin.bind (lift_isolates _) fun _ => Twin.bind getClustersForOwner_isolates fun _ =>
    Twin.bind getClustersVideos_isolates fun _ => lift_isolates _

theorem searchVideosByFaces_isolates (clusterIds : List String) (mode : SearchMode) :
    Isolates svc oracle auth w₀ (searchVideosByFaces auth clusterIds mode) :=
  Twin.bind (read_mirrors fun _ _ => getStreamsForClusters_of _ _) fun _ => pure_isolates _

theorem suggestFaces_isolates (q : String) (exclude : Option String) :
    Isolates svc oracle auth w₀ (suggestFaces auth q exclude) := by
  unfold suggestFaces
  refine Twin.bind (read_mirrors ?_) fun clusters => pure_isolates _
  intro db _
  rw [Query.run, Query.run]
  exact searchNamedClusters_of _ _

/-! ### Deleting -/

/-- What a deletion reports is enough to find the crop under the caller's id. -/
theorem wrote_deleteCluster {X : Database K → ℕ → Prop} {userId clusterId : String}
    {db : Database K} {deleted : DeletedCluster}
    (h : Wrote svc.pf oracle X (.deleteCluster clusterId userId) (some deleted) db) :
    OwnCrop userId (cropKey deleted.ownerId clusterId) := by
  obtain ⟨db₁, n, now, c, -, -, hrun, hresult, -⟩ := h
  rcases deleteCluster_ok hrun with hnone | ⟨id, row, streams, hown, hsome⟩
  · rw [hnone] at hresult
    exact absurd hresult.symm (Option.some_ne_none deleted)
  · rw [hsome] at hresult
    rw [← Option.some.inj hresult, hown.owner]
    exact ownCrop_text hown.owner hown.cast

theorem deleteListed_isolates (deleted : ℕ) (clusterId : String) :
    Isolates svc oracle auth w₀ (deleteListed svc auth deleted clusterId) := by
  unfold deleteListed
  refine Twin.bind (ownWrite_mirrors fun _ _ => rfl) fun result => ?_
  cases result with
  | none => exact Twin.ret fun _ _ h => h.1
  | some result =>
      refine Twin.assuming (fun _ _ h => wrote_deleteCluster h.2) fun hkey => ?_
      refine Twin.bind ((purgeCrop_mirrors hkey _).conseq (fun _ _ h => h.1) (fun _ _ _ h => h)
        fun _ _ h => h) fun _ => pure_isolates _

theorem deleteEmptyFaces_isolates : Isolates svc oracle auth w₀ (deleteEmptyFaces svc auth) :=
  Twin.bind (read_mirrors fun _ hl => getClustersWithoutOccurrences_of hl) fun _ =>
    Twin.foldlM (fun deleted clusterId _ => deleteListed_isolates deleted clusterId) 0

theorem deleteFacesBatch_isolates (clusterIds : List String) :
    Isolates svc oracle auth w₀ (deleteFacesBatch svc auth clusterIds) :=
  Twin.foldlM (fun deleted clusterId _ => deleteListed_isolates deleted clusterId) 0

variable (hrole : auth.role ≠ some "admin")

include hrole

/-- What follows the check of the owner may use that the cluster is the caller's. -/
theorem owned_isolates {α : Type} (clusterId : String) {f : Cluster K → Program K α}
    (hf : ∀ c, c.ownerId.text = auth.userId → (∃ id, castUuid clusterId = .ok id) →
      Mirrors svc.pf oracle (Knowing auth.userId w₀ fun db _ => ∃ id, Owned db clusterId auth.userId id c)
        (f c) (fun _ => InStep auth.userId w₀) (InStep auth.userId w₀)) :
    Isolates svc oracle auth w₀ (ownedCluster auth clusterId >>= f) := by
  refine Twin.bind ((ownedCluster_mirrors (X := fun _ _ => True) hrole clusterId).conseq
    (fun _ _ h => h.knowing) (fun _ _ _ h => h.mono fun _ _ h => h.2) fun _ _ h => h) fun c => ?_
  refine Twin.assuming (P := c.ownerId.text = auth.userId ∧ ∃ id, castUuid clusterId = .ok id) ?_
    fun h => hf c h.1 h.2
  rintro s t ⟨-, id, hown⟩
  exact ⟨hown.owner, id, hown.cast⟩

theorem deleteFace_isolates (clusterId : String) :
    Isolates svc oracle auth w₀ (deleteFace svc auth clusterId) := by
  refine owned_isolates hrole clusterId fun c howner _ => ?_
  rw [howner]
  refine Twin.bind (write_mirrors fun _ _ _ _ => rfl) fun result => ?_
  cases result with
  | none => exact Twin.fail fun _ _ h => h.1
  | some result =>
      refine Twin.assuming (fun _ _ h => wrote_deleteCluster h.2) fun hkey => ?_
      refine Twin.bind ((purgeCrop_mirrors hkey _).conseq (fun _ _ h => h.1) (fun _ _ _ h => h)
        fun _ _ h => h) fun _ => pure_isolates _

theorem detachStreamFace_isolates (streamId clusterId : String) :
    Isolates svc oracle auth w₀ (detachStreamFace svc auth streamId clusterId) := by
  refine owned_isolates hrole clusterId fun c howner ⟨id, hcast⟩ => ?_
  rw [howner]
  refine Twin.bind (write_mirrors fun _ _ _ _ => rfl) fun result => ?_
  cases result with
  | none => exact Twin.fail fun _ _ h => h.1
  | some result =>
      exact Twin.bind ((purgeCrop_mirrors (ownCrop_text howner hcast) _).conseq (fun _ _ h => h.1)
        (fun _ _ _ h => h) fun _ _ h => h) fun _ => pure_isolates _

/-! ### One cluster -/

theorem getFace_isolates (clusterId : String) :
    Isolates svc oracle auth w₀ (getFace auth clusterId) := by
  refine owned_isolates hrole clusterId fun c howner _ => ?_
  refine Twin.bind (query_mirrors ?_) fun occurrences => Twin.bind (query_mirrors ?_) fun videos => ?_
  · rintro db n h ⟨id, hown⟩
    exact getClusterOccurrences_of h.toLinked hown
  · rintro db n h ⟨⟨id, hown⟩, -⟩
    exact getClusterVideos_of h.toLinked hown
  · exact Twin.ret fun _ _ h => h.1

theorem renameFace_isolates (clusterId : String) (name : Option String) :
    Isolates svc oracle auth w₀ (renameFace auth clusterId name) := by
  refine owned_isolates hrole clusterId fun c howner _ => ?_
  rw [howner]
  refine Twin.bind (write_mirrors fun _ _ _ _ => rfl) fun result => ?_
  rcases result with _ | ⟨code, message⟩
  · refine (query_mirrors ?_).conseq (fun _ _ h => h) (fun _ _ _ h => h.1) fun _ _ h => h
    rintro db n hinv ⟨db₁, _, now, commit, -, ⟨id, hown⟩, hrun, -, rfl⟩
    rcases renameCluster_ok hrun with ⟨hdb, -⟩ | ⟨id', row, -, hcommit⟩
    · rw [hdb] at hinv ⊢
      exact getCluster_of hinv.toLinked hown
    · have hkept : ∃ row', Owned commit.db clusterId auth.userId id row' := by
        rw [hcommit]
        exact hown.updateClusters _ (fun _ => rfl) fun _ => rfl
      obtain ⟨row', hown'⟩ := hkept
      exact getCluster_of hinv.toLinked hown'
  · exact Twin.fail fun _ _ h => h.1

/-! ### Merging -/

theorem chooseTarget_mirrors {X : Database K → ℕ → Prop} (ids : List String)
    {target : Option (String × String)} (htarget : ∀ t ∈ target, t.2 = auth.userId) :
    Mirrors svc.pf oracle (Knowing auth.userId w₀ X) (chooseTarget auth ids target)
      (fun r => Knowing auth.userId w₀ fun db n => X db n ∧
        (∀ cid ∈ ids, ∃ id c, Owned db cid auth.userId id c) ∧ ∀ t ∈ r, t.2 = auth.userId)
      (InStep auth.userId w₀) := by
  induction ids generalizing target X with
  | nil => exact Twin.ret fun _ _ h => ⟨h.1, h.2, by simp, htarget⟩
  | cons cid ids ih =>
      refine Twin.bind (ownedCluster_mirrors hrole cid) fun c => ?_
      refine Twin.assuming (P := c.ownerId.text = auth.userId) ?_ fun howner => ?_
      · rintro s t ⟨-, -, id, hown⟩
        exact hown.owner
      · refine (ih ?_).conseq (fun _ _ h => h) ?_ fun _ _ h => h
        · intro t ht
          cases target with
          | some t' => exact htarget t ht
          | none =>
              rw [Option.none_or] at ht
              split at ht
              · cases ht
                exact howner
              · cases ht
        · rintro r s t ⟨h, ⟨hX, id, hown⟩, hids, hr⟩
          exact ⟨h, hX, List.forall_mem_cons.mpr ⟨⟨id, c, hown⟩, hids⟩, hr⟩

theorem selectTarget_mirrors (ids : List String) :
    Mirrors svc.pf oracle (InStep auth.userId w₀) (selectTarget auth ids)
      (fun t => Knowing auth.userId w₀ fun _ _ => t.2 = auth.userId) (InStep auth.userId w₀) := by
  refine Twin.bind ((chooseTarget_mirrors hrole (X := fun _ _ => True) ids (by simp)).conseq
    (fun _ _ h => h.knowing) (fun _ _ _ h => h) fun _ _ h => h) fun r => ?_
  cases r with
  | some t => exact Twin.ret fun _ _ h => ⟨h.1, h.2.2.2 t rfl⟩
  | none =>
      cases ids with
      | nil => exact Twin.fail fun _ _ h => h.1
      | cons cid ids =>
          refine Twin.bind (query_mirrors ?_) fun found => ?_
          · rintro db n h ⟨-, hids, -⟩
            obtain ⟨id, c, hown⟩ := hids cid List.mem_cons_self
            exact getCluster_of h.toLinked hown
          · cases found with
            | none => exact Twin.fail fun _ _ h => h.1
            | some c =>
                refine Twin.ret fun s t ⟨h, ⟨_, hids, _⟩, hfound⟩ => ⟨h, ?_⟩
                obtain ⟨id, c', hown⟩ := hids cid List.mem_cons_self
                have heq := hown.getCluster.symm.trans hfound
                cases heq
                exact hown.owner

omit hrole in
/-- A merge that goes through verified every source. -/
theorem wrote_mergeClusters {X : Database K → ℕ → Prop} {userId targetId : String}
    {sourceIds : List String} {db : Database K} {merged : Merged}
    (h : Wrote svc.pf oracle X (.mergeClusters userId targetId sourceIds) (some merged) db) :
    ∀ cid ∈ merged.deletedClusterIds, OwnCrop userId (cropKey userId cid) := by
  obtain ⟨db₁, n, now, c, -, -, hrun, hresult, -⟩ := h
  rcases mergeClusters_ok hrun with hnone | ⟨target, row, affected, st, -, hverify, -, hsome⟩
  · rw [hnone] at hresult
    exact absurd hresult.symm (Option.some_ne_none merged)
  · rw [hsome] at hresult
    intro cid hcid
    rw [← Option.some.inj hresult] at hcid
    obtain ⟨id, source, hown⟩ := verifySources_true hverify cid hcid
    exact ownCrop_text hown.owner hown.cast

omit hrole in
theorem purgeMerged_isolates {ids : List String}
    (hids : ∀ cid ∈ ids, OwnCrop auth.userId (cropKey auth.userId cid)) :
    Isolates svc oracle auth w₀ (ids.forM (purgeCrop svc true auth.userId)) :=
  Twin.forM fun cid hcid => purgeCrop_mirrors (hids cid hcid) true

theorem mergeFaces_isolates (clusterIds : List String) :
    Isolates svc oracle auth w₀ (mergeFaces svc auth clusterIds) := by
  unfold mergeFaces
  refine Twin.bind (selectTarget_mirrors hrole clusterIds) ?_
  rintro ⟨targetId, targetOwner⟩
  refine Twin.assuming (P := targetOwner = auth.userId) (fun _ _ h => h.2) fun howner => ?_
  subst howner
  refine Twin.bind (write_mirrors fun _ _ _ _ => rfl) fun result => ?_
  cases result with
  | none => exact Twin.fail fun _ _ h => h.1
  | some result =>
      refine Twin.assuming (fun _ _ h => wrote_mergeClusters h.2) fun hids => ?_
      refine Twin.bind ((purgeMerged_isolates hids).conseq (fun _ _ h => h.1) (fun _ _ _ h => h)
        fun _ _ h => h) fun _ => Twin.bind (read_mirrors ?_) fun _ => pure_isolates _
      exact fun _ hl => getCluster_owned_of hl _

omit hrole in
theorem mergeGroup_isolates (counts : MergeCounts) (g : Group K) :
    Isolates svc oracle auth w₀ (mergeGroup svc auth counts g) := by
  unfold mergeGroup
  have hmerge : ∀ target ids, Mirrors svc.pf oracle (InStep auth.userId w₀)
      (orElse (write (.mergeClusters auth.userId target ids)) none)
      (fun a => Knowing auth.userId w₀ fun _ _ => ∀ m ∈ a, ∀ cid ∈ m.deletedClusterIds,
        OwnCrop auth.userId (cropKey auth.userId cid)) (InStep auth.userId w₀) := by
    intro target ids
    refine Twin.conseq (orElse_mirrors (X := fun _ _ => True) ?_ (by simp)) (fun _ _ h => h.knowing)
      (fun _ _ _ h => h) fun _ _ h => h
    refine Twin.conseq (write_mirrors fun _ _ _ _ => rfl) (fun _ _ h => h) ?_ fun _ _ h => h
    rintro a s t ⟨h, hwrote⟩
    refine ⟨h, fun m hm => ?_⟩
    rw [Option.mem_def.mp hm] at hwrote
    exact wrote_mergeClusters hwrote
  refine Twin.bind (hmerge _ _) fun result => ?_
  cases result with
  | none => exact Twin.ret fun _ _ h => h.1
  | some result =>
      refine Twin.assuming (fun _ _ h => h.2 result rfl) fun hids => ?_
      exact Twin.bind ((purgeMerged_isolates hids).conseq (fun _ _ h => h.1) (fun _ _ _ h => h)
        fun _ _ h => h) fun _ => pure_isolates _

omit hrole in
theorem mergeDuplicateGroups_isolates (minSimilarity : Option K) :
    Isolates svc oracle auth w₀ (mergeDuplicateGroups svc auth minSimilarity) :=
  Twin.bind getClustersForOwner_isolates fun _ => Twin.bind getClustersVideos_isolates fun _ =>
    Twin.bind (lift_isolates _) fun _ =>
      Twin.foldlM (fun counts g _ => mergeGroup_isolates counts g) _

/-! ### Pictures -/

omit hrole in
theorem suggestionIndex_isolates :
    Isolates svc oracle auth w₀ (suggestionIndex svc auth.userId) := by
  unfold suggestionIndex
  refine Twin.bind ((cacheLookup_mirrors (X := fun _ _ => True)).conseq (fun _ _ h => h.knowing)
    (fun _ _ _ h => h.1) fun _ _ h => h) ?_
  rintro ⟨epoch, _ | value⟩
  · refine Twin.bind getClustersForOwner_isolates fun clusters =>
      Twin.bind (lift_isolates _) fun value => Twin.bind ?_ fun _ => pure_isolates _
    exact (cacheStore_mirrors (X := fun _ _ => True) epoch value).conseq (fun _ _ h => h.knowing)
      (fun _ _ _ h => h.1) fun _ _ h => h
  · exact pure_isolates _

omit hrole in
theorem detectFaces_isolates (file : Bytes) :
    Isolates svc oracle auth w₀ (detectFaces svc auth file) :=
  Twin.bind (lift_isolates _) fun _ => Twin.bind (lift_isolates _) fun _ =>
    Twin.bind suggestionIndex_isolates fun _ => Twin.bind (lift_isolates _) fun _ => pure_isolates _

omit [Arithmetic K] hrole in
/-- The row names itself. -/
theorem owned_self {db : Database K} {clusterId userId : String} {id : Uuid} {c : Cluster K}
    (h : Owned db clusterId userId id c) : Owned db c.id.text userId c.id c := by
  refine ⟨Uuid.castUuid_text _, ?_, h.owner⟩
  rw [h.mem.2]
  exact h.found

theorem faceCrop_isolates (clusterId : String) :
    Isolates svc oracle auth w₀ (faceCrop svc auth clusterId) := by
  refine owned_isolates hrole clusterId fun c howner ⟨id, hcast⟩ => ?_
  refine Twin.bind (Twin.lifted (fun _ _ _ _ h => h) fun _ _ h => h.1) fun _ => ?_
  rw [howner]
  refine Twin.bind (getCrop_mirrors (ownCrop_text howner hcast)) fun found => ?_
  cases found with
  | none => exact Twin.fail fun _ _ h => h.1
  | some blob => exact Twin.ret fun _ _ h => h.1

omit hrole in
theorem putClusterCrop_mirrors {c : Cluster K} {clusterId : String}
    (howner : c.ownerId.text = auth.userId) (hcast : ∃ id, castUuid clusterId = .ok id) (jpeg : Bytes) :
    Mirrors svc.pf oracle (Knowing auth.userId w₀ fun db _ => ∃ id, Owned db clusterId auth.userId id c)
      (putClusterCrop c clusterId jpeg) (fun _ => InStep auth.userId w₀) (InStep auth.userId w₀) := by
  obtain ⟨id, hcast⟩ := hcast
  unfold putClusterCrop
  rw [howner]
  refine Twin.bind (putCrop_mirrors (ownCrop_text howner hcast) jpeg) fun key => ?_
  refine Twin.bind (write_mirrors fun _ _ _ _ => rfl) fun _ => ?_
  refine Twin.bind (query_mirrors ?_) fun updated => Twin.ret fun _ _ h => h.1
  rintro db n hinv ⟨db₁, _, now, commit, -, ⟨⟨id', hown⟩, -⟩, hrun, -, rfl⟩
  obtain ⟨_, _, -, -, hcommit⟩ := setClusterCrop_ok hrun
  have hkept : ∃ row', Owned commit.db clusterId auth.userId id' row' := by
    rw [hcommit]
    exact hown.updateClusters _ (fun _ => rfl) fun _ => rfl
  obtain ⟨row', hown'⟩ := hkept
  exact getCluster_of hinv.toLinked hown'

theorem replaceFaceCrop_isolates (clusterId : String) (file : Bytes) :
    Isolates svc oracle auth w₀ (replaceFaceCrop svc auth clusterId file) := by
  refine owned_isolates hrole clusterId fun c howner hcast => ?_
  refine Twin.bind (Twin.lifted (fun _ _ _ _ h => h) fun _ _ h => h.1) fun img => ?_
  split
  · exact Twin.fail fun _ _ h => h.1
  · exact Twin.bind (Twin.lifted (fun _ _ _ _ h => h) fun _ _ h => h.1) fun _ =>
      putClusterCrop_mirrors howner hcast _

omit hrole in
/-- Rendering a sample reads one sighting of the cluster and its frame. -/
theorem renderSampleCrop_mirrors {X : Database K → ℕ → Prop} {c : Cluster K}
    (hX : ∀ db n, X db n → ∃ id, Owned db c.id.text auth.userId id c) (streamId : String) (tSeconds : K) :
    Mirrors svc.pf oracle (Knowing auth.userId w₀ X) (renderSampleCrop svc c streamId tSeconds)
      (fun _ => Knowing auth.userId w₀ X) (InStep auth.userId w₀) := by
  unfold renderSampleCrop
  simp only
  split
  · exact Twin.ret fun _ _ h => h
  · refine Twin.bind (Twin.lifted (fun _ _ _ _ h => h) fun _ _ h => h.1) fun _ => ?_
    refine Twin.bind (query_mirrors ?_) fun found => ?_
    · intro db n hinv h
      obtain ⟨id, hown⟩ := hX db n h
      exact getClusterOccurrence_of hinv.toLinked hown streamId tSeconds
    · cases found with
      | none => exact Twin.ret fun _ _ h => h.mono fun _ _ h => h.1
      | some occ =>
          simp only
          split
          · refine Twin.bind (getFrame_mirrors _ _) fun raw => ?_
            cases raw with
            | none => exact Twin.ret fun _ _ h => h.mono fun _ _ h => h.1
            | some raw =>
                simp only
                split
                · exact Twin.ret fun _ _ h => h.mono fun _ _ h => h.1
                · refine Twin.bind (Twin.lifted (fun _ _ _ _ h => h) fun _ _ h => h.1) fun best => ?_
                  exact Twin.ret fun _ _ h => h.mono fun _ _ h => h.1
          · exact Twin.ret fun _ _ h => h.mono fun _ _ h => h.1

theorem faceSampleCrop_isolates (clusterId streamId : String) (tSeconds : K) :
    Isolates svc oracle auth w₀ (faceSampleCrop svc auth clusterId streamId tSeconds) := by
  refine owned_isolates hrole clusterId fun c howner _ => ?_
  refine Twin.bind (renderSampleCrop_mirrors ?_ streamId tSeconds) fun found => ?_
  · rintro db n ⟨id, hown⟩
    exact ⟨c.id, owned_self hown⟩
  · cases found with
    | none => exact Twin.fail fun _ _ h => h.1
    | some jpeg => exact Twin.ret fun _ _ h => h.1

theorem replaceFaceCropFromSample_isolates (clusterId streamId : String) (tSeconds : K) :
    Isolates svc oracle auth w₀ (replaceFaceCropFromSample svc auth clusterId streamId tSeconds) := by
  refine owned_isolates hrole clusterId fun c howner hcast => ?_
  refine Twin.bind (Twin.lifted (fun _ _ _ _ h => h) fun _ _ h => h.1) fun _ => ?_
  refine Twin.bind (renderSampleCrop_mirrors ?_ streamId tSeconds) fun found => ?_
  · rintro db n ⟨id, hown⟩
    exact ⟨c.id, owned_self hown⟩
  · cases found with
    | none => exact Twin.fail fun _ _ h => h.1
    | some jpeg => exact putClusterCrop_mirrors howner hcast jpeg

/-- The next id Postgres draws is nobody's. -/
def Fresh (oracle : Oracle) (db : Database K) (n : ℕ) : Prop :=
  ∀ c ∈ db.clusters, c.id ≠ oracle.fresh n

theorem givenCluster_mirrors (clusterId : Option String) :
    Mirrors svc.pf oracle (Knowing auth.userId w₀ (Fresh oracle)) (givenCluster auth clusterId)
      (fun r => Knowing auth.userId w₀ fun db n => Fresh oracle db n ∧
        ∀ c ∈ r, ∃ id, Owned db c.id.text auth.userId id c) (InStep auth.userId w₀) := by
  cases clusterId with
  | none => exact Twin.ret fun _ _ h => h.mono fun _ _ h => ⟨h, by simp⟩
  | some id =>
      unfold givenCluster
      simp only
      split
      · exact Twin.ret fun _ _ h => h.mono fun _ _ h => ⟨h, by simp⟩
      · refine Twin.bind (ownedCluster_mirrors hrole id) fun c => Twin.ret fun _ _ h => ?_
        refine h.mono fun db n ⟨hfresh, _, hown⟩ => ⟨hfresh, fun c' hc' => ?_⟩
        cases hc'
        exact ⟨_, owned_self hown⟩

omit hrole in
theorem attachTarget_mirrors (centroid : List K) (cluster : Option (Cluster K)) :
    Mirrors svc.pf oracle (Knowing auth.userId w₀ fun db n => Fresh oracle db n ∧
        ∀ c ∈ cluster, ∃ id, Owned db c.id.text auth.userId id c)
      (attachTarget auth.userId centroid cluster)
      (fun r => Knowing auth.userId w₀ fun db _ => ∃ id, Owned db r.1.id.text auth.userId id r.1)
      (InStep auth.userId w₀) := by
  unfold attachTarget
  cases cluster with
  | some c => exact Twin.ret fun _ _ h => h.mono fun _ _ h => h.2 c rfl
  | none =>
      refine Twin.bind (write_mirrors ?_) fun newId => ?_
      · exact fun db n _ h => ⟨rfl, rfl, rfl, h.1⟩
      · refine Twin.bind (query_mirrors ?_) fun found => ?_
        · exact fun db n h _ => getCluster_owned_of h.toLinked _
        · cases found with
          | none => exact Twin.fail fun _ _ h => h.1
          | some c =>
              refine Twin.ret fun _ _ h => h.mono fun db n ⟨_, hfound⟩ => ?_
              obtain ⟨id, hown⟩ := getCluster_owned hfound
              exact ⟨c.id, owned_self hown⟩

omit hrole in
theorem attachCrop_isolates (img : Image) {c : Cluster K} (howner : c.ownerId.text = auth.userId)
    (det : Detection K) :
    Isolates svc oracle auth w₀ (attachCrop svc img auth.userId c.id.text det c) := by
  unfold attachCrop
  split
  · exact pure_isolates _
  · split
    · exact pure_isolates _
    · split
      · have hkey := ownCrop_text howner (Uuid.castUuid_text c.id)
        refine Twin.bind (Twin.conseq (putCrop_mirrors (X := fun _ _ => True) hkey _)
          (fun _ _ h => h.knowing) (fun _ _ _ h => h.1) fun _ _ h => h) fun key => ?_
        exact Twin.conseq (ownWrite_mirrors fun _ _ => rfl) (fun _ _ h => h) (fun _ _ _ h => h.1)
          fun _ _ h => h
      · exact pure_isolates _

theorem attachFrameFace_mirrors (streamId : String) (file : Bytes) (bbox : String) (tSeconds : K)
    (clusterId : Option String) :
    Mirrors svc.pf oracle (Knowing auth.userId w₀ (Fresh oracle))
      (attachFrameFace svc auth streamId file bbox tSeconds clusterId)
      (fun _ => InStep auth.userId w₀) (InStep auth.userId w₀) := by
  unfold attachFrameFace
  refine Twin.bind (Twin.lifted (fun _ _ _ _ h => h) fun _ _ h => h.1) fun img => ?_
  refine Twin.bind (Twin.lifted (fun _ _ _ _ h => h) fun _ _ h => h.1) fun _ => ?_
  refine Twin.bind (Twin.lifted (fun _ _ _ _ h => h) fun _ _ h => h.1) fun box => ?_
  split
  · exact Twin.fail fun _ _ h => h.1
  · refine Twin.bind (givenCluster_mirrors hrole clusterId) fun cluster => ?_
    refine Twin.bind (Twin.lifted (fun _ _ _ _ h => h) fun _ _ h => h.1) fun det => ?_
    refine Twin.assuming (P := ∀ c ∈ cluster, c.ownerId.text = auth.userId) ?_ fun howner => ?_
    · rintro s t ⟨-, -, hown⟩ c hc
      obtain ⟨id, hown⟩ := hown c hc
      exact hown.owner
    · extract_lets centroid ownerId
      have hcaller : ownerId = auth.userId := by
        cases cluster with
        | none => rfl
        | some c => exact howner c rfl
      clear_value ownerId
      subst hcaller
      refine Twin.bind (attachTarget_mirrors centroid cluster) ?_
      rintro ⟨c, created⟩
      refine Twin.assuming (P := c.ownerId.text = auth.userId) ?_ fun howner => ?_
      · rintro s t ⟨-, id, hown⟩
        exact hown.owner
      · refine Twin.bind (write_mirrors ?_) fun written => ?_
        · rintro db n - ⟨id, hown⟩
          refine ⟨rfl, fun it hit => ?_⟩
          rw [List.mem_singleton.mp hit]
          exact ⟨id, c, hown.cast, hown.found, hown.castOwner⟩
        · refine Twin.bind (Twin.lifted (fun _ _ _ _ h => h) fun _ _ h => h.1) fun merged => ?_
          refine Twin.bind (write_mirrors fun _ _ _ _ => rfl) fun _ => ?_
          refine Twin.bind (Twin.conseq (attachCrop_isolates img howner det) (fun _ _ h => h.1)
            (fun _ _ _ h => h) fun _ _ h => h) fun _ => ?_
          exact Twin.bind (read_mirrors fun _ hl => getCluster_owned_of hl _) fun _ => pure_isolates _

/-! ### All requests -/

omit hrole in
theorem Isolates.request {α : Type} {p : Program K α} (h : Isolates svc oracle auth w₀ p) :
    Mirrors svc.pf oracle (Knowing auth.userId w₀ (Fresh oracle)) p (fun _ => Shadows auth.userId w₀)
      (Shadows auth.userId w₀) :=
  h.conseq (fun _ _ h => h.1) (fun _ _ _ h => h.toShadows) fun _ _ h => h.toShadows

/-- Every request, on the world and on the private one. -/
theorem serve_mirrors (r : Request K) :
    Mirrors svc.pf oracle (Knowing auth.userId w₀ (Fresh oracle)) (serve svc auth r)
      (fun _ => Shadows auth.userId w₀) (Shadows auth.userId w₀) := by
  cases r with
  | listFaces limit offset sort order => exact (listFaces_isolates limit offset sort order).request
  | searchVideosByFaces clusterIds mode => exact (searchVideosByFaces_isolates clusterIds mode).request
  | suggestFaces q exclude => exact (suggestFaces_isolates q exclude).request
  | deleteEmptyFaces => exact deleteEmptyFaces_isolates.request
  | deleteFacesBatch clusterIds => exact (deleteFacesBatch_isolates clusterIds).request
  | deleteFace clusterId => exact (deleteFace_isolates hrole clusterId).request
  | detachStreamFace streamId clusterId =>
      exact (detachStreamFace_isolates hrole streamId clusterId).request
  | mergeFaces clusterIds => exact (mergeFaces_isolates hrole clusterIds).request
  | mergeDuplicateGroups minSimilarity => exact (mergeDuplicateGroups_isolates minSimilarity).request
  | getFace clusterId => exact (getFace_isolates hrole clusterId).request
  | renameFace clusterId name => exact (renameFace_isolates hrole clusterId name).request
  | streamFaces streamId =>
      exact (streamFaces_mirrors hrole streamId).conseq (fun _ _ h => h.1) (fun _ _ _ h => h)
        fun _ _ h => h
  | detectFaces file => exact (detectFaces_isolates file).request
  | attachFrameFace streamId file bbox tSeconds clusterId =>
      exact (attachFrameFace_mirrors hrole streamId file bbox tSeconds clusterId).conseq
        (fun _ _ h => h) (fun _ _ _ h => h.toShadows) fun _ _ h => h.toShadows
  | faceCrop clusterId => exact (faceCrop_isolates hrole clusterId).request
  | replaceFaceCrop clusterId file => exact (replaceFaceCrop_isolates hrole clusterId file).request
  | faceSampleCrop clusterId streamId tSeconds =>
      exact (faceSampleCrop_isolates hrole clusterId streamId tSeconds).request
  | replaceFaceCropFromSample clusterId streamId tSeconds =>
      exact (replaceFaceCropFromSample_isolates hrole clusterId streamId tSeconds).request

/-- The run of a request, alone. -/
def served (svc : Service K) (oracle : Oracle) (auth : AuthContext) (r : Request K) (w : World K) :
    Except PyError r.Body × World K :=
  (serve svc auth r).exec (answer svc.pf oracle) w

/-- **Owner isolation.** Two worlds that look the same to a caller who is no
admin look the same after a request, and give the same response. What the caller
does not see stays as it was in each of them, the crops of other owners
(`ownCrop_iff`) among it. -/
theorem requests_isolated {w₁ w₂ : World K} (hreach₁ : Reached svc.pf w₁.db)
    (hreach₂ : Reached svc.pf w₂.db) (hview : SameView auth.userId w₁ w₂)
    (hdraws : w₁.draws = w₂.draws) (hcalls : w₁.calls = w₂.calls)
    (hfresh₁ : Fresh oracle w₁.db w₁.draws) (hfresh₂ : Fresh oracle w₂.db w₂.draws) (r : Request K) :
    (served svc oracle auth r w₁).1 = (served svc oracle auth r w₂).1 ∧
      SameView auth.userId (served svc oracle auth r w₁).2 (served svc oracle auth r w₂).2 ∧
      Untouched auth.userId w₁ (served svc oracle auth r w₁).2 ∧
      Untouched auth.userId w₂ (served svc oracle auth r w₂).2 := by
  set v : World K := { w₁ with db := w₁.db.of auth.userId } with hv
  have hstep₁ : InStep auth.userId w₁ w₁ v :=
    ⟨⟨hreach₁.invariant, rfl, fun _ _ => rfl, rfl, rfl, ⟨rfl, fun _ _ => rfl⟩⟩, rfl, rfl⟩
  have hstep₂ : InStep auth.userId w₂ w₂ v :=
    ⟨⟨hreach₂.invariant, hview.own, hview.objects, hview.epoch, hview.entries,
      ⟨rfl, fun _ _ => rfl⟩⟩, hdraws, hcalls⟩
  have hrun₁ : Alike _ _ (served svc oracle auth r w₁) (served svc oracle auth r v) :=
    serve_mirrors hrole r w₁ v ⟨hstep₁, hfresh₁⟩
  have hrun₂ : Alike _ _ (served svc oracle auth r w₂) (served svc oracle auth r v) :=
    serve_mirrors hrole r w₂ v ⟨hstep₂, hfresh₂⟩
  have hend₁ := hrun₁.states
  have hend₂ := hrun₂.states
  refine ⟨hrun₁.result.trans hrun₂.result.symm, ⟨?_, ?_, ?_, ?_⟩, hend₁.untouched, hend₂.untouched⟩
  · exact hend₁.db.symm.trans hend₂.db
  · exact fun key hkey => (hend₁.objects key hkey).symm.trans (hend₂.objects key hkey)
  · exact hend₁.epoch.symm.trans hend₂.epoch
  · exact hend₁.entries.symm.trans hend₂.entries

end Endpoints

/-! ### An owner with and without a neighbour -/

/-- The tables with one cluster of owner `1111…`. -/
def neighbourDb : Database ℚ :=
  (Write.upsertCluster (Uuid.fill 1).text none false [1]).commit Platform.exact (Uuid.fill 3) 0 ⟨[], []⟩

def neighbourWorld (db : Database ℚ) : World ℚ := { sceneWorld with db := db, draws := 1 }

def neighbour : AuthContext := ⟨(Uuid.fill 2).text, none⟩

/-- Owner `2222…` asks for that cluster, and is told the same as if it was not there. -/
theorem requests_isolated_neighbour :
    (served (sceneService []) (sceneOracle 0) neighbour (.getFace (Uuid.fill 3).text)
        (neighbourWorld neighbourDb)).1 =
      (served (sceneService []) (sceneOracle 0) neighbour (.getFace (Uuid.fill 3).text)
        (neighbourWorld ⟨[], []⟩)).1 := by
  have hrole : neighbour.role ≠ some "admin" := by decide
  have hreach₁ : Reached Platform.exact neighbourDb := by
    unfold neighbourDb
    exact .step .empty _ 0 _ ⟨rfl, rfl⟩
  have hreach₂ : Reached Platform.exact ⟨[], []⟩ := .empty
  have hview : SameView neighbour.userId (neighbourWorld neighbourDb) (neighbourWorld ⟨[], []⟩) :=
    ⟨by decide, fun _ _ => rfl, rfl, rfl⟩
  have hfresh₁ : Fresh (sceneOracle 0) (neighbourWorld neighbourDb).db 1 := by
    unfold Fresh
    decide
  have hfresh₂ : Fresh (sceneOracle 0) (neighbourWorld ⟨[], []⟩).db 1 := by
    unfold Fresh
    decide
  exact (requests_isolated hrole hreach₁ hreach₂ hview rfl rfl hfresh₁ hfresh₂ _).1

end FacesService.Reader
