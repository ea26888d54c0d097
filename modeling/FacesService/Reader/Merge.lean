import FacesService.Reader.Steps
import FacesService.Store.Merge
import FacesService.Store.Invariant

/-!
`merge_faces`. The endpoint keeps apart the target and the sources as strings,
the database tells clusters apart as uuids. A second spelling of the target
among the sources therefore passes every check, and the merge copies the
target's rows onto itself and then deletes it with all of them.

So the merge is right exactly when the target has one spelling in the list.
-/

namespace FacesService.Reader

open Prog Database Db

variable {K : Type} {svc : Service K} {auth : AuthContext}

/-! ### The target -/

/-- The first listed cluster with a name, otherwise the first listed one. -/
def mergeTarget (db : Database K) (ids : List String) : Option String :=
  (ids.find? fun cid => (rowOf db cid).any (·.isNamed)).or ids.head?

section Target

variable [Arithmetic K] {pf : Platform K} {oracle : Oracle}

theorem chooseTarget_ok {ids : List String} {target r : Option (String × String)} {w w' : World K}
    (h : (chooseTarget auth ids target).exec (answer pf oracle) w = (.ok r, w')) :
    w'.db = w.db ∧ (∀ cid ∈ ids, ∃ row, rowOf w.db cid = some row) ∧
      r.map (·.1) = (target.map (·.1)).or (ids.find? fun cid => (rowOf w.db cid).any (·.isNamed)) := by
  induction ids generalizing target w with
  | nil =>
      cases h
      exact ⟨rfl, by simp, by simp⟩
  | cons cid ids ih =>
      unfold chooseTarget at h
      obtain ⟨row, w₁, hown, hrest⟩ := exec_bind_eq_ok.mp h
      obtain ⟨hrow, -, rfl⟩ := ownedCluster_ok hown
      obtain ⟨hdb, hrows, hr⟩ := ih hrest
      refine ⟨hdb, List.forall_mem_cons.mpr ⟨⟨row, hrow⟩, hrows⟩, ?_⟩
      rw [hr, List.find?_cons, hrow]
      simp only [Option.any_some]
      cases target with
      | some t => simp
      | none => cases row.isNamed <;> simp

theorem defaultTarget_ok {ids : List String} {r : String × String} {w w' : World K}
    (h : (defaultTarget (K := K) ids).exec (answer pf oracle) w = (.ok r, w')) :
    w'.db = w.db ∧ ids.head? = some r.1 := by
  cases ids with
  | nil => cases h
  | cons cid ids =>
      unfold defaultTarget at h
      obtain ⟨found, w₁, hquery, h⟩ := exec_bind_eq_ok.mp h
      rw [exec_query, Prod.mk.injEq] at hquery
      obtain ⟨-, rfl⟩ := hquery
      cases found with
      | none => cases h
      | some row =>
          cases h
          exact ⟨rfl, rfl⟩

theorem selectTarget_ok {ids : List String} {r : String × String} {w w' : World K}
    (h : (selectTarget auth ids).exec (answer pf oracle) w = (.ok r, w')) :
    w'.db = w.db ∧ (∀ cid ∈ ids, ∃ row, rowOf w.db cid = some row) ∧
      mergeTarget w.db ids = some r.1 := by
  unfold selectTarget at h
  obtain ⟨chosen, w₁, hchoose, h⟩ := exec_bind_eq_ok.mp h
  obtain ⟨hdb₁, hrows, hchosen⟩ := chooseTarget_ok hchoose
  rw [Option.map_none, Option.none_or] at hchosen
  rw [mergeTarget, ← hchosen]
  cases chosen with
  | some t =>
      cases h
      exact ⟨hdb₁, hrows, rfl⟩
  | none =>
      obtain ⟨hdb₂, hhead⟩ := defaultTarget_ok h
      exact ⟨hdb₂.trans hdb₁, hrows, hhead⟩

/-- What an answered merge did: one `merge_clusters` into the target, the
other listed strings being the sources. -/
theorem mergeFaces_ok {ids : List String} {body : MergeBody K} {w w' : World K}
    (h : (mergeFaces svc auth ids).exec (answer pf oracle) w = (.ok body, w')) :
    mergeTarget w.db ids = some body.targetId ∧ (∀ cid ∈ ids, ∃ row, rowOf w.db cid = some row) ∧
      ∃ owner now c m, mergeClusters pf now w.db owner body.targetId
          (ids.filter (· ≠ body.targetId)) = .ok c ∧ c.result = some m ∧ w'.db = c.db := by
  unfold mergeFaces at h
  obtain ⟨⟨targetId, targetOwner⟩, w₁, hselect, h⟩ := exec_bind_eq_ok.mp h
  obtain ⟨hdb₁, hrows, htarget⟩ := selectTarget_ok hselect
  obtain ⟨result, w₂, hwrite, h⟩ := exec_bind_eq_ok.mp h
  obtain ⟨c, hrun, rfl, hdb₂, -⟩ := write_ok hwrite
  cases hresult : c.result with
  | none =>
      rw [hresult] at h
      cases h
  | some m =>
      rw [hresult] at h
      obtain ⟨⟨⟩, w₃, hpurge, h⟩ := exec_bind_eq_ok.mp h
      obtain ⟨merged, w₄, hquery, h⟩ := exec_bind_eq_ok.mp h
      rw [exec_query, Prod.mk.injEq] at hquery
      obtain ⟨-, rfl⟩ := hquery
      cases h
      have hdb₃ : w₃.db = w₂.db := by
        have hkeeps := purges_db pf oracle (within_forM
          (fun cid => purgeCrop_within svc (fun _ hc => hc) trivial true targetOwner cid)
          m.deletedClusterIds) w₂
        rw [hpurge] at hkeeps
        exact hkeeps
      refine ⟨htarget, hrows, targetOwner, oracle.clock w₁.calls, c, m, ?_, hresult, ?_⟩
      · rw [← hdb₁]
        exact hrun
      · exact hdb₃.trans hdb₂

end Target

/-! ### The merge -/

/-- The merge was into the target and lost nothing: the target is there with
the sightings of all listed clusters, and the other listed clusters are gone. -/
def MergedInto (db db' : Database K) (ids : List String) (targetId : String) : Prop :=
  ∃ target, castUuid targetId = .ok target ∧
    (∃ row ∈ db'.clusters, row.id = target ∧
      row.sampleCount = ((denoted ids).dedup.map db.countFor).sum) ∧
    ∀ id ∈ denoted ids, id ≠ target → ∀ row ∈ db'.clusters, row.id ≠ id

/-- The target occurs in the list in one spelling only. -/
def SpelledOnce (db : Database K) (ids : List String) : Prop :=
  ∀ targetId, mergeTarget db ids = some targetId →
    ∀ cid ∈ ids, castUuid cid = castUuid targetId → cid = targetId

theorem mergeTarget_mem {db : Database K} {ids : List String} {targetId : String}
    (h : mergeTarget db ids = some targetId) : targetId ∈ ids := by
  unfold mergeTarget at h
  cases hnamed : ids.find? fun cid => (rowOf db cid).any (·.isNamed) with
  | some cid =>
      rw [hnamed] at h
      cases h
      exact List.mem_of_find?_eq_some hnamed
  | none =>
      rw [hnamed, Option.none_or] at h
      exact List.mem_of_head? h

variable [Arithmetic K] {oracle : Oracle}

/-- **A merge is right exactly when its target is spelled once.** -/
theorem merged_into_iff_spelledOnce {ids : List String} {body : MergeBody K} {w w' : World K}
    (h : (mergeFaces svc auth ids).exec (answer svc.pf oracle) w = (.ok body, w')) :
    MergedInto w.db w'.db ids body.targetId ↔ SpelledOnce w.db ids := by
  obtain ⟨hchosen, hrows, owner, now, c, m, hmerge, hm, hdb⟩ := mergeFaces_ok h
  have hmem := mergeTarget_mem hchosen
  obtain ⟨row, hrow⟩ := hrows _ hmem
  obtain ⟨target, htarget, hfound⟩ := rowOf_eq_some.mp hrow
  have hgone := mergeClusters_gone hmerge hm
  rw [hdb]
  constructor
  · -- an alias of the target is a source, so the target is gone
    rintro ⟨target', htarget', ⟨row', hrow', hid', -⟩, -⟩ targetId hchosen' cid hcid hcast
    cases hchosen.symm.trans hchosen'
    cases htarget.symm.trans htarget'
    by_contra hne
    refine hgone row' hrow' (mem_denoted.mpr ⟨cid, List.mem_filter.mpr ⟨hcid, by simpa using hne⟩, ?_⟩)
    rw [hcast, htarget, hid']
  · intro honce
    have hsources : ∀ id, id ∈ denoted (ids.filter (· ≠ body.targetId)) ↔
        id ∈ denoted ids ∧ id ≠ target := by
      intro id
      simp only [mem_denoted, List.mem_filter, decide_eq_true_eq]
      constructor
      · rintro ⟨cid, ⟨hcid, hne⟩, hid⟩
        refine ⟨⟨cid, hcid, hid⟩, fun heq => hne (honce _ hchosen cid hcid ?_)⟩
        rw [hid, htarget, heq]
      · rintro ⟨⟨cid, hcid, hid⟩, hne⟩
        refine ⟨cid, ⟨hcid, fun heq => hne ?_⟩, hid⟩
        rw [heq, htarget] at hid
        exact (Except.ok.inj hid).symm
    have hnot : target ∉ denoted (ids.filter (· ≠ body.targetId)) :=
      fun hin => ((hsources target).mp hin).2 rfl
    obtain ⟨row', db₁, hown, habsorbed, hrecount⟩ := mergeClusters_absorbed hmerge hm htarget hnot
    refine ⟨target, htarget, ?_, ?_⟩
    · have hkept : row' ∈ db₁.clusters := by
        rw [habsorbed.clusters, List.mem_filter]
        exact ⟨hown.mem.1, by simpa [hown.mem.2] using hnot⟩
      have hin := recount_mem now (p := fun c => c.id = target) hkept (by simp [hown.mem.2])
      rw [← hrecount] at hin
      refine ⟨_, hin, hown.mem.2, ?_⟩
      rw [hown.mem.2, habsorbed.countFor_target hnot, sum_countFor]
      refine List.countP_congr fun o _ => ?_
      have htargetMem : target ∈ denoted ids := mem_denoted.mpr ⟨_, hmem, htarget⟩
      by_cases ho : o.clusterId = target
      · simp [ho, htargetMem]
      · simp only [decide_eq_true_eq, List.mem_cons, ho, false_or, hsources, ne_eq,
          not_false_eq_true, and_true]
    · intro id hid hne r hr heq
      exact hgone r hr (heq ▸ (hsources id).mpr ⟨hid, hne⟩)

/-- One cluster with one sighting. -/
def aliasDb : Database ℚ :=
  (Write.appendStreamOccurrences (Uuid.fill 1).text (Uuid.fill 2).text
    [⟨(Uuid.fill 10).text, [1], 5 / 2, 1⟩]).commit Platform.exact (Uuid.fill 4) 1
    ((Write.upsertCluster (Uuid.fill 1).text none false [1]).commit
      Platform.exact (Uuid.fill 10) 0 ⟨[], []⟩)

theorem aliasDb_reached : Reached Platform.exact aliasDb := by
  refine .step (.step .empty _ 0 _ ⟨rfl, rfl⟩) _ 1 _ ⟨.inr ?_, trivial⟩
  intro it hit
  rw [List.mem_singleton.mp hit]
  exact ⟨Uuid.fill 10, _, by decide, rfl, Uuid.castUuid_text _⟩

/-- The cluster in two spellings. -/
def aliasIds : List String := ["aaaaaaaa-aaaa-aaaa-aaaa-aaaaaaaaaaaa",
  "AAAAAAAA-AAAA-AAAA-AAAA-AAAAAAAAAAAA"]

/-- The merge of the cluster with itself. -/
def aliasRun : Except PyError (MergeBody ℚ) × World ℚ :=
  (mergeFaces (sceneService []) ⟨(Uuid.fill 1).text, none⟩ aliasIds).exec
    (answer (sceneService []).pf (sceneOracle 9)) { sceneWorld with db := aliasDb }

theorem aliasRun_ok : ∃ body w', aliasRun = (.ok body, w') := by
  have hok : aliasRun.1.isOk = true := by decide +kernel
  cases hrun : aliasRun.1 with
  | error e =>
      rw [hrun] at hok
      cases hok
  | ok body => exact ⟨body, aliasRun.2, Prod.ext hrun rfl⟩

theorem merged_into_iff_spelledOnce_alias : ∃ body w', aliasRun = (.ok body, w') ∧
    (MergedInto aliasDb w'.db aliasIds body.targetId ↔ SpelledOnce aliasDb aliasIds) := by
  obtain ⟨body, w', hrun⟩ := aliasRun_ok
  exact ⟨body, w', hrun, merged_into_iff_spelledOnce (w := { sceneWorld with db := aliasDb }) hrun⟩

/-- Merging a cluster with another spelling of itself is answered with 200 and
deletes the person. -/
theorem alias_merge_destroys :
    ¬ ∀ (svc : Service ℚ) (auth : AuthContext) (oracle : Oracle) (ids : List String)
      (body : MergeBody ℚ) (w w' : World ℚ), Reached svc.pf w.db → 2 ≤ ids.length →
      ids.length ≤ 100 → (mergeFaces svc auth ids).exec (answer svc.pf oracle) w = (.ok body, w') →
      MergedInto w.db w'.db ids body.targetId := by
  intro h
  obtain ⟨body, w', hrun⟩ := aliasRun_ok
  obtain ⟨target, -, ⟨row, hrow, -⟩, -⟩ := h (sceneService []) ⟨(Uuid.fill 1).text, none⟩
    (sceneOracle 9) aliasIds body { sceneWorld with db := aliasDb } w' aliasDb_reached
    (by decide) (by decide) hrun
  have hnone : aliasRun.2.db.clusters = [] := by decide +kernel
  rw [hrun] at hnone
  rw [hnone] at hrow
  cases hrow

end FacesService.Reader
