import FacesService.Base.Fallible
import FacesService.Base.Lists
import FacesService.Model.Clustering

/-!
What `match_cluster` returns. Its running best starts at the threshold for named
clusters, whatever the other one is; that start is never compared with, since as
long as there is no best cluster only the cluster's own threshold counts. So the
loop is the `argmax` of the similarity over the clusters that are eligible, and
the first of several that are equally similar.
-/

namespace FacesService

open Fallible

variable {K : Type} [Arithmetic K]

/-! ### Eligible clusters -/

/-- The similarity `match_cluster` computes for a cluster. -/
def similarityTo (pf : Platform K) (embedding : List K) (c : Known K) : Except PyError K :=
  cosineSimilarity pf embedding (asFloat32 pf c.centroid)

/-- The similarity reaches the threshold of the cluster's kind. -/
def Eligible (pf : Platform K) (embedding : List K) (matchThreshold unknownThreshold : K) (c : Known K)
    (sim : K) : Prop :=
  similarityTo pf embedding c = .ok sim ∧ (if c.isNamed then matchThreshold else unknownThreshold) ≤ sim

def isEligible (pf : Platform K) (embedding : List K) (matchThreshold unknownThreshold : K)
    (c : Known K) : Bool :=
  match similarityTo pf embedding c with
  | .error _ => false
  | .ok sim => (if c.isNamed then matchThreshold else unknownThreshold) ≤ sim

/-- The first of the most similar eligible clusters, or none if there is none. -/
def BestEligible (pf : Platform K) (embedding : List K) (clusters : List (Known K))
    (matchThreshold unknownThreshold : K) (r : Option String × K) : Prop :=
  let Eligible := Eligible pf embedding matchThreshold unknownThreshold
  match r with
  | (none, sim) => (∀ c ∈ clusters, ∀ s, ¬ Eligible c s) ∧ sim = matchThreshold
  | (some id, sim) => ∃ before c after, clusters = before ++ c :: after ∧ c.id = id ∧ Eligible c sim ∧
      (∀ d ∈ before, ∀ s, Eligible d s → s < sim) ∧ ∀ d ∈ after, ∀ s, Eligible d s → s ≤ sim

section

variable {pf : Platform K} {embedding : List K} {clusters : List (Known K)}
  {matchThreshold unknownThreshold : K}

theorem isEligible_iff {c : Known K} : isEligible pf embedding matchThreshold unknownThreshold c = true ↔
    ∃ sim, Eligible pf embedding matchThreshold unknownThreshold c sim := by
  unfold isEligible Eligible
  cases similarityTo pf embedding c with
  | error e => simp
  | ok sim => simp

/-- The similarity, where there is one. -/
def simOf (pf : Platform K) (embedding : List K) (c : Known K) : K :=
  (similarityTo pf embedding c).toOption.getD 0

theorem simOf_of_ok {c : Known K} {sim : K} (h : similarityTo pf embedding c = .ok sim) :
    simOf pf embedding c = sim := by
  rw [simOf, h]
  rfl

theorem Eligible.simOf {c : Known K} {sim : K}
    (h : Eligible pf embedding matchThreshold unknownThreshold c sim) : simOf pf embedding c = sim :=
  simOf_of_ok h.1

/-! ### The loop -/

theorem matchCluster_concat (c : Known K) :
    matchCluster pf embedding (clusters ++ [c]) matchThreshold unknownThreshold = (do
      let best ← matchCluster pf embedding clusters matchThreshold unknownThreshold
      matchStep pf embedding matchThreshold unknownThreshold best c) := by
  unfold matchCluster
  rw [List.foldlM_append]
  refine congrArg _ (funext fun best => ?_)
  rw [List.foldlM_cons]
  cases matchStep pf embedding matchThreshold unknownThreshold best c <;> rfl

theorem matchStep_of_ok {c : Known K} {sim : K} (h : similarityTo pf embedding c = .ok sim)
    (best : Option String × K) :
    matchStep pf embedding matchThreshold unknownThreshold best c = .ok
      (if (if c.isNamed then matchThreshold else unknownThreshold) ≤ sim ∧
          (best.1 = none ∨ best.2 < sim) then (some c.id, sim) else best) := by
  change (similarityTo pf embedding c >>= fun sim => _) = _
  rw [h, ok_bind]
  exact (apply_ite Except.ok _ _ _).symm

/-- The loop goes through exactly if every similarity can be computed. -/
theorem matchCluster_succeeds_iff :
    (∃ r, matchCluster pf embedding clusters matchThreshold unknownThreshold = .ok r) ↔
      ∀ c ∈ clusters, ∃ sim, similarityTo pf embedding c = .ok sim := by
  induction clusters using List.reverseRecOn with
  | nil => exact ⟨fun _ c hc => by simp at hc, fun _ => ⟨_, rfl⟩⟩
  | append_singleton clusters c ih =>
      have hstep : ∀ best, (∃ r, matchStep pf embedding matchThreshold unknownThreshold best c = .ok r) ↔
          ∃ sim, similarityTo pf embedding c = .ok sim := by
        intro best
        cases hsim : similarityTo pf embedding c with
        | error e =>
            change (∃ r, (similarityTo pf embedding c >>= fun sim => _) = _) ↔ _
            simp [hsim]
        | ok sim => exact ⟨fun _ => ⟨sim, rfl⟩, fun _ => ⟨_, matchStep_of_ok hsim best⟩⟩
      rw [matchCluster_concat, List.forall_mem_append, ← ih]
      constructor
      · rintro ⟨r, h⟩
        obtain ⟨best, hbest, h⟩ := bind_eq_ok.mp h
        refine ⟨⟨best, hbest⟩, fun d hd => ?_⟩
        rw [List.mem_singleton.mp hd]
        exact (hstep best).mp ⟨r, h⟩
      · rintro ⟨⟨best, hbest⟩, hc⟩
        rw [hbest]
        exact (hstep best).mpr (hc c (List.mem_singleton.mpr rfl))

/-- **The loop is an `argmax`** over the eligible clusters. -/
theorem matchCluster_eq (h : ∀ c ∈ clusters, ∃ sim, similarityTo pf embedding c = .ok sim) :
    matchCluster pf embedding clusters matchThreshold unknownThreshold = .ok
      (match (clusters.filter (isEligible pf embedding matchThreshold unknownThreshold)).argmax
          (simOf pf embedding) with
        | none => (none, matchThreshold)
        | some c => (some c.id, simOf pf embedding c)) := by
  induction clusters using List.reverseRecOn with
  | nil => rfl
  | append_singleton clusters c ih =>
      obtain ⟨hclusters, hc⟩ := List.forall_mem_append.mp h
      obtain ⟨sim, hsim⟩ := hc c (List.mem_singleton.mpr rfl)
      rw [matchCluster_concat, ih hclusters, ok_bind, List.filter_append, matchStep_of_ok hsim]
      have heligible : isEligible pf embedding matchThreshold unknownThreshold c =
          decide ((if c.isNamed then matchThreshold else unknownThreshold) ≤ sim) := by
        rw [isEligible, hsim]
      by_cases hthreshold : (if c.isNamed then matchThreshold else unknownThreshold) ≤ sim
      · rw [List.filter_singleton, heligible, decide_eq_true hthreshold, cond_true, List.argmax_concat,
          simOf_of_ok hsim]
        -- the first eligible cluster is taken, whatever the running best starts from
        cases List.argmax (simOf pf embedding)
            (clusters.filter (isEligible pf embedding matchThreshold unknownThreshold)) with
        | none => simp [hthreshold, simOf_of_ok hsim]
        | some d =>
            by_cases hless : simOf pf embedding d < sim
            · simp [hthreshold, hless, simOf_of_ok hsim]
            · simp [hthreshold, hless]
      · rw [List.filter_singleton, heligible, decide_eq_false hthreshold, cond_false, List.append_nil,
          if_neg fun h => hthreshold h.1]

/-- What the loop returns is the first best. -/
theorem matchCluster_bestEligible {r : Option String × K}
    (h : matchCluster pf embedding clusters matchThreshold unknownThreshold = .ok r) :
    BestEligible pf embedding clusters matchThreshold unknownThreshold r := by
  rw [matchCluster_eq (matchCluster_succeeds_iff.mp ⟨r, h⟩), Except.ok.injEq] at h
  subst h
  cases hbest : (clusters.filter (isEligible pf embedding matchThreshold unknownThreshold)).argmax
      (simOf pf embedding) with
  | none =>
      refine ⟨fun c hc s hs => ?_, rfl⟩
      exact List.filter_eq_nil_iff.mp (List.argmax_eq_none.mp hbest) c hc (isEligible_iff.mpr ⟨s, hs⟩)
  | some c =>
      obtain ⟨l₁, l₂, hsplit, hbefore, hafter⟩ := List.argmax_split hbest
      obtain ⟨before, rest, hclusters, hl₁, hrest⟩ := List.filter_eq_append_iff.mp hsplit
      obtain ⟨skipped, after, hrest, hskipped, hc, hl₂⟩ := List.filter_eq_cons_iff.mp hrest
      obtain ⟨s, hs⟩ := isEligible_iff.mp hc
      refine ⟨before ++ skipped, c, after, by rw [hclusters, hrest, List.append_assoc], rfl, ?_, ?_, ?_⟩
      · rw [hs.simOf]
        exact hs
      · intro d hd t ht
        rw [← ht.simOf]
        rcases List.mem_append.mp hd with hd | hd
        · exact hbefore d (hl₁ ▸ List.mem_filter.mpr ⟨hd, isEligible_iff.mpr ⟨t, ht⟩⟩)
        · exact absurd (isEligible_iff.mpr ⟨t, ht⟩) (hskipped d hd)
      · intro d hd t ht
        rw [← ht.simOf]
        exact hafter d (hl₂ ▸ List.mem_filter.mpr ⟨hd, isEligible_iff.mpr ⟨t, ht⟩⟩)

/-- The best similarity does not depend on the order. -/
theorem BestEligible.perm {clusters' : List (Known K)} {r r' : Option String × K}
    (h : BestEligible pf embedding clusters matchThreshold unknownThreshold r)
    (h' : BestEligible pf embedding clusters' matchThreshold unknownThreshold r')
    (hperm : clusters'.Perm clusters) : r'.2 = r.2 := by
  -- the best of one order is as good as any eligible cluster of the other
  have hle : ∀ {l l' : List (Known K)} {id id' : String} {s s' : K}, l'.Perm l →
      BestEligible pf embedding l matchThreshold unknownThreshold (some id, s) →
      BestEligible pf embedding l' matchThreshold unknownThreshold (some id', s') → s' ≤ s := by
    rintro l l' id id' s s' hperm ⟨before, c, after, rfl, -, hc, hbefore, hafter⟩
      ⟨before', c', after', rfl, -, hc', -, -⟩
    have hmem : c' ∈ before ++ c :: after := hperm.subset (by simp)
    rcases List.mem_append.mp hmem with hmem | hmem
    · exact (hbefore c' hmem s' hc').le
    · rcases List.mem_cons.mp hmem with rfl | hmem
      · exact (hc'.simOf.symm.trans hc.simOf).le
      · exact hafter c' hmem s' hc'
  -- none of one order is none of the other
  have hnone : ∀ {l l' : List (Known K)} {s s' : K} {id : String}, l'.Perm l →
      BestEligible pf embedding l matchThreshold unknownThreshold (none, s) →
      ¬ BestEligible pf embedding l' matchThreshold unknownThreshold (some id, s') := by
    rintro l l' s s' id hperm ⟨hno, -⟩ ⟨before, c, after, rfl, -, hc, -, -⟩
    exact hno c (hperm.subset (by simp)) s' hc
  obtain ⟨_ | id, s⟩ := r
  · obtain ⟨_ | id', s'⟩ := r'
    · exact h'.2.trans h.2.symm
    · exact (hnone hperm h h').elim
  · obtain ⟨_ | id', s'⟩ := r'
    · exact (hnone hperm.symm h' h).elim
    · exact le_antisymm (hle hperm h h') (hle hperm.symm h' h)

end

/-- **The best eligible cluster.** `match_cluster` raises only if a similarity
does; otherwise it returns the first of the most similar eligible clusters. The
similarity is the same for any order of the list, and clusters that are not
eligible might as well not be there. -/
theorem matchCluster_best (pf : Platform K) (embedding : List K) (clusters : List (Known K))
    (matchThreshold unknownThreshold : K) :
    ((∃ r, matchCluster pf embedding clusters matchThreshold unknownThreshold = .ok r) ↔
      ∀ c ∈ clusters, ∃ sim, similarityTo pf embedding c = .ok sim) ∧
    ∀ r, matchCluster pf embedding clusters matchThreshold unknownThreshold = .ok r →
      BestEligible pf embedding clusters matchThreshold unknownThreshold r ∧
      (∀ clusters', clusters'.Perm clusters → ∃ r',
        matchCluster pf embedding clusters' matchThreshold unknownThreshold = .ok r' ∧ r'.2 = r.2) ∧
      ∀ clusters' : List (Known K), (∀ c ∈ clusters', ∃ sim, similarityTo pf embedding c = .ok sim) →
        clusters'.filter (isEligible pf embedding matchThreshold unknownThreshold) =
          clusters.filter (isEligible pf embedding matchThreshold unknownThreshold) →
        matchCluster pf embedding clusters' matchThreshold unknownThreshold = .ok r := by
  refine ⟨matchCluster_succeeds_iff, fun r hr => ?_⟩
  have hsims := matchCluster_succeeds_iff.mp ⟨r, hr⟩
  refine ⟨matchCluster_bestEligible hr, fun clusters' hperm => ?_, fun clusters' hsims' heq => ?_⟩
  · obtain ⟨r', hr'⟩ := (@matchCluster_succeeds_iff K _ pf embedding clusters' matchThreshold
      unknownThreshold).mpr fun c hc => hsims c (hperm.subset hc)
    exact ⟨r', hr', (matchCluster_bestEligible hr).perm (matchCluster_bestEligible hr') hperm⟩
  · rw [matchCluster_eq hsims', heq, ← matchCluster_eq hsims, hr]

end FacesService
