import FacesService.Matcher.Best
import Mathlib.Algebra.Order.Field.Basic
import Mathlib.Tactic.FieldSimp
import Mathlib.Tactic.Positivity

/-!
The suggestion index against the plain loop. One path divides every row by its
norm once and takes the `argmax` of a matrix product, the other divides each
product by both norms and compares with the floor first; on real numbers these
are the same similarities, and a floor applied before or after an `argmax` leaves
the same cluster. A centroid of norm zero is left undivided on the one path and
answered with zero on the other, which is again the same; a query of norm zero
is similar to nothing.
-/

namespace FacesService

open Fallible

variable {K : Type} [Field K] [LinearOrder K]

/-- Real arithmetic: no rounding to float32, and only zero has the root zero. -/
structure Platform.Real (pf : Platform K) : Prop where
  single : pf.single = id
  eq_zero_of_sqrt : ∀ x, 0 ≤ x → pf.sqrt x = 0 → x = 0

/-! ### Products -/

section Dot

variable {a b : List K}

theorem dot_comm (a b : List K) : dot a b = dot b a := by
  rw [dot, dot, List.zipWith_comm_of_comm mul_comm]

theorem dot_cons (x y : K) (a b : List K) : dot (x :: a) (y :: b) = x * y + dot a b := by
  simp [dot]

theorem dot_div_div (x y : K) (a b : List K) :
    dot (a.map (· / x)) (b.map (· / y)) = dot a b / (x * y) := by
  induction a generalizing b with
  | nil => simp [dot]
  | cons u a ih =>
      cases b with
      | nil => simp [dot]
      | cons v b =>
          rw [List.map_cons, List.map_cons, dot_cons, dot_cons, ih, add_div, div_mul_div_comm]

theorem dot_of_zero (h : ∀ x ∈ a, x = 0) (b : List K) : dot a b = 0 := by
  induction a generalizing b with
  | nil => simp [dot]
  | cons u a ih =>
      obtain ⟨hu, ha⟩ := List.forall_mem_cons.mp h
      cases b with
      | nil => simp [dot]
      | cons v b => rw [dot_cons, hu, ih ha, zero_mul, zero_add]

variable [IsStrictOrderedRing K]

theorem dot_self_nonneg (a : List K) : 0 ≤ dot a a := by
  induction a with
  | nil => simp [dot]
  | cons u a ih =>
      rw [dot_cons]
      exact add_nonneg (mul_self_nonneg u) ih

theorem eq_zero_of_dot_self (h : dot a a = 0) : ∀ x ∈ a, x = 0 := by
  induction a with
  | nil => simp
  | cons u a ih =>
      rw [dot_cons] at h
      have hu : u * u = 0 := by
        have := mul_self_nonneg u
        have := dot_self_nonneg a
        linarith
      have ha : dot a a = 0 := by rwa [hu, zero_add] at h
      exact List.forall_mem_cons.mpr ⟨mul_self_eq_zero.mp hu, ih ha⟩

theorem Platform.Real.eq_zero_of_norm {pf : Platform K} (h : pf.Real) (hnorm : norm pf a = 0) :
    ∀ x ∈ a, x = 0 :=
  eq_zero_of_dot_self (h.eq_zero_of_sqrt _ (dot_self_nonneg a) hnorm)

end Dot

/-! ### One cluster -/

section Rows

variable {pf : Platform K} {embedding : List K}

theorem Platform.Real.asFloat32 (h : pf.Real) (a : List K) : asFloat32 pf a = a := by
  rw [FacesService.asFloat32, h.single, List.map_id]

/-- A query of norm zero is similar to nothing. -/
theorem similarityTo_of_norm (hquery : norm pf embedding = 0) (c : Known K) :
    similarityTo pf embedding c = .ok 0 := by
  simp [similarityTo, cosineSimilarity, hquery]

variable [IsStrictOrderedRing K]

/-- A row of the index gives the similarity the loop computes. -/
theorem similarityTo_row (hreal : pf.Real) (hquery : norm pf embedding ≠ 0) {c : Cluster K}
    (hlength : c.centroid.length = embedding.length) :
    similarityTo pf embedding (.ofRow c) = .ok
      (dot (unitRow pf (asFloat32 pf c.centroid)) (embedding.map (· / norm pf embedding))) := by
  have hrow : asFloat32 pf c.centroid = c.centroid := hreal.asFloat32 _
  unfold similarityTo cosineSimilarity unitRow
  simp only [Known.ofRow, hrow]
  by_cases hnorm : norm pf c.centroid = 0
  · rw [if_pos (by rw [hnorm, mul_zero]), if_pos hnorm, dot_of_zero]
    intro x hx
    obtain ⟨y, hy, rfl⟩ := List.mem_map.mp hx
    rw [hreal.eq_zero_of_norm hnorm y hy, zero_div]
  · rw [if_neg (mul_ne_zero hquery hnorm), if_neg (by simp [hlength]), if_neg hnorm, dot_div_div,
      dot_comm c.centroid, mul_comm (norm pf c.centroid)]

end Rows

/-! ### The two matchers -/

section Matchers

variable [IsStrictOrderedRing K] {pf : Platform K} {embedding : List K} {clusters : List (Cluster K)}
  {floor : K}

omit [IsStrictOrderedRing K] in
/-- One threshold for both kinds: a cluster is eligible if its similarity reaches it. -/
theorem isEligible_floor {c : Known K} {sim : K} (h : similarityTo pf embedding c = .ok sim) :
    isEligible pf embedding floor floor c = decide (floor ≤ simOf pf embedding c) := by
  rw [isEligible, h, simOf_of_ok h, ite_self]

omit [IsStrictOrderedRing K] in
/-- The loop with one threshold: the best of all, if it reaches the floor. -/
theorem matchCluster_floor
    (h : ∀ c ∈ clusters, ∃ sim, similarityTo pf embedding (.ofRow c) = .ok sim) :
    matchCluster pf embedding (clusters.map .ofRow) floor floor = .ok
      (match clusters.argmax fun c => simOf pf embedding (.ofRow c) with
        | none => (none, floor)
        | some c => if floor ≤ simOf pf embedding (.ofRow c) then
            (some c.id.text, simOf pf embedding (.ofRow c)) else (none, floor)) := by
  have hsims : ∀ c ∈ clusters.map Known.ofRow, ∃ sim, similarityTo pf embedding c = .ok sim := by
    intro c hc
    obtain ⟨row, hrow, rfl⟩ := List.mem_map.mp hc
    exact h row hrow
  have hfilter : (clusters.map Known.ofRow).filter (isEligible pf embedding floor floor) =
      (clusters.map Known.ofRow).filter fun c => floor ≤ simOf pf embedding c := by
    refine List.filter_congr fun c hc => ?_
    obtain ⟨sim, hsim⟩ := hsims c hc
    exact isEligible_floor hsim
  rw [matchCluster_eq hsims, hfilter, List.argmax_filter_le, List.argmax_map]
  cases clusters.argmax fun c => simOf pf embedding (.ofRow c) with
  | none => rfl
  | some c =>
      rw [Option.map_some, Option.filter_some]
      by_cases hfloor : floor ≤ simOf pf embedding (.ofRow c)
      · simp only [decide_eq_true_eq, hfloor, if_true]
        rfl
      · simp only [decide_eq_true_eq, hfloor, if_false]

/-- The index with a query that has a norm: again the best of all, if it reaches the floor. -/
theorem bestMatch_floor (hreal : pf.Real) (hquery : norm pf embedding ≠ 0)
    (hlength : ∀ c ∈ clusters, c.centroid.length = embedding.length) :
    bestMatch pf (clusters.map fun c => (unitRow pf (asFloat32 pf c.centroid), c)) embedding floor = .ok
      (match clusters.argmax fun c => simOf pf embedding (.ofRow c) with
        | none => (none, 0)
        | some c => if floor ≤ simOf pf embedding (.ofRow c) then
            (some c, simOf pf embedding (.ofRow c)) else (none, simOf pf embedding (.ofRow c))) := by
  have hargmax : (clusters.map fun c => (unitRow pf (asFloat32 pf c.centroid), c)).argmax
      (fun row => dot row.1 (embedding.map (· / norm pf embedding))) =
      (clusters.argmax fun c => simOf pf embedding (.ofRow c)).map
        fun c => (unitRow pf (asFloat32 pf c.centroid), c) := by
    rw [List.argmax_map]
    congr 1
    refine List.argmax_congr fun c hc => ?_
    exact (simOf_of_ok (similarityTo_row hreal hquery (hlength c hc))).symm
  unfold bestMatch
  rw [hreal.asFloat32]
  cases hbest : clusters.argmax fun c => simOf pf embedding (.ofRow c) with
  | none =>
      rw [List.argmax_eq_none.mp hbest]
      rfl
  | some c =>
      have hc : c ∈ clusters := List.argmax_mem hbest
      have hnonempty : clusters.map (fun c => (unitRow pf (asFloat32 pf c.centroid), c)) ≠ [] := by
        rw [Ne, List.map_eq_nil_iff]
        exact List.ne_nil_of_mem hc
      have hrows : ¬ ((clusters.map fun c => (unitRow pf (asFloat32 pf c.centroid), c)).any
          fun row => row.1.length ≠ embedding.length) = true := by
        simp only [List.any_map, List.any_eq_true, Function.comp, decide_eq_true_eq, not_exists, not_and,
          not_not]
        intro c hc
        rw [unitRow, List.length_map, asFloat32, List.length_map]
        exact hlength c hc
      rw [if_neg hnonempty, if_neg hquery, if_neg hrows]
      dsimp only
      rw [hargmax, hbest, Option.map_some]
      have hsim := simOf_of_ok (similarityTo_row hreal hquery (hlength c hc))
      simp only [hsim]
      by_cases hfloor : floor ≤ dot (unitRow pf (asFloat32 pf c.centroid))
          (embedding.map (· / norm pf embedding))
      · rw [if_neg (not_lt.mpr hfloor), if_pos hfloor]
      · rw [if_pos (not_le.mp hfloor), if_neg hfloor]

/-- **The indexed matcher agrees with the plain one**: over the clusters that
have a centroid both find the same cluster, the first of the most similar, with
the same similarity, or neither finds one. -/
theorem bestMatch_agrees (hreal : pf.Real)
    (hlength : ∀ c ∈ clusters, c.centroid = [] ∨ c.centroid.length = embedding.length)
    (hfloor : 0 < floor) :
    ∃ index found sim id sim', buildSuggestionIndex pf clusters = .ok index ∧
      bestMatch pf index embedding floor = .ok (found, sim) ∧
      matchCluster pf embedding ((withCentroid clusters).map .ofRow) floor floor = .ok (id, sim') ∧
      id = found.map (·.id.text) ∧
      match found with
      | none => sim < floor ∧ sim' = floor
      | some c => sim = sim' ∧ ∃ before after, withCentroid clusters = before ++ c :: after ∧
          (∀ d ∈ before, simOf pf embedding (.ofRow d) < sim) ∧
          ∀ d ∈ after, simOf pf embedding (.ofRow d) ≤ sim := by
  have hrows : ∀ c ∈ withCentroid clusters, c.centroid.length = embedding.length := by
    intro c hc
    obtain ⟨hmem, hne⟩ := List.mem_filter.mp hc
    exact (hlength c hmem).resolve_left (by simpa using hne)
  have hindex : buildSuggestionIndex pf clusters = .ok
      ((withCentroid clusters).map fun c => (unitRow pf (asFloat32 pf c.centroid), c)) :=
    if_pos fun c hc d hd => (hrows c hc).trans (hrows d hd).symm
  by_cases hquery : norm pf embedding = 0
  · -- no similarity is above zero, and the floor is
    have hnone : matchCluster pf embedding ((withCentroid clusters).map .ofRow) floor floor =
        .ok (none, floor) := by
      rw [matchCluster_floor fun c _ => ⟨0, similarityTo_of_norm hquery _⟩]
      cases List.argmax (fun c => simOf pf embedding (.ofRow c)) (withCentroid clusters) with
      | none => rfl
      | some c =>
          have hzero : ¬ floor ≤ simOf pf embedding (.ofRow c) := by
            rw [simOf_of_ok (similarityTo_of_norm hquery _)]
            exact not_le.mpr hfloor
          simp only [if_neg hzero]
    refine ⟨_, none, 0, none, floor, hindex, ?_, hnone, rfl, hfloor, rfl⟩
    unfold bestMatch
    rw [hreal.asFloat32, if_pos hquery, ite_self]
  · have hbest := @bestMatch_floor K _ _ _ _ _ _ floor hreal hquery hrows
    have hmatch := @matchCluster_floor K _ _ pf embedding _ floor fun c hc =>
      ⟨_, similarityTo_row hreal hquery (hrows c hc)⟩
    cases hargmax : List.argmax (fun c => simOf pf embedding (.ofRow c)) (withCentroid clusters) with
    | none =>
        rw [hargmax] at hbest hmatch
        exact ⟨_, none, 0, none, floor, hindex, hbest, hmatch, rfl, hfloor, rfl⟩
    | some c =>
        rw [hargmax] at hbest hmatch
        dsimp only at hbest hmatch
        by_cases hsim : floor ≤ simOf pf embedding (.ofRow c)
        · rw [if_pos hsim] at hbest hmatch
          exact ⟨_, some c, _, _, _, hindex, hbest, hmatch, rfl, rfl, List.argmax_split hargmax⟩
        · rw [if_neg hsim] at hbest hmatch
          exact ⟨_, none, _, none, floor, hindex, hbest, hmatch, rfl, not_le.mp hsim, rfl⟩

end Matchers

theorem Platform.exact_real : Platform.exact.Real where
  single := rfl
  eq_zero_of_sqrt x hx h := by
    have hroot : Rat.sqrt x = 0 := h
    rw [Rat.sqrt, Rat.mkRat_eq_zero (Nat.sqrt_pos.mpr x.den_pos).ne', Int.sqrt, Int.natCast_eq_zero,
      Nat.sqrt_eq_zero] at hroot
    have hnum : x.num ≤ 0 := Int.toNat_eq_zero.mp hroot
    exact le_antisymm (Rat.num_nonpos.mp hnum) hx

/-- Two clusters are as similar as can be; both matchers find the first. -/
theorem bestMatch_agrees_tie :
    let clusters := [Cluster.anonymous (Uuid.fill 1) (Uuid.fill 9) [] 0,
      Cluster.anonymous (Uuid.fill 2) (Uuid.fill 9) [0, 2] 1,
      Cluster.anonymous (Uuid.fill 3) (Uuid.fill 9) [0, 1] 1]
    ∃ index found sim id sim', buildSuggestionIndex Platform.exact clusters = .ok index ∧
      bestMatch Platform.exact index [0, 1] (1 / 2) = .ok (found, sim) ∧
      matchCluster Platform.exact [0, 1] ((withCentroid clusters).map .ofRow) (1 / 2) (1 / 2) =
        .ok (id, sim') ∧ id = found.map (·.id.text) := by
  obtain ⟨index, found, sim, id, sim', hindex, hbest, hmatch, hid, -⟩ :=
    @bestMatch_agrees ℚ _ _ _ Platform.exact [0, 1]
      [Cluster.anonymous (Uuid.fill 1) (Uuid.fill 9) [] 0,
        Cluster.anonymous (Uuid.fill 2) (Uuid.fill 9) [0, 2] 1,
        Cluster.anonymous (Uuid.fill 3) (Uuid.fill 9) [0, 1] 1]
      (1 / 2) Platform.exact_real (by simp [Cluster.anonymous]) (by norm_num)
  exact ⟨index, found, sim, id, sim', hindex, hbest, hmatch, hid⟩

end FacesService
