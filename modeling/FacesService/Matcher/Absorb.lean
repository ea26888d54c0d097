import FacesService.Matcher.Index
import FacesService.Model.Infer
import Mathlib.Algebra.Order.BigOperators.Ring.Finset
import Mathlib.Analysis.Real.Sqrt
import Mathlib.Tactic.LinearCombination

/-!
A face and the cluster that took it in. The running mean moves the centroid
towards the embedding, so the angle between the two does not grow. That is an
inequality between three lengths and a product; the vectors come in only
through Cauchy and Schwarz, and where a vector is zero `cosine_similarity` has
been told to answer zero.
-/

namespace FacesService

open Fallible

variable {K : Type} [Field K] [LinearOrder K]

/-- Real arithmetic with square roots: no rounding, and a root is a root. -/
structure Platform.Rooted (pf : Platform K) : Prop where
  single : pf.single = id
  sqrt_nonneg : ∀ x, 0 ≤ pf.sqrt x
  sqrt_mul_self : ∀ x, 0 ≤ x → pf.sqrt x * pf.sqrt x = x

/-! ### Products of vectors -/

section Products

variable {a b c : List K}

theorem dot_map_mul (x : K) (a b : List K) : dot a (b.map (· * x)) = dot a b * x := by
  induction a generalizing b with
  | nil => simp [dot]
  | cons u a ih =>
      cases b with
      | nil => simp [dot]
      | cons v b => rw [List.map_cons, dot_cons, dot_cons, ih, add_mul, mul_assoc]

theorem dot_map_div (x : K) (a b : List K) : dot a (b.map (· / x)) = dot a b / x := by
  simp only [div_eq_mul_inv, dot_map_mul]

theorem dot_add (a : List K) (h : b.length = c.length) :
    dot a (List.zipWith (· + ·) b c) = dot a b + dot a c := by
  induction a generalizing b c with
  | nil => simp [dot]
  | cons u a ih =>
      cases b with
      | nil =>
          cases c with
          | nil => simp [dot]
          | cons w c => cases h
      | cons v b =>
          cases c with
          | nil => cases h
          | cons w c =>
              rw [List.zipWith_cons_cons, dot_cons, dot_cons, dot_cons, ih (Nat.succ.inj h)]
              ring

theorem dot_eq_sum (h : a.length = b.length) :
    dot a b = ∑ i ∈ Finset.range a.length, a.getD i 0 * b.getD i 0 := by
  induction a generalizing b with
  | nil => simp [dot]
  | cons u a ih =>
      cases b with
      | nil => cases h
      | cons v b =>
          rw [dot_cons, List.length_cons, Finset.sum_range_succ', ih (Nat.succ.inj h), add_comm]
          rfl

variable [IsStrictOrderedRing K]

/-- The inequality of Cauchy and Schwarz. -/
theorem dot_mul_self_le (h : a.length = b.length) : dot a b * dot a b ≤ dot a a * dot b b := by
  have hcs := Finset.sum_mul_sq_le_sq_mul_sq (Finset.range a.length) (a.getD · 0) (b.getD · 0)
  rw [dot_eq_sum h, dot_eq_sum (rfl : a.length = a.length), dot_eq_sum (rfl : b.length = b.length),
    ← h]
  simpa only [sq] using hcs

end Products

/-! ### The angle -/

section Angle

variable [IsStrictOrderedRing K]

/-- `E`, `C` and `V` are the lengths of `e`, `c` and `n * c + e`, and `p` is the
product of `e` and `c`. -/
theorem mul_length_le {n p E C V : K} (hn : 0 ≤ n) (hE : 0 ≤ E) (hC : 0 ≤ C) (hV : 0 ≤ V)
    (hlength : V * V = n * n * (C * C) + 2 * n * p + E * E) (hcs : p * p ≤ E * E * (C * C)) :
    p * V ≤ (n * p + E * E) * C := by
  have hp : p ≤ E * C := by
    by_contra hlt
    have hlt' : E * C < p := not_le.mp hlt
    have hsq : (E * C) * (E * C) < p * p := mul_self_lt_mul_self (mul_nonneg hE hC) hlt'
    have hprod : (E * C) * (E * C) = E * E * (C * C) := by ring
    linarith
  by_cases hsign : 0 ≤ p
  · -- the triangle inequality
    have hroot : V ≤ n * C + E := by
      rw [mul_self_le_mul_self_iff hV (add_nonneg (mul_nonneg hn hC) hE), hlength]
      have hcross : 2 * n * p ≤ 2 * n * (E * C) := mul_le_mul_of_nonneg_left hp (by linarith)
      linear_combination hcross
    calc p * V ≤ p * (n * C + E) := mul_le_mul_of_nonneg_left hroot hsign
      _ = n * p * C + p * E := by ring
      _ ≤ n * p * C + E * C * E := by
          have hle : p * E ≤ E * C * E := mul_le_mul_of_nonneg_right hp hE
          linarith
      _ = (n * p + E * E) * C := by ring
  · have hneg : p < 0 := not_le.mp hsign
    by_cases hsum : 0 ≤ n * p + E * E
    · exact (mul_nonpos_of_nonpos_of_nonneg hneg.le hV).trans (mul_nonneg hsum hC)
    · -- both sides are negative, so their squares compare the other way round
      have hsum' : n * p + E * E < 0 := not_le.mp hsum
      have hfirst : p * p - E * E * (C * C) ≤ 0 := by linarith
      have hsecond : 2 * (n * p) + E * E ≤ 0 := by
        have hnp : n * p ≤ 0 := mul_nonpos_of_nonneg_of_nonpos hn hneg.le
        linarith
      have hdiff : 0 ≤ (p * p - E * E * (C * C)) * (2 * (n * p) + E * E) :=
        mul_nonneg_of_nonpos_of_nonpos hfirst hsecond
      have hsquares : (-(n * p + E * E) * C) * (-(n * p + E * E) * C) ≤ (-p * V) * (-p * V) := by
        have hV2 : (-p * V) * (-p * V) = p * p * (V * V) := by ring
        rw [hV2, hlength]
        linear_combination hdiff
      have hle : -(n * p + E * E) * C ≤ -p * V :=
        (mul_self_le_mul_self_iff (mul_nonneg (by linarith) hC) (mul_nonneg (by linarith) hV)).mpr
          hsquares
      linarith

/-- With a length of zero the quotients are zero, as the similarity is. -/
theorem quotient_le {n p E C V : K} (hn : 0 ≤ n) (hE : 0 < E) (hC : 0 ≤ C) (hV : 0 ≤ V)
    (hlength : V * V = n * n * (C * C) + 2 * n * p + E * E) (hcs : p * p ≤ E * E * (C * C)) :
    p / (E * C) ≤ (n * p + E * E) / (E * V) := by
  rcases hC.eq_or_lt with rfl | hC'
  · have hp : p = 0 := by
      rw [mul_zero, mul_zero] at hcs
      exact mul_self_eq_zero.mp (le_antisymm hcs (mul_self_nonneg p))
    rw [hp, mul_zero, div_zero, mul_zero, zero_add]
    exact div_nonneg (mul_nonneg hE.le hE.le) (mul_nonneg hE.le hV)
  · rcases hV.eq_or_lt with rfl | hV'
    · -- the mean is zero, so the vectors point away from each other
      have hp : p ≤ 0 := by
        by_contra hpos
        have hcross : 0 ≤ n * p := mul_nonneg hn (not_le.mp hpos).le
        have hC2 : 0 ≤ n * n * (C * C) := mul_nonneg (mul_self_nonneg n) (mul_self_nonneg C)
        have hE2 : 0 < E * E := mul_pos hE hE
        linarith
      rw [mul_zero, div_zero]
      exact div_nonpos_of_nonpos_of_nonneg hp (mul_nonneg hE.le hC)
    · rw [div_le_div_iff₀ (mul_pos hE hC') (mul_pos hE hV')]
      calc p * (E * V) = E * (p * V) := by ring
        _ ≤ E * ((n * p + E * E) * C) :=
          mul_le_mul_of_nonneg_left (mul_length_le hn hE.le hC hV hlength hcs) hE.le
        _ = (n * p + E * E) * (E * C) := by ring

end Angle

/-! ### Norms -/

section Norms

variable {pf : Platform K} {a b : List K}

theorem Platform.Rooted.real (h : pf.Rooted) : pf.Real where
  single := h.single
  eq_zero_of_sqrt x hx hroot := by rw [← h.sqrt_mul_self x hx, hroot, mul_zero]

theorem Platform.Rooted.norm_nonneg (h : pf.Rooted) (a : List K) : 0 ≤ norm pf a := h.sqrt_nonneg _

theorem Platform.Rooted.norm_mul_self [IsStrictOrderedRing K] (h : pf.Rooted) (a : List K) : norm pf a * norm pf a = dot a a :=
  h.sqrt_mul_self _ (dot_self_nonneg a)

theorem Platform.Rooted.dot_mul_self_le_norms [IsStrictOrderedRing K] (h : pf.Rooted)
    (hlength : a.length = b.length) :
    dot a b * dot a b ≤ norm pf a * norm pf a * (norm pf b * norm pf b) := by
  rw [h.norm_mul_self, h.norm_mul_self]
  exact dot_mul_self_le hlength

/-- A quotient by zero is zero, which is what the function answers there. -/
theorem cosineSimilarity_eq (h : a.length = b.length) :
    cosineSimilarity pf a b = .ok (dot a b / (norm pf a * norm pf b)) := by
  unfold cosineSimilarity
  by_cases hnorm : norm pf a * norm pf b = 0
  · rw [if_pos hnorm, hnorm, div_zero]
  · rw [if_neg hnorm, if_neg (not_not.mpr h)]

end Norms

/-! ### The running mean -/

/-- `merge_centroid` for any `int`; the counts of the service are natural numbers. -/
def mergeCentroidAt (pf : Platform K) (existing : List K) (count : ℤ) (new : List K) :
    Except PyError (List K) :=
  if count ≤ 0 then .ok (asFloat32 pf new)
  else do
    let sum ← addArrays (existing.map (· * (count : K))) new
    .ok (sum.map (· / ((count + 1 : ℤ) : K)))

theorem mergeCentroidAt_natCast (pf : Platform K) (existing : List K) (count : ℕ) (new : List K) :
    mergeCentroidAt pf existing count new = mergeCentroid pf existing count new := by
  unfold mergeCentroidAt mergeCentroid
  by_cases hcount : count = 0
  · subst hcount
    rfl
  · rw [if_neg hcount, if_neg (by omega)]
    norm_cast

section Merge

variable [IsStrictOrderedRing K] {pf : Platform K} {e c m : List K}

omit [IsStrictOrderedRing K] in
theorem addArrays_of_length {a b : List K} (h : a.length = b.length) :
    addArrays a b = .ok (List.zipWith (· + ·) a b) := if_pos h

/-- The mean of `n` times `c` and once `e`. -/
theorem cosine_mean (hreal : pf.Rooted) (hdim : c.length = e.length) {n : K} (hn : 0 ≤ n) :
    dot e c / (norm pf e * norm pf c) ≤
      dot e ((List.zipWith (· + ·) (c.map (· * n)) e).map (· / (n + 1))) /
        (norm pf e * norm pf ((List.zipWith (· + ·) (c.map (· * n)) e).map (· / (n + 1)))) := by
  have hsum : (c.map (· * n)).length = e.length := by rw [List.length_map, hdim]
  have hdot : ∀ u, dot u (List.zipWith (· + ·) (c.map (· * n)) e) = dot u c * n + dot u e := by
    intro u
    rw [dot_add u hsum, dot_map_mul]
  generalize List.zipWith (· + ·) (c.map (· * n)) e = v at hdot
  have hpos : 0 < n + 1 := by linarith
  have hev : dot e v = n * dot e c + norm pf e * norm pf e := by
    rw [hdot, hreal.norm_mul_self, mul_comm]
  have hmean : norm pf (v.map (· / (n + 1))) * norm pf (v.map (· / (n + 1))) * ((n + 1) * (n + 1)) =
      dot v v := by
    rw [hreal.norm_mul_self, dot_div_div, div_mul_cancel₀ _ (mul_pos hpos hpos).ne']
  have hlength : (norm pf (v.map (· / (n + 1))) * (n + 1)) * (norm pf (v.map (· / (n + 1))) * (n + 1)) =
      n * n * (norm pf c * norm pf c) + 2 * n * dot e c + norm pf e * norm pf e := by
    rw [mul_mul_mul_comm, hmean, hdot v, dot_comm v c, hdot c, dot_comm v e, hdot e, dot_comm c e,
      hreal.norm_mul_self c, hreal.norm_mul_self e]
    ring
  have hquotient : dot e (v.map (· / (n + 1))) / (norm pf e * norm pf (v.map (· / (n + 1)))) =
      (n * dot e c + norm pf e * norm pf e) /
        (norm pf e * (norm pf (v.map (· / (n + 1))) * (n + 1))) := by
    rw [dot_map_div, hev, div_div, mul_comm (n + 1), mul_assoc]
  rw [hquotient]
  rcases (hreal.norm_nonneg e).eq_or_lt with hzero | hE
  · rw [← hzero]
    simp only [zero_mul, div_zero, le_refl]
  · refine quotient_le hn hE (hreal.norm_nonneg c) ?_ hlength ?_
    · exact mul_nonneg (hreal.norm_nonneg _) hpos.le
    · exact hreal.dot_mul_self_le_norms hdim.symm

/-- A face never gets less similar to the cluster that takes it in. -/
theorem similarity_mergeCentroid (hreal : pf.Rooted) (hdim : c.length = e.length) (count : ℤ) :
    ∃ m before after, mergeCentroidAt pf c count e = .ok m ∧ cosineSimilarity pf e c = .ok before ∧
      cosineSimilarity pf e m = .ok after ∧ before ≤ after := by
  unfold mergeCentroidAt
  by_cases hcount : count ≤ 0
  · rw [if_pos hcount, hreal.real.asFloat32]
    refine ⟨e, _, _, rfl, cosineSimilarity_eq hdim.symm, cosineSimilarity_eq rfl, ?_⟩
    -- the new centroid is the mean of no `c` and once `e`
    rcases (hreal.norm_nonneg e).eq_or_lt with hzero | hE
    · rw [← hzero]
      simp only [zero_mul, div_zero, le_refl]
    · have hle := quotient_le (le_refl 0) hE (hreal.norm_nonneg c) hE.le (by ring)
        (hreal.dot_mul_self_le_norms hdim.symm)
      rw [zero_mul, zero_add, hreal.norm_mul_self e] at hle
      rw [hreal.norm_mul_self e]
      exact hle
  · rw [if_neg hcount, addArrays_of_length (by rw [List.length_map, hdim]), ok_bind]
    have hlength : e.length = ((List.zipWith (· + ·) (c.map (· * (count : K))) e).map
        (· / ((count + 1 : ℤ) : K))).length := by
      simp [hdim]
    refine ⟨_, _, _, rfl, cosineSimilarity_eq hdim.symm, cosineSimilarity_eq hlength, ?_⟩
    rw [Int.cast_add, Int.cast_one]
    exact cosine_mean hreal hdim (by exact_mod_cast (not_le.mp hcount).le)

omit [IsStrictOrderedRing K] in
theorem absorb_eq {k : Known K} {m : List K} (hreal : pf.Rooted)
    (h : mergeCentroidAt pf k.centroid k.sampleCount e = .ok m) :
    absorb pf k e = .ok { k with centroid := m, sampleCount := k.sampleCount + 1 } := by
  rw [mergeCentroidAt_natCast] at h
  rw [absorb, hreal.real.asFloat32, h, ok_bind]

/-- **Absorbing a face never weakens its own match**, so the cluster a face was
matched with still meets its threshold for that face when it has taken it in. -/
theorem absorbed_face_matches (hreal : pf.Rooted) (e : List K) :
    (∀ (c : List K) (count : ℤ), c.length = e.length →
      ∃ m before after, mergeCentroidAt pf c count e = .ok m ∧ cosineSimilarity pf e c = .ok before ∧
        cosineSimilarity pf e m = .ok after ∧ before ≤ after) ∧
    ∀ (clusters : List (Known K)) (matchThreshold unknownThreshold : K) (id : String) (sim : K),
      (clusters.map (·.id)).Nodup →
      matchCluster pf e clusters matchThreshold unknownThreshold = .ok (some id, sim) →
      ∀ k ∈ clusters, k.id = id → k.centroid.length = e.length →
        ∃ k' sim', absorb pf k e = .ok k' ∧ k'.id = id ∧
          Eligible pf e matchThreshold unknownThreshold k' sim' ∧ sim ≤ sim' := by
  refine ⟨fun c count hdim => similarity_mergeCentroid hreal hdim count, ?_⟩
  intro clusters matchThreshold unknownThreshold id sim hids hmatch k hk hid hdim
  obtain ⟨before, k₀, after, rfl, hid₀, ⟨hsim, hthreshold⟩, -⟩ := matchCluster_bestEligible hmatch
  have hsame : k = k₀ := List.inj_on_of_nodup_map hids hk
    (List.mem_append_right _ List.mem_cons_self) (hid.trans hid₀.symm)
  subst hsame
  obtain ⟨m, s, s', hmerge, hs, hs', hle⟩ := similarity_mergeCentroid hreal hdim k.sampleCount
  rw [similarityTo, hreal.real.asFloat32, hs, Except.ok.injEq] at hsim
  subst hsim
  refine ⟨_, s', absorb_eq hreal hmerge, hid, ⟨?_, hthreshold.trans hle⟩, hle⟩
  rw [similarityTo, hreal.real.asFloat32, hs']

end Merge

/-- The nearest integer, of two the even one. -/
noncomputable def nearestEven (x : ℝ) : ℤ := if x - ⌊x⌋ = 1 / 2 ∧ Even ⌊x⌋ then ⌊x⌋ else ⌊x + 1 / 2⌋

/-- The real numbers, rows in table order. -/
noncomputable def Platform.reals : Platform ℝ where
  nudge t := t + 1 / 10000
  fmt := id
  single := id
  sqrt := Real.sqrt
  trunc x := if 0 ≤ x then ⌊x⌋ else ⌈x⌉
  round := nearestEven
  round4 x := nearestEven (x * 10000) / 10000
  parseFloat s := s.toInt?.map fun n => (n : ℝ)
  lower := String.toLower
  foldCase := Char.toLower
  collate a b := a ≤ b
  scan _ rows := rows
  scan_perm _ _ := .refl _

theorem Platform.reals_rooted : Platform.reals.Rooted where
  single := rfl
  sqrt_nonneg := Real.sqrt_nonneg
  sqrt_mul_self _ hx := Real.mul_self_sqrt hx

/-- A cluster with its centroid at a right angle to the face. -/
def square : Known ℝ := ⟨"square", false, [0, 1], 1⟩

/-- At the threshold zero the face still matches it, and the match does not get worse. -/
theorem absorbed_face_matches_square :
    (∃ m before after, mergeCentroidAt Platform.reals [0, 1] 1 [1, 0] = .ok m ∧
      cosineSimilarity Platform.reals [1, 0] [0, 1] = .ok before ∧
      cosineSimilarity Platform.reals [1, 0] m = .ok after ∧ before ≤ after) ∧
    ∃ k' sim', absorb Platform.reals square [1, 0] = .ok k' ∧ k'.id = "square" ∧
      Eligible Platform.reals [1, 0] 0 0 k' sim' ∧ 0 ≤ sim' := by
  obtain ⟨hmerged, habsorbed⟩ := absorbed_face_matches Platform.reals_rooted [1, 0]
  have hmatch : matchCluster Platform.reals [1, 0] [square] 0 0 = .ok (some "square", 0) := by
    simp [matchCluster, matchStep, cosineSimilarity, norm, dot, asFloat32, square, Platform.reals]
  exact ⟨hmerged [0, 1] 1 rfl, habsorbed [square] 0 0 "square" 0 (List.nodup_singleton _) hmatch square
    (List.mem_singleton_self _) rfl rfl⟩

end FacesService
