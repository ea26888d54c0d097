import FacesService.Model.Infer
import Mathlib.Algebra.Order.Floor.Div
import Mathlib.Data.List.Range
import Mathlib.Data.Rat.Floor
import Mathlib.Tactic.NormNum
import Mathlib.Tactic.Linarith
import Mathlib.Tactic.Ring

/-!
Which frames of a recording a run reads. The stride is a ceiling and the number
of frames is a ceiling over it; how the two behave together is a fact about
`⌈/⌉`, and what `frame_indices` promises follows from it.
-/

namespace FacesService

/-! ### A ceiling over a ceiling -/

section Ceilings

variable {n m : ℕ}

/-- The cap is respected. -/
theorem ceilDiv_ceilDiv_le (hn : 0 < n) (hm : 0 < m) : n ⌈/⌉ (n ⌈/⌉ m) ≤ m := by
  have hcover : n ≤ m * (n ⌈/⌉ m) := le_smul_ceilDiv hm
  have hpos : 0 < n ⌈/⌉ m := Nat.pos_of_mul_pos_left (lt_of_lt_of_le hn hcover)
  rw [ceilDiv_le_iff_le_mul hpos, Nat.mul_comm]
  exact hcover

/-- More than half of the cap is used. -/
theorem lt_two_mul_ceilDiv_ceilDiv (hm : 0 < m) (h : m < n) : m < 2 * (n ⌈/⌉ (n ⌈/⌉ m)) := by
  have hcover : n ≤ m * (n ⌈/⌉ m) := le_smul_ceilDiv hm
  have hpos : 0 < n ⌈/⌉ m := Nat.pos_of_mul_pos_left (lt_of_lt_of_le (Nat.zero_lt_of_lt h) hcover)
  have hreach : n ≤ (n ⌈/⌉ m) * (n ⌈/⌉ (n ⌈/⌉ m)) := le_smul_ceilDiv hpos
  have hround : m * (n ⌈/⌉ m) ≤ n + m - 1 := by
    rw [Nat.ceilDiv_eq_add_pred_div]
    exact Nat.mul_div_le _ _
  -- `m * stride < 2 * n ≤ 2 * (stride * frames)`, and the stride cancels
  have hlt : (n ⌈/⌉ m) * m < (n ⌈/⌉ m) * (2 * (n ⌈/⌉ (n ⌈/⌉ m))) := by
    calc (n ⌈/⌉ m) * m = m * (n ⌈/⌉ m) := Nat.mul_comm _ _
      _ < 2 * n := by omega
      _ ≤ 2 * ((n ⌈/⌉ m) * (n ⌈/⌉ (n ⌈/⌉ m))) := Nat.mul_le_mul_left 2 hreach
      _ = (n ⌈/⌉ m) * (2 * (n ⌈/⌉ (n ⌈/⌉ m))) := by ring
  exact Nat.lt_of_mul_lt_mul_left hlt

/-- `range(0, n, s)` has `⌈n / s⌉` elements, and stops short of `n`. -/
theorem mul_lt_of_lt_ceilDiv {s i : ℕ} (hs : 0 < s) (hi : i < n ⌈/⌉ s) : i * s < n := by
  by_contra hge
  have hle : n ⌈/⌉ s ≤ i := by
    rw [ceilDiv_le_iff_le_mul hs, Nat.mul_comm]
    exact Nat.le_of_not_lt hge
  omega

end Ceilings

/-! ### The frames of a run -/

/-- The distance between two frames that are read: `ceil(count / max_frames)`,
where there are more frames than the cap allows. -/
def frameStride (count maxFrames : ℤ) : ℕ :=
  if maxFrames < count then ⌈(count : ℚ) / maxFrames⌉.toNat else 1

theorem frameStride_eq {n m : ℕ} (hm : 0 < m) (h : m < n) : frameStride n m = n ⌈/⌉ m := by
  have hceil : ⌈((n : ℤ) : ℚ) / ((m : ℤ) : ℚ)⌉ = ((n ⌈/⌉ m : ℕ) : ℤ) := by
    rw [Int.cast_natCast, Int.cast_natCast, Int.ceil_eq_iff]
    have hm' : (0 : ℚ) < m := Nat.cast_pos.mpr hm
    have hcover : n ≤ m * (n ⌈/⌉ m) := le_smul_ceilDiv hm
    have hround : m * (n ⌈/⌉ m) < n + m := by
      have hle : m * (n ⌈/⌉ m) ≤ n + m - 1 := by
        rw [Nat.ceilDiv_eq_add_pred_div]
        exact Nat.mul_div_le _ _
      omega
    constructor
    · rw [lt_div_iff₀ hm']
      have hround' : (m : ℚ) * ((n ⌈/⌉ m : ℕ) : ℚ) < n + m := by exact_mod_cast hround
      push_cast
      linarith
    · rw [div_le_iff₀ hm']
      have hcover' : (n : ℚ) ≤ m * ((n ⌈/⌉ m : ℕ) : ℚ) := by exact_mod_cast hcover
      push_cast
      linarith
  rw [frameStride, if_pos (by exact_mod_cast h), hceil, Int.toNat_natCast]

/-- The frames are the multiples of the stride below the count. -/
theorem frameIndices_eq {n m : ℕ} (hn : 0 < n) (hm : 0 < m) :
    frameIndices n m =
      (List.range (n ⌈/⌉ frameStride n m)).map (· * frameStride n m) := by
  have hcount : ¬ (n : ℤ) ≤ 0 := by omega
  unfold frameIndices
  rw [if_neg hcount]
  by_cases h : m < n
  · have hcap : ¬ ((m : ℤ) ≤ 0 ∨ (n : ℤ) ≤ m) := by omega
    have hstride : (((n : ℤ) + m - 1) / m).toNat = n ⌈/⌉ m := by
      rw [Nat.ceilDiv_eq_add_pred_div, show (n : ℤ) + m - 1 = ((n + m - 1 : ℕ) : ℤ) by omega,
        ← Int.natCast_div, Int.toNat_natCast]
    simp only [if_neg hcap, hstride, Int.toNat_natCast, frameStride_eq hm h,
      Nat.ceilDiv_eq_add_pred_div n (n ⌈/⌉ m)]
  · have hcap : (m : ℤ) ≤ 0 ∨ (n : ℤ) ≤ m := by omega
    have hone : frameStride n m = 1 := if_neg (by omega)
    rw [if_pos hcap, hone, ceilDiv_one, Int.toNat_natCast]
    simp

/-- The frames `l` cover a recording of `count` frames in steps of `stride`. -/
structure Covering (count stride : ℕ) (l : List ℕ) : Prop where
  first : l.head? = some 0
  step : l.IsChain fun i j => j = i + stride
  increasing : l.Pairwise (· < ·)
  below : ∀ i ∈ l, i < count
  last : ∀ i ∈ l.getLast?, count - 1 - i < stride

theorem covering_multiples {n s : ℕ} (hn : 0 < n) (hs : 0 < s) :
    Covering n s ((List.range (n ⌈/⌉ s)).map (· * s)) := by
  have hpos : 0 < n ⌈/⌉ s := by
    by_contra h
    have hzero : n ≤ s * 0 := (ceilDiv_le_iff_le_mul hs).mp (Nat.le_of_not_lt h)
    omega
  have hcover : n ≤ s * (n ⌈/⌉ s) := le_smul_ceilDiv hs
  obtain ⟨k, hk⟩ : ∃ k, n ⌈/⌉ s = k + 1 := ⟨n ⌈/⌉ s - 1, by omega⟩
  constructor
  · rw [hk, List.range_succ_eq_map]
    simp
  · rw [List.isChain_map, hk, List.isChain_range_succ]
    intro i _
    rw [Nat.succ_mul]
  · rw [List.pairwise_map]
    exact List.pairwise_lt_range.imp fun h => Nat.mul_lt_mul_of_pos_right h hs
  · intro i hi
    obtain ⟨j, hj, rfl⟩ := List.mem_map.mp hi
    exact mul_lt_of_lt_ceilDiv hs (List.mem_range.mp hj)
  · intro i hi
    rw [hk, List.range_succ, List.map_append, List.map_singleton, List.getLast?_concat] at hi
    cases hi
    rw [hk] at hcover
    have hend : s * (k + 1) = k * s + s := by ring
    omega

/-- `frame_indices` respects the cap, uses more than half of it, and covers the
whole recording evenly. -/
theorem frameIndices_covers {count maxFrames : ℤ} (hcount : 1 ≤ count) (hmax : 1 ≤ maxFrames) :
    Covering count.toNat (frameStride count maxFrames) (frameIndices count maxFrames) ∧
      ((frameIndices count maxFrames).length : ℤ) ≤ maxFrames ∧
      (maxFrames < count → (maxFrames : ℚ) / 2 < (frameIndices count maxFrames).length) ∧
      (count ≤ maxFrames → frameIndices count maxFrames = List.range count.toNat) := by
  lift count to ℕ using by omega with n
  lift maxFrames to ℕ using by omega with m
  have hn : 0 < n := by omega
  have hm : 0 < m := by omega
  rw [frameIndices_eq hn hm, List.length_map, List.length_range, Int.toNat_natCast]
  by_cases h : m < n
  · have hpos : 0 < frameStride n m := by
      rw [frameStride_eq hm h]
      exact Nat.pos_of_mul_pos_left (lt_of_lt_of_le hn (le_smul_ceilDiv hm))
    refine ⟨covering_multiples hn hpos, ?_, fun _ => ?_, fun hle => absurd hle (by omega)⟩
    · rw [frameStride_eq hm h]
      exact_mod_cast ceilDiv_ceilDiv_le hn hm
    · rw [frameStride_eq hm h, div_lt_iff₀ (by norm_num : (0 : ℚ) < 2), mul_comm]
      exact_mod_cast lt_two_mul_ceilDiv_ceilDiv hm h
  · have hone : frameStride n m = 1 := if_neg (by omega)
    rw [hone, ceilDiv_one]
    refine ⟨?_, by omega, fun hlt => absurd hlt (by omega), fun _ => by simp⟩
    simpa using covering_multiples hn Nat.one_pos

/-- Ten frames under a cap of four. -/
theorem frameIndices_covers_ten :
    frameIndices 10 4 = [0, 3, 6, 9] ∧
      Covering 10 (frameStride 10 4) (frameIndices 10 4) ∧
      ((frameIndices 10 4).length : ℤ) ≤ 4 := by
  obtain ⟨hcover, hcap, -⟩ := @frameIndices_covers 10 4 (by decide) (by decide)
  exact ⟨by decide, hcover, hcap⟩

end FacesService
