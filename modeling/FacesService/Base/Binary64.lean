import FacesService.Base.HalfEven
import Mathlib.Algebra.Order.Field.Power
import Mathlib.Algebra.Order.Field.Rat
import Mathlib.Data.Int.Log
import Mathlib.Data.Rat.Floor
import Mathlib.Tactic.NormNum
import Mathlib.Tactic.Positivity
import Mathlib.Tactic.Ring

/-!
Floating-point numbers as numbers: significands of `p` bits, exponents from
`emin` on, and rounding to the nearest, a half to the even significand. Binary64
is the instance with 53 bits in which what is too large is no number.

A number near `2 ^ L` is a multiple of `2 ^ (L - p + 1)`. Adding less than half of
that changes nothing, and adding more than half of it moves on.
-/

namespace Floating

variable {K : Type*} [Field K] [LinearOrder K] [FloorRing K]

def IsFloat (p : ℕ) (emin : ℤ) (x : K) : Prop :=
  ∃ m e : ℤ, |m| < 2 ^ p ∧ emin ≤ e ∧ x = m * 2 ^ e

variable [IsStrictOrderedRing K]

/-- The exponent of the last bit a number near `x` has. -/
def lastPlace (p : ℕ) (emin : ℤ) (x : K) : ℤ := max emin (Int.log 2 |x| - p + 1)

def round (p : ℕ) (emin : ℤ) (x : K) : K :=
  HalfEven.nearest (x / 2 ^ lastPlace p emin x) * 2 ^ lastPlace p emin x

variable {p : ℕ} {emin L : ℤ} {x d : K}

theorem two_zpow_pos (e : ℤ) : (0 : K) < 2 ^ e := zpow_pos two_pos e

theorem two_zpow_le {e e' : ℤ} (h : e ≤ e') : (2 : K) ^ e ≤ 2 ^ e' :=
  zpow_le_zpow_right₀ one_le_two h

/-! ### Where the last bit is -/

theorem log_eq (hlow : 2 ^ L ≤ x) (hhigh : x < 2 ^ (L + 1)) : Int.log 2 x = L := by
  have hpos : 0 < x := lt_of_lt_of_le (two_zpow_pos L) hlow
  have hle : L ≤ Int.log 2 x := (Int.zpow_le_iff_le_log one_lt_two hpos).mp (by exact_mod_cast hlow)
  have hlt : Int.log 2 x < L + 1 :=
    (Int.lt_zpow_iff_log_lt one_lt_two hpos).mp (by exact_mod_cast hhigh)
  omega

theorem lastPlace_eq (hlow : 2 ^ L ≤ x) (hhigh : x < 2 ^ (L + 1)) (he : emin ≤ L - p + 1) :
    lastPlace p emin x = L - p + 1 := by
  have hpos : 0 < x := lt_of_lt_of_le (two_zpow_pos L) hlow
  rw [lastPlace, abs_of_pos hpos, log_eq hlow hhigh]
  exact max_eq_right he

theorem lastPlace_le (hpos : 0 < |x|) (hhigh : |x| < 2 ^ (L + 1)) (he : emin ≤ L - p + 1) :
    lastPlace p emin x ≤ L - p + 1 := by
  have hlt : Int.log 2 |x| < L + 1 :=
    (Int.lt_zpow_iff_log_lt one_lt_two hpos).mp (by exact_mod_cast hhigh)
  rw [lastPlace]
  omega

/-- In units of its last bit a number has `p` bits before the point. -/
theorem abs_div_lt (p : ℕ) (emin : ℤ) (x : K) : |x / 2 ^ lastPlace p emin x| < 2 ^ p := by
  have hunit := two_zpow_pos (K := K) (lastPlace p emin x)
  rw [abs_div, abs_of_pos hunit, div_lt_iff₀ hunit, ← zpow_natCast, ← zpow_add₀ two_ne_zero]
  have hlog : |x| < 2 ^ (Int.log 2 |x| + 1) := by
    exact_mod_cast Int.lt_zpow_succ_log_self one_lt_two |x|
  refine lt_of_lt_of_le hlog (two_zpow_le ?_)
  have hplace : Int.log 2 |x| - p + 1 ≤ lastPlace p emin x := le_max_right _ _
  omega

/-! ### Rounding -/

/-- Rounding is off by half of the last bit at most. -/
theorem abs_sub_round_le (p : ℕ) (emin : ℤ) (x : K) :
    |x - round p emin x| ≤ 2 ^ lastPlace p emin x / 2 := by
  have hunit := two_zpow_pos (K := K) (lastPlace p emin x)
  have hnear := HalfEven.abs_sub_nearest_le (x / 2 ^ lastPlace p emin x)
  have hscale : x - round p emin x =
      (x / 2 ^ lastPlace p emin x - HalfEven.nearest (x / 2 ^ lastPlace p emin x)) *
        2 ^ lastPlace p emin x := by
    rw [round, sub_mul, div_mul_cancel₀ _ hunit.ne']
  rw [hscale, abs_mul, abs_of_pos hunit]
  calc |x / 2 ^ lastPlace p emin x - HalfEven.nearest (x / 2 ^ lastPlace p emin x)| *
        2 ^ lastPlace p emin x ≤ 1 / 2 * 2 ^ lastPlace p emin x := by gcongr
    _ = 2 ^ lastPlace p emin x / 2 := by ring

theorem isFloat_round (hp : 0 < p) (emin : ℤ) (x : K) : IsFloat p emin (round p emin x) := by
  set e := lastPlace p emin x with he
  have hemin : emin ≤ e := le_max_left _ _
  have hbits : |HalfEven.nearest (x / 2 ^ e)| ≤ 2 ^ p :=
    HalfEven.abs_nearest_le (by exact_mod_cast (abs_div_lt p emin x).le)
  rcases hbits.lt_or_eq with hlt | heq
  · exact ⟨HalfEven.nearest (x / 2 ^ e), e, hlt, hemin, rfl⟩
  · -- a carry into one bit more: the number is a power of two
    obtain ⟨q, rfl⟩ : ∃ q, p = q + 1 := ⟨p - 1, by omega⟩
    have hcarry : ∀ m : ℤ, |m| = 2 ^ (q + 1) → ∃ m' : ℤ, m = m' * 2 ∧ |m'| < 2 ^ (q + 1) := by
      intro m hm
      rcases (abs_eq (by positivity)).mp hm with rfl | rfl
      · refine ⟨2 ^ q, pow_succ 2 q, ?_⟩
        rw [abs_of_pos (by positivity)]
        exact pow_lt_pow_right₀ (by decide) (Nat.lt_succ_self q)
      · refine ⟨-2 ^ q, by rw [pow_succ]; ring, ?_⟩
        rw [abs_neg, abs_of_pos (by positivity)]
        exact pow_lt_pow_right₀ (by decide) (Nat.lt_succ_self q)
    obtain ⟨m', hm', hlt⟩ := hcarry _ heq
    refine ⟨m', e + 1, hlt, by omega, ?_⟩
    rw [round, ← he, hm', zpow_add_one₀ two_ne_zero]
    push_cast
    ring

/-- What is less than half a bit away from a number with that last bit is rounded
to it. -/
theorem round_add_eq {n : ℤ} (hx : x = n * 2 ^ lastPlace p emin (x + d))
    (hd : |d| < 2 ^ lastPlace p emin (x + d) / 2) : round p emin (x + d) = x := by
  have hunit := two_zpow_pos (K := K) (lastPlace p emin (x + d))
  have hnear : HalfEven.nearest ((x + d) / 2 ^ lastPlace p emin (x + d)) = n := by
    apply HalfEven.nearest_eq
    have hdiff : (x + d) / 2 ^ lastPlace p emin (x + d) - n = d / 2 ^ lastPlace p emin (x + d) := by
      rw [div_sub' hunit.ne', mul_comm _ (n : K), ← hx, add_sub_cancel_left]
    rw [hdiff, abs_div, abs_of_pos hunit, div_lt_iff₀ hunit]
    linarith
  rw [round, hnear]
  exact hx.symm

/-- Rounding does not go beyond a number with enough bits. -/
theorem abs_round_le {n e : ℤ} (he : lastPlace p emin x ≤ e) (h : |x| ≤ n * 2 ^ e) :
    |round p emin x| ≤ n * 2 ^ e := by
  obtain ⟨k, hk⟩ := Int.eq_ofNat_of_zero_le (show 0 ≤ e - lastPlace p emin x by omega)
  have hunit := two_zpow_pos (K := K) (lastPlace p emin x)
  have hsplit : (n : K) * 2 ^ e = ((n * 2 ^ k : ℤ) : K) * 2 ^ lastPlace p emin x := by
    have hexp : e = k + lastPlace p emin x := by omega
    rw [hexp, zpow_add₀ two_ne_zero, zpow_natCast]
    push_cast
    ring
  have hnear : |HalfEven.nearest (x / 2 ^ lastPlace p emin x)| ≤ n * 2 ^ k := by
    apply HalfEven.abs_nearest_le
    rw [abs_div, abs_of_pos hunit, div_le_iff₀ hunit, ← hsplit]
    exact h
  have hnear' : |(HalfEven.nearest (x / 2 ^ lastPlace p emin x) : K)| ≤ ((n * 2 ^ k : ℤ) : K) := by
    exact_mod_cast hnear
  rw [round, abs_mul, abs_of_pos hunit, hsplit]
  gcongr

/-! ### The grid -/

/-- From `2 ^ L` on a number is a multiple of `2 ^ (L - p + 1)`. -/
theorem IsFloat.exists_eq_mul (h : IsFloat p emin x) (hlow : 2 ^ L ≤ |x|) :
    ∃ n : ℤ, x = n * 2 ^ (L - p + 1) := by
  obtain ⟨m, e, hm, -, rfl⟩ := h
  have hbits : |(m : K)| < 2 ^ p := by exact_mod_cast hm
  have hlt : (2 : K) ^ L < 2 ^ (p + e) := by
    calc (2 : K) ^ L ≤ |(m : K) * 2 ^ e| := hlow
      _ = |(m : K)| * 2 ^ e := by rw [abs_mul, abs_of_pos (two_zpow_pos (K := K) e)]
      _ < 2 ^ p * 2 ^ e := mul_lt_mul_of_pos_right hbits (two_zpow_pos e)
      _ = 2 ^ (p + e) := by rw [zpow_add₀ two_ne_zero, zpow_natCast]
  have hexp : L < p + e := (zpow_lt_zpow_iff_right₀ one_lt_two).mp hlt
  obtain ⟨k, hk⟩ := Int.eq_ofNat_of_zero_le (show 0 ≤ e - (L - p + 1) by omega)
  refine ⟨m * 2 ^ k, ?_⟩
  have hsplit : e = k + (L - p + 1) := by omega
  rw [hsplit, zpow_add₀ two_ne_zero, zpow_natCast]
  push_cast
  ring

/-- Below `2 ^ (L + 1)` there is room for one bit more. -/
theorem IsFloat.add_le (h : IsFloat p emin x) (hp : 0 < p) (hnonneg : 0 ≤ x)
    (hhigh : x < 2 ^ (L + 1)) : x + 2 ^ (L - p + 1) ≤ 2 ^ (L + 1) := by
  have htop : (2 : K) ^ (L + 1) = 2 ^ p * 2 ^ (L - p + 1) := by
    rw [← zpow_natCast, ← zpow_add₀ two_ne_zero]
    congr 1
    ring
  rcases lt_or_ge x (2 ^ L) with hlow | hlow
  · have hbit : (2 : K) ^ (L - p + 1) ≤ 2 ^ L := two_zpow_le (by omega)
    calc x + 2 ^ (L - p + 1) ≤ 2 ^ L + 2 ^ L := add_le_add hlow.le hbit
      _ = 2 ^ (L + 1) := by rw [zpow_add_one₀ two_ne_zero]; ring
  · obtain ⟨n, hn⟩ := h.exists_eq_mul (by rwa [abs_of_nonneg hnonneg])
    have hunit := two_zpow_pos (K := K) (L - p + 1)
    have hlt : (n : K) < 2 ^ p := by
      rw [hn, htop] at hhigh
      exact lt_of_mul_lt_mul_right hhigh hunit.le
    have hle : (n : K) + 1 ≤ 2 ^ p := by
      have hlt' : n < 2 ^ p := by exact_mod_cast hlt
      exact_mod_cast hlt'
    calc x + 2 ^ (L - p + 1) = (n + 1) * 2 ^ (L - p + 1) := by rw [hn]; ring
      _ ≤ 2 ^ p * 2 ^ (L - p + 1) := by gcongr
      _ = 2 ^ (L + 1) := htop.symm

end Floating

open Floating

/-- The largest finite number. -/
def Binary64.largest : ℚ := ((2 ^ 53 - 1 : ℤ) : ℚ) * 2 ^ (971 : ℤ)

/-- The finite numbers. -/
@[ext] structure Binary64 where
  value : ℚ
  isFloat : IsFloat 53 (-1074) value
  finite : |value| ≤ Binary64.largest

namespace Binary64

instance : DecidableEq Binary64 := fun a b => decidable_of_iff (a.value = b.value) Binary64.ext_iff.symm

theorem largest_lt : largest < 2 ^ (1024 : ℤ) := by
  have hsplit : (2 : ℚ) ^ (1024 : ℤ) = 2 ^ 53 * 2 ^ (971 : ℤ) := by
    rw [← zpow_natCast, ← zpow_add₀ two_ne_zero]
    rfl
  rw [largest, hsplit]
  exact mul_lt_mul_of_pos_right (by norm_num) (two_zpow_pos 971)

theorem two_zpow_le_largest {e : ℤ} (he : e ≤ 1023) : (2 : ℚ) ^ e ≤ largest := by
  have hsplit : (2 : ℚ) ^ (1023 : ℤ) = 2 ^ 52 * 2 ^ (971 : ℤ) := by
    rw [← zpow_natCast, ← zpow_add₀ two_ne_zero]
    rfl
  refine (two_zpow_le he).trans ?_
  rw [largest, hsplit]
  exact mul_le_mul_of_nonneg_right (by norm_num) (two_zpow_pos 971).le

theorem finite_round {x : ℚ} (h : |x| ≤ largest) : |round 53 (-1074) x| ≤ largest := by
  apply abs_round_le _ h
  rcases (abs_nonneg x).eq_or_lt with hzero | hpos
  · rw [lastPlace, ← hzero, Int.log_zero_right]
    decide
  · exact lastPlace_le (L := 1023) hpos (lt_of_le_of_lt h largest_lt) (by decide)

/-- What `x` is rounded to, when it is not too large. -/
def nearest (x : ℚ) (h : |x| ≤ largest) : Binary64 where
  value := round 53 (-1074) x
  isFloat := isFloat_round (by decide) _ x
  finite := finite_round h

/-- Addition; `none` is an infinity. -/
def add (a b : Binary64) : Option Binary64 :=
  let sum := round 53 (-1074) (a.value + b.value)
  if h : |sum| ≤ largest then some ⟨sum, isFloat_round (by decide) _ _, h⟩ else none

end Binary64
