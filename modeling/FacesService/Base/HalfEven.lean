import Mathlib.Algebra.Order.Floor.Ring
import Mathlib.Algebra.Order.Field.Basic
import Mathlib.Tactic.Linarith

/-!
Rounding to the nearest integer, a half to the even neighbour.
-/

namespace HalfEven

variable {K : Type*} [Field K] [LinearOrder K] [FloorRing K]

/-- The numeral of the halves. -/
instance atLeastTwo_two : Nat.AtLeastTwo 2 := ⟨by decide⟩

def nearest (x : K) : ℤ :=
  if x - ⌊x⌋ < 1 / 2 then ⌊x⌋
  else if 1 / 2 < x - ⌊x⌋ then ⌊x⌋ + 1
  else if ⌊x⌋ % 2 = 0 then ⌊x⌋ else ⌊x⌋ + 1

variable [IsStrictOrderedRing K] {x : K} {n : ℤ}

/-- The nearest integer is at most half a unit away. -/
theorem abs_sub_nearest_le (x : K) : |x - nearest x| ≤ 1 / 2 := by
  have hfloor : (⌊x⌋ : K) ≤ x := Int.floor_le x
  have hceil : x < ⌊x⌋ + 1 := Int.lt_floor_add_one x
  unfold nearest
  rw [abs_le]
  split
  · constructor <;> linarith
  · split
    · push_cast
      constructor <;> linarith
    · split
      · constructor <;> linarith
      · push_cast
        constructor <;> linarith

/-- What is less than half a unit away is the nearest integer. -/
theorem nearest_eq (h : |x - n| < 1 / 2) : nearest x = n := by
  have hnear := abs_le.mp (abs_sub_nearest_le x)
  have hx := abs_lt.mp h
  have hlow : ((nearest x - 1 : ℤ) : K) < n := by
    push_cast
    linarith [hnear.1, hx.2]
  have hhigh : (n : K) < ((nearest x + 1 : ℤ) : K) := by
    push_cast
    linarith [hnear.2, hx.1]
  have hlow' := Int.cast_lt.mp hlow
  have hhigh' := Int.cast_lt.mp hhigh
  omega

theorem abs_nearest_le (h : |x| ≤ n) : |nearest x| ≤ n := by
  have hnear := abs_le.mp (abs_sub_nearest_le x)
  obtain ⟨hlow, hhigh⟩ := abs_le.mp h
  have hlow' : ((-n - 1 : ℤ) : K) < nearest x := by
    push_cast
    linarith [hnear.2]
  have hhigh' : (nearest x : K) < ((n + 1 : ℤ) : K) := by
    push_cast
    linarith [hnear.1]
  have hlow'' := Int.cast_lt.mp hlow'
  have hhigh'' := Int.cast_lt.mp hhigh'
  rw [abs_le]
  omega

theorem nearest_intCast (n : ℤ) : nearest (n : K) = n := by
  apply nearest_eq
  rw [sub_self, abs_zero]
  exact one_half_pos

/-- Half a unit below zero is rounded up: zero is even. -/
theorem nearest_neg_half : nearest (-(1 / 2) : K) = 0 := by
  have hhalf : (0 : K) < 1 / 2 := one_half_pos
  have hsum : (1 / 2 : K) + 1 / 2 = 1 := add_halves 1
  have hfloor : ⌊(-(1 / 2) : K)⌋ = -1 := by
    rw [Int.floor_eq_iff]
    push_cast
    constructor <;> linarith
  unfold nearest
  rw [hfloor, if_neg, if_neg, if_neg (by decide)]
  · rfl
  · push_cast
    linarith
  · push_cast
    linarith

theorem nearest_nonneg (h : -(1 / 2) ≤ x) : 0 ≤ nearest x := by
  rcases h.eq_or_lt with rfl | hlt
  · exact le_of_eq nearest_neg_half.symm
  · have hnear := abs_le.mp (abs_sub_nearest_le x)
    have hgt : ((-1 : ℤ) : K) < nearest x := by
      push_cast
      linarith [hnear.2, add_halves (1 : K)]
    have := Int.cast_lt.mp hgt
    omega

end HalfEven
