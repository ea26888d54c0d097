import Mathlib.Algebra.Order.Field.Rat
import Mathlib.Data.List.DropRight
import Mathlib.Tactic.FieldSimp
import Mathlib.Tactic.Ring

/-!
Decimal numerals. `numeral` writes a whole number of units of `10 ^ -places`
with all its places; `value` reads a numeral, with or without a point and an
exponent, as the rational number it denotes. What has been written is read as
the number it was written for, whatever the number of places.
-/

namespace Decimal

/-- The last `places` digits of `n`, leading zeros included. -/
def fraction : ℕ → ℕ → List Char
  | 0, _ => []
  | places + 1, n => fraction places (n / 10) ++ [(n % 10).digitChar]

/-- `n` units of `10 ^ -places`. -/
def numeral (negative : Bool) (places n : ℕ) : List Char :=
  (if negative then ['-'] else []) ++ (Nat.toDigits 10 (n / 10 ^ places) ++ '.' :: fraction places n)

/-- A sign, if there is one, and what follows it. -/
def sign : List Char → Bool × List Char
  | '-' :: s => (true, s)
  | '+' :: s => (false, s)
  | s => (false, s)

/-- The digits after a point, if there is one, and what follows them. -/
def point : List Char → List Char × List Char
  | '.' :: s => (s.takeWhile Char.isDigit, s.dropWhile Char.isDigit)
  | s => ([], s)

def exponent : List Char → Option ℤ
  | [] => some 0
  | c :: s =>
      let (negative, digits) := sign s
      if (c = 'e' ∨ c = 'E') ∧ digits ≠ [] ∧ digits.all Char.isDigit then
        some ((if negative then -1 else 1) * Nat.ofDigitChars 10 digits 0)
      else none

/-- The number a numeral denotes. -/
def value (s : List Char) : Option ℚ :=
  let (negative, s) := sign s
  let whole := s.takeWhile Char.isDigit
  let (frac, rest) := point (s.dropWhile Char.isDigit)
  if whole = [] ∧ frac = [] then none
  else (exponent rest).map fun e : ℤ =>
    (if negative then -1 else 1) * (Nat.ofDigitChars 10 (whole ++ frac) 0 : ℚ) *
      (10 : ℚ) ^ (e - frac.length)

/-! ### The digits -/

variable {places n : ℕ} {negative : Bool}

theorem fraction_length (places n : ℕ) : (fraction places n).length = places := by
  induction places generalizing n with
  | zero => rfl
  | succ places ih => rw [fraction, List.length_append, ih, List.length_singleton]

theorem isDigit_fraction {c : Char} (h : c ∈ fraction places n) : c.isDigit := by
  induction places generalizing n with
  | zero => cases h
  | succ places ih =>
      rcases List.mem_append.mp h with h | h
      · exact ih h
      · rw [List.mem_singleton.mp h]
        have hlt : n % 10 < 10 := Nat.mod_lt _ (by decide)
        simpa using hlt

theorem isDigit_toDigits {c : Char} (h : c ∈ Nat.toDigits 10 n) : c.isDigit :=
  Nat.isDigit_of_mem_toDigits (by decide) (by decide) h

theorem ofDigitChars_fraction (places n before : ℕ) :
    Nat.ofDigitChars 10 (fraction places n) before = before * 10 ^ places + n % 10 ^ places := by
  induction places generalizing n with
  | zero => rw [fraction, Nat.ofDigitChars_nil, pow_zero, Nat.mod_one, Nat.mul_one, Nat.add_zero]
  | succ places ih =>
      have hlt : n % 10 < 10 := Nat.mod_lt _ (by decide)
      have hmod : n % 10 ^ (places + 1) = n % 10 + 10 * (n / 10 % 10 ^ places) := by
        rw [pow_succ', Nat.mod_mul]
      rw [fraction, Nat.ofDigitChars_append, ih, Nat.ofDigitChars_cons_digitChar_of_lt_ten hlt,
        Nat.ofDigitChars_nil, hmod]
      ring

/-- The digits of a numeral without its point. -/
theorem ofDigitChars_numeral (places n : ℕ) :
    Nat.ofDigitChars 10 (Nat.toDigits 10 (n / 10 ^ places) ++ fraction places n) 0 = n := by
  rw [Nat.ofDigitChars_append, Nat.ofDigitChars_ten_toDigits, ofDigitChars_fraction]
  exact Nat.div_add_mod' n (10 ^ places)

/-! ### Reading what has been written -/

theorem sign_of_isDigit {c : Char} (hc : c.isDigit) (s : List Char) :
    sign (c :: s) = (false, c :: s) := by
  unfold sign
  split
  · rename_i heq
    obtain ⟨rfl, -⟩ := List.cons.inj heq
    cases hc
  · rename_i heq
    obtain ⟨rfl, -⟩ := List.cons.inj heq
    cases hc
  · rfl

theorem sign_numeral (negative : Bool) (places n : ℕ) :
    sign (numeral negative places n) =
      (negative, Nat.toDigits 10 (n / 10 ^ places) ++ '.' :: fraction places n) := by
  cases negative with
  | true => rfl
  | false =>
      obtain ⟨c, digits, hdigits⟩ :=
        List.exists_cons_of_ne_nil (Nat.toDigits_ne_nil (n := n / 10 ^ places) (b := 10))
      have hc : c.isDigit := isDigit_toDigits (hdigits ▸ List.mem_cons_self)
      show sign (Nat.toDigits 10 (n / 10 ^ places) ++ _) = _
      rw [hdigits, List.cons_append]
      exact sign_of_isDigit hc _

theorem takeWhile_digits {s : List Char} (hs : ∀ c ∈ s, c.isDigit) (rest : List Char) :
    (s ++ '.' :: rest).takeWhile Char.isDigit = s := by
  rw [List.takeWhile_append_of_pos hs, List.takeWhile_cons_of_neg (by decide), List.append_nil]

theorem dropWhile_digits {s : List Char} (hs : ∀ c ∈ s, c.isDigit) (rest : List Char) :
    (s ++ '.' :: rest).dropWhile Char.isDigit = '.' :: rest := by
  rw [List.dropWhile_append_of_pos hs, List.dropWhile_cons_of_neg (by decide)]

theorem point_fraction (places n : ℕ) : point ('.' :: fraction places n) = (fraction places n, []) := by
  have hdigits : ∀ c ∈ fraction places n, c.isDigit := fun c hc => isDigit_fraction hc
  rw [point, List.takeWhile_eq_self_iff.mpr hdigits, List.dropWhile_eq_nil_iff.mpr hdigits]

/-- A numeral denotes the number it was written for. -/
theorem value_numeral (negative : Bool) (places n : ℕ) :
    value (numeral negative places n) =
      some ((if negative then -1 else 1) * ((n : ℚ) / 10 ^ places)) := by
  have hdigits : ∀ c ∈ Nat.toDigits 10 (n / 10 ^ places), c.isDigit := fun c hc => isDigit_toDigits hc
  unfold value
  rw [sign_numeral]
  simp only
  rw [takeWhile_digits hdigits, dropWhile_digits hdigits, point_fraction]
  simp only
  rw [if_neg fun hnil => Nat.toDigits_ne_nil hnil.1, exponent, Option.map_some, ofDigitChars_numeral,
    fraction_length, zero_sub, zpow_neg, zpow_natCast, mul_assoc, div_eq_mul_inv]

/-- The characters of a numeral. -/
theorem mem_numeral {c : Char} (h : c ∈ numeral negative places n) : c.isDigit ∨ c = '-' ∨ c = '.' := by
  rcases List.mem_append.mp h with h | h
  · cases negative with
    | true => exact .inr (.inl (List.mem_singleton.mp h))
    | false => cases h
  · rcases List.mem_append.mp h with h | h
    · exact .inl (isDigit_toDigits h)
    · rcases List.mem_cons.mp h with rfl | h
      · exact .inr (.inr rfl)
      · exact .inl (isDigit_fraction h)

theorem numeral_ne_nil (negative : Bool) (places n : ℕ) : numeral negative places n ≠ [] := by
  intro hnil
  have hdot := (List.append_eq_nil_iff.mp (List.append_eq_nil_iff.mp hnil).2).2
  cases hdot

example : numeral true 6 50 = "-0.000050".toList ∧ value "1.5e-2".toList = some (3 / 200) := by
  decide +kernel

end Decimal
