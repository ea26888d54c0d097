import Mathlib.Data.List.Basic
import Mathlib.Data.String.Basic
import Mathlib.Algebra.GroupWithZero.Nat

/-!
Identifiers: the uuids of the database and the strings the service handles.

Python code compares identifiers as strings, Postgres compares them as
uuids. `Uuid.text` is how a uuid column comes back as a string, and
`castUuid` is the `%s::uuid` cast, which accepts more spellings than the one
`Uuid.text` writes. Every aliasing question of the service is a question
about these two functions.
-/

namespace FacesService

/-- What a call of the service can raise. `hangs` is not an exception: it
marks a call that never returns, and no handler of the service catches it. -/
inductive PyError
  | invalidUuid
  | invalidEscape
  | integrity
  | typeError
  | valueError
  | indexError
  | zeroDivision
  | auth (status : ℕ) (message : String)
  | http (status : ℕ) (detail : String)
  | inferenceAborted (framesDone : ℕ)
  | storage
  | hangs
  deriving DecidableEq, Repr

/-- The numerals of hexadecimal digits. -/
instance neZero_digits : NeZero 16 := ⟨by decide⟩

/-- Four hexadecimal digits, the unit after which Postgres accepts a hyphen. -/
abbrev Quad := Fin 16 × Fin 16 × Fin 16 × Fin 16

structure Uuid where
  quads : List Quad
  length_quads : quads.length = 8
  deriving DecidableEq

namespace Uuid

/-- The id with all its digits equal. -/
def fill (d : Fin 16) : Uuid := ⟨List.replicate 8 (d, d, d, d), rfl⟩

def hexChar (d : Fin 16) : Char :=
  ['0', '1', '2', '3', '4', '5', '6', '7', '8', '9', 'a', 'b', 'c', 'd', 'e', 'f'].get d

/-- `isxdigit` and its value: both letter cases are digits. -/
def hexDigit? (c : Char) : Option (Fin 16) :=
  match (List.finRange 16).find? (fun d => hexChar d = c) with
  | some d => some d
  | none => (List.finRange 16).find? (fun d => (hexChar d).toUpper = c)

def quadChars (q : Quad) : List Char :=
  [hexChar q.1, hexChar q.2.1, hexChar q.2.2.1, hexChar q.2.2.2]

/-- The canonical text puts a hyphen after the second, third, fourth and
fifth group of four digits. -/
def hyphenAfter (i : ℕ) : Bool := 1 ≤ i && i ≤ 4

def chars (i : ℕ) : List Quad → List Char
  | [] => []
  | [q] => quadChars q
  | q :: qs => quadChars q ++ (if hyphenAfter i then '-' :: chars (i + 1) qs else chars (i + 1) qs)

/-- `str(uuid)`. -/
def text (u : Uuid) : String := String.ofList (chars 0 u.quads)

def readQuad? : List Char → Option (Quad × List Char)
  | a :: b :: c :: d :: rest =>
      match hexDigit? a, hexDigit? b, hexDigit? c, hexDigit? d with
      | some a, some b, some c, some d => some ((a, b, c, d), rest)
      | _, _, _, _ => none
  | _ => none

def skipHyphen : List Char → List Char
  | '-' :: rest => rest
  | rest => rest

/-- `n` groups of four digits, a hyphen being optional between two groups. -/
def readQuads? : ℕ → List Char → Option (List Quad × List Char)
  | 0, s => some ([], s)
  | n + 1, s =>
      match readQuad? s with
      | none => none
      | some (q, rest) =>
          match readQuads? n (if n = 0 then rest else skipHyphen rest) with
          | none => none
          | some (qs, rest) => some (q :: qs, rest)

def parse? (s : List Char) : Option (List Quad) :=
  match s with
  | '{' :: body =>
      match readQuads? 8 body with
      | some (qs, ['}']) => some qs
      | _ => none
  | body =>
      match readQuads? 8 body with
      | some (qs, []) => some qs
      | _ => none

theorem readQuads?_length {n : ℕ} {s rest : List Char} {qs : List Quad}
    (h : readQuads? n s = some (qs, rest)) : qs.length = n := by
  induction n generalizing s qs rest with
  | zero =>
      simp only [readQuads?, Option.some.injEq, Prod.mk.injEq] at h
      simp [← h.1]
  | succ n ih =>
      unfold readQuads? at h
      split at h
      · cases h
      · split at h
        · cases h
        · rename_i hqs
          simp only [Option.some.injEq, Prod.mk.injEq] at h
          rw [← h.1, List.length_cons, ih hqs]

theorem parse?_length {s : List Char} {qs : List Quad} (h : parse? s = some qs) :
    qs.length = 8 := by
  unfold parse? at h
  split at h <;> split at h
  all_goals first
    | (rename_i hread; simp only [Option.some.injEq] at h; exact h ▸ readQuads?_length hread)
    | cases h

end Uuid

/-- The `%s::uuid` cast of Postgres: upper and lower case, hyphens optional
after every group of four digits, optional braces around the whole. Any other
string makes the statement raise. -/
def castUuid (s : String) : Except PyError Uuid :=
  match h : Uuid.parse? s.toList with
  | some qs => .ok ⟨qs, Uuid.parse?_length h⟩
  | none => .error .invalidUuid

theorem castUuid_error {s : String} {e : PyError} (h : castUuid s = .error e) : e = .invalidUuid := by
  unfold castUuid at h
  split at h
  · cases h
  · cases h
    rfl

namespace Uuid

@[simp] theorem hexDigit?_hexChar (d : Fin 16) : hexDigit? (hexChar d) = some d := by
  revert d
  decide

theorem hexChar_ne_hyphen (d : Fin 16) : hexChar d ≠ '-' := by
  revert d
  decide

theorem hexChar_ne_brace (d : Fin 16) : hexChar d ≠ '{' := by
  revert d
  decide

@[simp] theorem readQuad?_quadChars (q : Quad) (rest : List Char) :
    readQuad? (quadChars q ++ rest) = some (q, rest) := by
  simp [quadChars, readQuad?]

theorem chars_eq_cons {i : ℕ} {qs : List Quad} (h : qs ≠ []) :
    ∃ d tail, chars i qs = hexChar d :: tail := by
  match qs, h with
  | [q], _ => exact ⟨q.1, _, rfl⟩
  | q :: r :: qs, _ => exact ⟨q.1, _, rfl⟩

theorem skipHyphen_chars {i : ℕ} {qs : List Quad} (h : qs ≠ []) :
    skipHyphen (chars i qs) = chars i qs := by
  obtain ⟨d, tail, hd⟩ := chars_eq_cons (i := i) h
  have hne := hexChar_ne_hyphen d
  rw [hd]
  unfold skipHyphen
  split
  · rename_i heq
    exact absurd (List.cons.inj heq).1 hne
  · rfl

/-- Reading back the canonical text, whatever hyphens it has. -/
theorem readQuads?_chars (i : ℕ) (qs : List Quad) :
    readQuads? qs.length (chars i qs) = some (qs, []) := by
  induction qs generalizing i with
  | nil => rfl
  | cons q qs ih =>
      cases qs with
      | nil =>
          have hq : readQuad? (quadChars q) = some (q, []) := by
            simpa using readQuad?_quadChars q []
          simp [chars, readQuads?, hq]
      | cons r qs =>
          have hskip := skipHyphen_chars (i := i + 1) (List.cons_ne_nil r qs)
          have hrest := ih (i + 1)
          rw [List.length_cons] at hrest
          rw [chars, List.length_cons, readQuads?, readQuad?_quadChars]
          · cases hyphenAfter i
            · simp [hskip, hrest]
            · simp [skipHyphen, hrest]
          · simp

theorem parse?_chars (u : Uuid) : parse? (chars 0 u.quads) = some u.quads := by
  have hread := readQuads?_chars 0 u.quads
  rw [u.length_quads] at hread
  have hne : u.quads ≠ [] := List.ne_nil_of_length_pos (by simp [u.length_quads])
  obtain ⟨d, tail, hd⟩ := chars_eq_cons (i := 0) hne
  unfold parse?
  split
  · rename_i heq
    rw [hd] at heq
    exact absurd (List.cons.inj heq).1 (hexChar_ne_brace d)
  · rw [hread]

/-- What Postgres writes, Postgres reads back. -/
@[simp] theorem castUuid_text (u : Uuid) : castUuid u.text = .ok u := by
  unfold castUuid
  split
  · rename_i qs h
    rw [text, String.toList_ofList, parse?_chars] at h
    cases u
    simp_all
  · rename_i h
    rw [text, String.toList_ofList, parse?_chars] at h
    cases h

theorem text_injective : Function.Injective text := by
  intro u v h
  have hu := castUuid_text u
  rw [h, castUuid_text] at hu
  exact (Except.ok.inj hu).symm

@[simp] theorem text_inj {u v : Uuid} : u.text = v.text ↔ u = v :=
  text_injective.eq_iff

/-! ### The characters of a spelling -/

/-- A character that may stand in a uuid. -/
def Spells (c : Char) : Prop := c = '-' ∨ c = '{' ∨ c = '}' ∨ (hexDigit? c).isSome

instance (c : Char) : Decidable (Spells c) :=
  inferInstanceAs (Decidable (_ ∨ _ ∨ _ ∨ _))

theorem readQuad?_spells {s rest : List Char} {q : Quad} (h : readQuad? s = some (q, rest)) :
    ∃ pre, s = pre ++ rest ∧ ∀ c ∈ pre, Spells c := by
  unfold readQuad? at h
  split at h
  · rename_i a b c d tail
    split at h
    · rename_i ha hb hc hd
      cases h
      refine ⟨[a, b, c, d], rfl, fun x hx => .inr (.inr (.inr ?_))⟩
      simp only [List.mem_cons, List.not_mem_nil, or_false] at hx
      rcases hx with rfl | rfl | rfl | rfl <;> simp_all
    · cases h
  · cases h

theorem skipHyphen_spells (s : List Char) :
    ∃ pre, s = pre ++ skipHyphen s ∧ ∀ c ∈ pre, Spells c := by
  unfold skipHyphen
  split
  · exact ⟨['-'], rfl, fun c hc => .inl (List.mem_singleton.mp hc)⟩
  · exact ⟨[], rfl, by simp⟩

theorem readQuads?_spells {n : ℕ} {s rest : List Char} {qs : List Quad}
    (h : readQuads? n s = some (qs, rest)) : ∃ pre, s = pre ++ rest ∧ ∀ c ∈ pre, Spells c := by
  induction n generalizing s qs rest with
  | zero =>
      cases h
      exact ⟨[], rfl, by simp⟩
  | succ n ih =>
      unfold readQuads? at h
      split at h
      · cases h
      · rename_i q s₁ hq
        split at h
        · cases h
        · rename_i qs₁ rest₁ hqs
          cases h
          obtain ⟨pre₁, rfl, h₁⟩ := readQuad?_spells hq
          obtain ⟨pre₃, h₃eq, h₃⟩ := ih hqs
          obtain ⟨pre₂, h₂eq, h₂⟩ :
              ∃ pre, s₁ = pre ++ (if n = 0 then s₁ else skipHyphen s₁) ∧ ∀ c ∈ pre, Spells c := by
            split
            · exact ⟨[], rfl, by simp⟩
            · exact skipHyphen_spells s₁
          refine ⟨pre₁ ++ pre₂ ++ pre₃, ?_, ?_⟩
          · rw [List.append_assoc, List.append_assoc, ← h₃eq, ← h₂eq]
          · intro c hc
            simp only [List.mem_append] at hc
            rcases hc with (hc | hc) | hc
            · exact h₁ c hc
            · exact h₂ c hc
            · exact h₃ c hc

/-- Whatever the cast accepts is made of digits, hyphens and braces. -/
theorem spells_of_castUuid {s : String} {u : Uuid} (h : castUuid s = .ok u) :
    ∀ c ∈ s.toList, Spells c := by
  unfold castUuid at h
  split at h
  · rename_i qs hparse
    unfold parse? at hparse
    split at hparse
    · rename_i body hs
      split at hparse
      · rename_i hread
        obtain ⟨pre, hbody, hpre⟩ := readQuads?_spells hread
        rw [hs, hbody]
        intro c hc
        simp only [List.mem_cons, List.mem_append, List.not_mem_nil, or_false] at hc
        rcases hc with rfl | hc | rfl
        · exact .inr (.inl rfl)
        · exact hpre c hc
        · exact .inr (.inr (.inl rfl))
      · cases hparse
    · split at hparse
      · rename_i hread
        obtain ⟨pre, hbody, hpre⟩ := readQuads?_spells hread
        rw [hbody, List.append_nil]
        exact hpre
      · cases hparse
  · cases h

end Uuid

end FacesService
