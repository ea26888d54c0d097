import Mathlib.Data.List.Basic

/-!
Rules for computations that may fail: what a successful bind and a successful
loop were made of.
-/

namespace Fallible

variable {ε α β : Type}

theorem bind_eq_ok {x : Except ε α} {f : α → Except ε β} {b : β} :
    (x >>= f) = .ok b ↔ ∃ a, x = .ok a ∧ f a = .ok b := by
  cases x with
  | error e => simp [bind, Except.bind]
  | ok a => simp [bind, Except.bind]

theorem map_eq_ok {x : Except ε α} {f : α → β} {b : β} :
    f <$> x = .ok b ↔ ∃ a, x = .ok a ∧ f a = b := by
  cases x with
  | error e => simp [Functor.map, Except.map]
  | ok a => simp [Functor.map, Except.map]

@[simp] theorem ok_bind (a : α) (f : α → Except ε β) : (Except.ok a >>= f) = f a := rfl

@[simp] theorem error_bind (e : ε) (f : α → Except ε β) :
    ((Except.error e : Except ε α) >>= f) = .error e := rfl

theorem bind_eq_error {x : Except ε α} {f : α → Except ε β} {e : ε} :
    (x >>= f) = .error e ↔ x = .error e ∨ ∃ a, x = .ok a ∧ f a = .error e := by
  cases x with
  | error e' => simp [bind, Except.bind]
  | ok a => simp [bind, Except.bind]

/-- Whether a computation succeeds with a value that satisfies `P` can be computed. -/
instance decidableExistsOk (x : Except ε α) (P : α → Prop) [DecidablePred P] :
    Decidable (∃ a, x = .ok a ∧ P a) :=
  match x with
  | .error e => isFalse fun ⟨_, h, _⟩ => by cases h
  | .ok a => decidable_of_iff (P a)
      ⟨fun h => ⟨a, rfl, h⟩, fun ⟨_, h, hP⟩ => Except.ok.inj h ▸ hP⟩

/-- A loop fails only as one of its rounds does. -/
theorem foldlM_error {E : ε → Prop} {f : β → α → Except ε β}
    (hf : ∀ b a e, f b a = .error e → E e) {l : List α} {b : β} {e : ε}
    (h : l.foldlM f b = .error e) : E e := by
  induction l generalizing b with
  | nil => cases h
  | cons a l ih =>
      rw [List.foldlM_cons, bind_eq_error] at h
      rcases h with h | ⟨b', -, h⟩
      · exact hf b a e h
      · exact ih h

/-- **The loop rule.** `I rest b` holds at the start of the loop and is carried
over each element; it then holds of the result with nothing left to do. -/
theorem foldlM_ok {f : β → α → Except ε β} (I : List α → β → Prop)
    (hstep : ∀ a rest b b', I (a :: rest) b → f b a = .ok b' → I rest b') {l : List α} {b b' : β}
    (hb : I l b) (h : l.foldlM f b = .ok b') : I [] b' := by
  induction l generalizing b with
  | nil =>
      cases h
      exact hb
  | cons a l ih =>
      rw [List.foldlM_cons, bind_eq_ok] at h
      obtain ⟨b₁, h₁, h₂⟩ := h
      exact ih (hstep a l b b₁ hb h₁) h₂

/-! ### Two computations -/

/-- Both fail with the same error, or both succeed with related results. -/
def Agree (Q : α → β → Prop) : Except ε α → Except ε β → Prop
  | .ok a, .ok b => Q a b
  | .error e, .error e' => e = e'
  | _, _ => False

theorem agree_mono {Q Q' : α → β → Prop} {x : Except ε α} {y : Except ε β} (h : Agree Q x y)
    (hQ : ∀ a b, Q a b → Q' a b) : Agree Q' x y := by
  cases x with
  | error e =>
      cases y with
      | error e' => exact h
      | ok b => exact h.elim
  | ok a =>
      cases y with
      | error e' => exact h.elim
      | ok b => exact hQ a b h

section

variable {γ δ : Type} {Q : α → β → Prop} {S : γ → δ → Prop}

theorem agree_bind {x : Except ε α} {y : Except ε β} {f : α → Except ε γ} {g : β → Except ε δ}
    (h : Agree Q x y) (hf : ∀ a b, x = .ok a → y = .ok b → Q a b → Agree S (f a) (g b)) :
    Agree S (x >>= f) (y >>= g) := by
  cases x with
  | error e =>
      cases y with
      | error e' => exact h
      | ok b => exact h.elim
  | ok a =>
      cases y with
      | error e' => exact h.elim
      | ok b => exact hf a b rfl rfl h

/-- The same first computation on both sides. -/
theorem agree_bind_same {x : Except ε α} {f : α → Except ε γ} {g : α → Except ε δ}
    (hf : ∀ a, x = .ok a → Agree S (f a) (g a)) : Agree S (x >>= f) (x >>= g) := by
  cases x with
  | error e => rfl
  | ok a => exact hf a rfl

/-- The loop rule for two loops over one list. -/
theorem agree_foldlM {f : α → γ → Except ε α} {g : β → γ → Except ε β} {l : List γ}
    (hstep : ∀ c ∈ l, ∀ a b, Q a b → Agree Q (f a c) (g b c)) {a : α} {b : β} (hab : Q a b) :
    Agree Q (l.foldlM f a) (l.foldlM g b) := by
  induction l generalizing a b with
  | nil => exact hab
  | cons c l ih =>
      rw [List.foldlM_cons, List.foldlM_cons]
      exact agree_bind (hstep c List.mem_cons_self a b hab) fun a' b' _ _ h =>
        ih (fun c hc => hstep c (List.mem_cons_of_mem _ hc)) h

end

end Fallible
