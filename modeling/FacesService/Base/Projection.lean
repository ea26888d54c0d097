import Mathlib.Data.List.Basic
import Mathlib.Data.Sigma.Basic

/-!
Two machines side by side, of which the second lives in a part of the first. A view
says what of a state the part is, and some actions are seen there. If a seen action
does to the view what the second machine does, and an action that is not seen does
nothing to it, then a whole history is seen as a history: of the seen actions only.
-/

namespace Projection

variable {S T A : Type} {R : A → Type}

/-- A machine: an action in a state has an answer and a next state. -/
abbrev Machine (S A : Type) (R : A → Type) : Type := (a : A) → S → R a × S

/-- The answers of a history, each with its action, and the state in the end. -/
def play (m : Machine S A R) : List A → S → List ((a : A) × R a) × S
  | [], s => ([], s)
  | a :: as, s =>
      let (r, s₁) := m a s
      let (log, s₂) := play m as s₁
      (⟨a, r⟩ :: log, s₂)

/-- Every action is in order in the state it finds. -/
def InOrder (m : Machine S A R) (ok : A → S → Prop) : List A → S → Prop
  | [], _ => True
  | a :: as, s => ok a s ∧ InOrder m ok as (m a s).2

/-- The second machine is a part of the first. The answers to some of the seen
actions are heard there. -/
structure Projects (m : Machine S A R) (n : Machine T A R) (ok : A → S → Prop) (inv : S → Prop)
    (view : S → T)
    (seen heard : A → Bool) : Prop where
  kept : ∀ {a s}, inv s → ok a s → inv (m a s).2
  hidden : ∀ {a s}, inv s → ok a s → seen a = false → view (m a s).2 = view s
  state : ∀ {a s}, inv s → ok a s → seen a = true → (n a (view s)).2 = view (m a s).2
  answer : ∀ {a s}, inv s → ok a s → heard a = true → (n a (view s)).1 = (m a s).1
  heardSeen : ∀ {a}, heard a = true → seen a = true

variable {m : Machine S A R} {n : Machine T A R} {ok : A → S → Prop} {inv : S → Prop} {view : S → T}
  {seen heard : A → Bool}

theorem play_cons (a : A) (as : List A) (s : S) :
    play m (a :: as) s = (⟨a, (m a s).1⟩ :: (play m as (m a s).2).1, (play m as (m a s).2).2) := rfl

/-- **A history is seen as the history of what is seen.** -/
theorem Projects.play (h : Projects m n ok inv view seen heard) {as : List A} {s : S} (hs : inv s)
    (hok : InOrder m ok as s) :
    (Projection.play n (as.filter seen) (view s)).2 = view (Projection.play m as s).2 ∧
      (Projection.play n (as.filter seen) (view s)).1.filter (heard ·.1) =
        (Projection.play m as s).1.filter (heard ·.1) := by
  induction as generalizing s with
  | nil => exact ⟨rfl, rfl⟩
  | cons a as ih =>
      obtain ⟨hstate, hlog⟩ := ih (h.kept hs hok.1) hok.2
      rw [play_cons]
      cases hseen : seen a with
      | false =>
          have hdeaf : heard a = false := by
            cases hheard : heard a with
            | false => rfl
            | true => exact absurd (h.heardSeen hheard) (by simp [hseen])
          rw [List.filter_cons_of_neg (by simp [hseen]), ← h.hidden hs hok.1 hseen,
            List.filter_cons_of_neg (by simp [hdeaf])]
          exact ⟨hstate, hlog⟩
      | true =>
          rw [List.filter_cons_of_pos hseen, play_cons, h.state hs hok.1 hseen]
          refine ⟨hstate, ?_⟩
          cases hheard : heard a with
          | false => simpa [List.filter_cons, hheard] using hlog
          | true => simpa [List.filter_cons, hheard] using ⟨h.answer hs hok.1 hheard, hlog⟩

end Projection
