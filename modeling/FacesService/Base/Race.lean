import FacesService.Base.Prog

/-!
Two programs on one state. Their calls interleave in any way, each call being
one step; a race is over when both have finished. What both programs' calls
preserve, the race preserves, and a race in which one program runs as a whole
between two calls of the other is a race.
-/

namespace Prog

variable {Op Op' : Type} {Res : Op → Type} {Res' : Op' → Type} {ε ε' σ α β : Type}

/-- The steps of a race: of the first program and of the second. -/
abbrev Event (Op : Type) (Res : Op → Type) (ε : Type) (Op' : Type) (Res' : Op' → Type) (ε' σ : Type) :
    Type :=
  Step Op Res ε σ ⊕ Step Op' Res' ε' σ

/-- `Race answers answers' p q s log r r' s'`: from `s` the two programs come to
`s'` with results `r` and `r'`, their steps being those of the log in its order. -/
inductive Race (answers : (op : Op) → σ → Except ε (Res op) → σ → Prop)
    (answers' : (op : Op') → σ → Except ε' (Res' op) → σ → Prop) :
    Prog Op Res ε α → Prog Op' Res' ε' β → σ → List (Event Op Res ε Op' Res' ε' σ) →
      Except ε α → Except ε' β → σ → Prop
  | done (r : Except ε α) (r' : Except ε' β) (s : σ) :
      Race answers answers' (lift r) (lift r') s [] r r' s
  | first {op : Op} {k : Except ε (Res op) → Prog Op Res ε α} {q : Prog Op' Res' ε' β} {s s₁ s' : σ}
      {a : Except ε (Res op)} {log : List (Event Op Res ε Op' Res' ε' σ)} {r : Except ε α}
      {r' : Except ε' β} (h : answers op s a s₁) (hrest : Race answers answers' (k a) q s₁ log r r' s') :
      Race answers answers' (.call op k) q s (.inl ⟨op, a, s, s₁⟩ :: log) r r' s'
  | second {p : Prog Op Res ε α} {op : Op'} {k : Except ε' (Res' op) → Prog Op' Res' ε' β} {s s₁ s' : σ}
      {a : Except ε' (Res' op)} {log : List (Event Op Res ε Op' Res' ε' σ)} {r : Except ε α}
      {r' : Except ε' β} (h : answers' op s a s₁) (hrest : Race answers answers' p (k a) s₁ log r r' s') :
      Race answers answers' p (.call op k) s (.inr ⟨op, a, s, s₁⟩ :: log) r r' s'

namespace Race

variable {answers : (op : Op) → σ → Except ε (Res op) → σ → Prop}
  {answers' : (op : Op') → σ → Except ε' (Res' op) → σ → Prop}

theorem lift_ne_call (r : Except ε α) (op : Op) (k : Except ε (Res op) → Prog Op Res ε α) :
    lift r ≠ .call op k := by
  cases r <;> exact fun h => by cases h

/-- **The race rule.** What the calls in `P` and in `P'` preserve, a race of
programs that make only such calls preserves; and all its steps are such calls,
made where it held. -/
theorem preserves {P : Op → Prop} {P' : Op' → Prop} {I : σ → Prop}
    (hfirst : ∀ op s a s', P op → answers op s a s' → I s → I s')
    (hsecond : ∀ op s a s', P' op → answers' op s a s' → I s → I s')
    {p : Prog Op Res ε α} {q : Prog Op' Res' ε' β} {s s' : σ}
    {log : List (Event Op Res ε Op' Res' ε' σ)} {r : Except ε α} {r' : Except ε' β}
    (h : Race answers answers' p q s log r r' s') (hp : p.Within P fun _ => True)
    (hq : q.Within P' fun _ => True) (hs : I s) : I s' := by
  induction h with
  | done => exact hs
  | first h _ ih => exact ih (hp.2 _ fun _ _ => trivial) hq (hfirst _ _ _ _ hp.1 h hs)
  | second h _ ih => exact ih hp (hq.2 _ fun _ _ => trivial) (hsecond _ _ _ _ hq.1 h hs)

/-- The first program alone, the second having finished. -/
theorem of_exec_first (H : Handler Op Res ε σ) (hH : ∀ op s, answers op s (H op s).1 (H op s).2)
    (p : Prog Op Res ε α) (r' : Except ε' β) (s : σ) :
    ∃ log, Race answers answers' p (lift r') s log (p.exec H s).1 r' (p.exec H s).2 := by
  induction p generalizing s with
  | ret a => exact ⟨[], .done (.ok a) r' s⟩
  | raise e => exact ⟨[], .done (.error e) r' s⟩
  | call op k ih =>
      obtain ⟨log, hlog⟩ := ih (H op s).1 (H op s).2
      exact ⟨_, .first (hH op s) hlog⟩

/-- The second program as a whole, before anything else happens. -/
theorem of_exec_second (H : Handler Op Res ε σ) (H' : Handler Op' Res' ε' σ)
    (hH : ∀ op s, answers op s (H op s).1 (H op s).2)
    (hH' : ∀ op s, answers' op s (H' op s).1 (H' op s).2) (p : Prog Op Res ε α)
    (q : Prog Op' Res' ε' β) (s : σ) :
    ∃ log, Race answers answers' p q s log (p.exec H (q.exec H' s).2).1 (q.exec H' s).1
      (p.exec H (q.exec H' s).2).2 := by
  induction q generalizing s with
  | ret b => exact of_exec_first H hH p (.ok b) s
  | raise e => exact of_exec_first H hH p (.error e) s
  | call op k ih =>
      obtain ⟨log, hlog⟩ := ih (H' op s).1 (H' op s).2
      exact ⟨_, .second (hH' op s) hlog⟩

end Race

/-- What is left of a program after some calls. -/
def after (H : Handler Op Res ε σ) : Nat → Prog Op Res ε α → σ → Prog Op Res ε α × σ
  | 0, p, s => (p, s)
  | _ + 1, .ret a, s => (.ret a, s)
  | _ + 1, .raise e, s => (.raise e, s)
  | n + 1, .call op k, s => after H n (k (H op s).1) (H op s).2

/-- The second program as a whole, after some calls of the first. -/
theorem Race.nested {answers : (op : Op) → σ → Except ε (Res op) → σ → Prop}
    {answers' : (op : Op') → σ → Except ε' (Res' op) → σ → Prop} (H : Handler Op Res ε σ)
    (H' : Handler Op' Res' ε' σ) (hH : ∀ op s, answers op s (H op s).1 (H op s).2)
    (hH' : ∀ op s, answers' op s (H' op s).1 (H' op s).2) (n : Nat) (p : Prog Op Res ε α)
    (q : Prog Op' Res' ε' β) (s : σ) :
    ∃ log, Race answers answers' p q s log
      ((after H n p s).1.exec H (q.exec H' (after H n p s).2).2).1 (q.exec H' (after H n p s).2).1
      ((after H n p s).1.exec H (q.exec H' (after H n p s).2).2).2 := by
  induction n generalizing p s with
  | zero => exact of_exec_second H H' hH hH' p q s
  | succ n ih =>
      cases p with
      | ret a => exact of_exec_second H H' hH hH' _ q s
      | raise e => exact of_exec_second H H' hH hH' _ q s
      | call op k =>
          obtain ⟨log, hlog⟩ := ih (k (H op s).1) (H op s).2
          exact ⟨_, .first (hH op s) hlog⟩

/-- Such a race starts with a call of the first. -/
theorem Race.nested_succ {answers : (op : Op) → σ → Except ε (Res op) → σ → Prop}
    {answers' : (op : Op') → σ → Except ε' (Res' op) → σ → Prop} (H : Handler Op Res ε σ)
    (H' : Handler Op' Res' ε' σ) (hH : ∀ op s, answers op s (H op s).1 (H op s).2)
    (hH' : ∀ op s, answers' op s (H' op s).1 (H' op s).2) (n : Nat) {p : Prog Op Res ε α} {op : Op}
    {k : Except ε (Res op) → Prog Op Res ε α} (hp : p = .call op k) (q : Prog Op' Res' ε' β) (s : σ) :
    ∃ st log, Race answers answers' p q s (.inl st :: log)
      ((after H (n + 1) p s).1.exec H (q.exec H' (after H (n + 1) p s).2).2).1
      (q.exec H' (after H (n + 1) p s).2).1
      ((after H (n + 1) p s).1.exec H (q.exec H' (after H (n + 1) p s).2).2).2 := by
  subst hp
  obtain ⟨log, hlog⟩ := nested H H' hH hH' n (k (H op s).1) q (H op s).2
  exact ⟨_, log, .first (hH op s) hlog⟩

end Prog
