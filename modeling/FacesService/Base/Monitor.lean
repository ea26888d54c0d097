import FacesService.Base.Prog

/-!
What a program's calls do to an account kept beside it. A monitor sees each call
before it is answered, and lets it pass or not; it moves on with the answer.
Whether a program satisfies its monitor, whatever it is answered, is read off the
program's text, and does not depend on what else goes on between its calls.
-/

namespace Prog

variable {Op : Type} {Res : Op → Type} {ε α β G : Type}

structure Monitor (Op : Type) (Res : Op → Type) (ε G : Type) where
  pass : G → Op → Prop
  next : G → (op : Op) → Except ε (Res op) → G

/-- Every call passes, as long as the answers are such as `A` allows; the value
returned is related by `Q`, and the error raised by `E`, to what the monitor then
shows. -/
def Watched (A : (op : Op) → Except ε (Res op) → Prop) (m : Monitor Op Res ε G) (Q : G → α → Prop)
    (E : G → ε → Prop) : Prog Op Res ε α → G → Prop
  | .ret a, g => Q g a
  | .raise e, g => E g e
  | .call op k, g => m.pass g op ∧ ∀ r, A op r → (k r).Watched A m Q E (m.next g op r)

section Rules

variable {A : (op : Op) → Except ε (Res op) → Prop} {m : Monitor Op Res ε G} {E : G → ε → Prop} {g : G}

theorem watched_pure {Q : G → α → Prop} {a : α} (h : Q g a) :
    (pure a : Prog Op Res ε α).Watched A m Q E g := h

theorem watched_raise {Q : G → α → Prop} {e : ε} (h : E g e) :
    (raise e : Prog Op Res ε α).Watched A m Q E g := h

theorem watched_perform {op : Op} {Q : G → Res op → Prop} (hpass : m.pass g op)
    (hok : ∀ a, A op (.ok a) → Q (m.next g op (.ok a)) a)
    (herror : ∀ e, A op (.error e) → E (m.next g op (.error e)) e) :
    (perform op : Prog Op Res ε (Res op)).Watched A m Q E g := by
  refine ⟨hpass, fun r hr => ?_⟩
  cases r with
  | error e => exact herror e hr
  | ok a => exact hok a hr

theorem watched_bind {p : Prog Op Res ε α} {f : α → Prog Op Res ε β} {M : G → α → Prop}
    {Q : G → β → Prop} (hp : p.Watched A m M E g) (hf : ∀ g a, M g a → (f a).Watched A m Q E g) :
    (p >>= f).Watched A m Q E g := by
  change (p.bind f).Watched A m Q E g
  induction p generalizing g with
  | ret a => exact hf g a hp
  | raise e => exact hp
  | call op k ih => exact ⟨hp.1, fun r hr => ih r (hp.2 r hr)⟩

theorem watched_tryCatch {p : Prog Op Res ε α} {handler : ε → Prog Op Res ε α} {Q : G → α → Prop}
    {F : G → ε → Prop} (hp : p.Watched A m Q F g)
    (hh : ∀ g e, F g e → (handler e).Watched A m Q E g) : (p.tryCatch handler).Watched A m Q E g := by
  induction p generalizing g with
  | ret a => exact hp
  | raise e => exact hh g e hp
  | call op k ih => exact ⟨hp.1, fun r hr => ih r (hp.2 r hr)⟩

/-- The last part runs on both ways out. -/
theorem watched_tryFinally {p : Prog Op Res ε α} {last : Prog Op Res ε PUnit} {Q M : G → α → Prop}
    {F : G → ε → Prop} (hp : p.Watched A m M F g)
    (hok : ∀ g a, M g a → last.Watched A m (fun g _ => Q g a) E g)
    (herror : ∀ g e, F g e → last.Watched A m (fun g _ => E g e) E g) :
    (p.tryFinally last).Watched A m Q E g := by
  refine watched_bind (watched_tryCatch hp fun g e he => ?_) fun g a ha => ?_
  · exact watched_bind (herror g e he) fun g _ h => watched_raise h
  · exact watched_bind (hok g a ha) fun g _ h => watched_pure h

end Rules

/-- A run of a watched program, whatever goes on between its calls: its calls pass,
one after the other, and it ends as the monitor has it. -/
theorem Runs.watched {σ : Type} {env : σ → σ → Prop}
    {answers : (op : Op) → σ → Except ε (Res op) → σ → Prop}
    {A : (op : Op) → Except ε (Res op) → Prop} {m : Monitor Op Res ε G} {Q : G → α → Prop}
    {E : G → ε → Prop} (hA : ∀ op s r s', answers op s r s' → A op r) {p : Prog Op Res ε α} {s s' : σ}
    {log : List (Step Op Res ε σ)} {r : Except ε α} (h : Runs env answers p s log r s') {g : G}
    (hp : p.Watched A m Q E g) :
    (∀ a, r = .ok a → Q (log.foldl (fun g st => m.next g st.op st.result) g) a) ∧
      ∀ e, r = .error e → E (log.foldl (fun g st => m.next g st.op st.result) g) e := by
  induction h generalizing g with
  | ret =>
      refine ⟨fun a ha => ?_, fun e he => by cases he⟩
      cases ha
      exact hp
  | raise =>
      refine ⟨fun a ha => (by cases ha), fun e he => ?_⟩
      cases he
      exact hp
  | call _ hanswer _ ih => exact ih (hp.2 _ (hA _ _ _ _ hanswer))

end Prog
