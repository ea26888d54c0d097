import Mathlib.Logic.Relation

/-!
Programs over calls: the control flow of a service whose every effect is a
call to something outside it.

A program returns, raises, or makes a call and goes on with the answer, which
may itself be an error. One such tree has several meanings, and they are all
here. `exec` runs it against a handler with nothing else going on, and is what
a test evaluates. `Runs` runs it against an answer *relation*, with moves of an
environment between two calls, and keeps the log of the program's own steps:
faults, unspecified answers and interleavings are all choices of the two
relations, so a program is written once and read under each of them.
-/

/-- A program making calls `Op`, answered in `Res`, raising `ε`. -/
inductive Prog (Op : Type) (Res : Op → Type) (ε : Type) (α : Type) : Type
  | ret (a : α)
  | raise (e : ε)
  | call (op : Op) (k : Except ε (Res op) → Prog Op Res ε α)

namespace Prog

variable {Op : Type} {Res : Op → Type} {ε σ α β : Type}

def bind : Prog Op Res ε α → (α → Prog Op Res ε β) → Prog Op Res ε β
  | .ret a, f => f a
  | .raise e, _ => .raise e
  | .call op k, f => .call op fun r => (k r).bind f

instance : Monad (Prog Op Res ε) where
  pure := .ret
  bind := .bind

/-- The call on its own: its value, or its error raised. -/
def perform (op : Op) : Prog Op Res ε (Res op) :=
  .call op fun
    | .ok a => .ret a
    | .error e => .raise e

/-- A pure computation that may fail, inside a program. -/
def lift : Except ε α → Prog Op Res ε α
  | .ok a => .ret a
  | .error e => .raise e

/-- `try p except handler`. -/
def tryCatch : Prog Op Res ε α → (ε → Prog Op Res ε α) → Prog Op Res ε α
  | .ret a, _ => .ret a
  | .raise e, h => h e
  | .call op k, h => .call op fun r => (k r).tryCatch h

/-- `try p finally last`. -/
def tryFinally (p : Prog Op Res ε α) (last : Prog Op Res ε PUnit) : Prog Op Res ε α :=
  (p.tryCatch fun e => last.bind fun _ => .raise e).bind fun a => last.bind fun _ => .ret a

/-! ### Running a program alone -/

/-- What answers the calls of a program, and what each call does. -/
abbrev Handler (Op : Type) (Res : Op → Type) (ε σ : Type) : Type :=
  (op : Op) → σ → Except ε (Res op) × σ

def exec (H : Handler Op Res ε σ) : Prog Op Res ε α → σ → Except ε α × σ
  | .ret a, s => (.ok a, s)
  | .raise e, s => (.error e, s)
  | .call op k, s => (k (H op s).1).exec H (H op s).2

@[simp] theorem exec_pure (H : Handler Op Res ε σ) (a : α) (s : σ) :
    (pure a : Prog Op Res ε α).exec H s = (.ok a, s) := rfl

@[simp] theorem exec_raise (H : Handler Op Res ε σ) (e : ε) (s : σ) :
    (raise e : Prog Op Res ε α).exec H s = (.error e, s) := rfl

@[simp] theorem exec_lift (H : Handler Op Res ε σ) (r : Except ε α) (s : σ) :
    (lift r : Prog Op Res ε α).exec H s = (r, s) := by
  cases r <;> rfl

@[simp] theorem exec_perform (H : Handler Op Res ε σ) (op : Op) (s : σ) :
    (perform op : Prog Op Res ε (Res op)).exec H s = H op s := by
  simp only [perform, exec]
  rcases H op s with ⟨_ | _, _⟩ <;> rfl

/-- The rest of a program sees the value and the state the first part leaves;
an error of the first part is the error of the whole. -/
theorem exec_bind (H : Handler Op Res ε σ) (p : Prog Op Res ε α)
    (f : α → Prog Op Res ε β) (s : σ) :
    (p >>= f).exec H s =
      match p.exec H s with
      | (.ok a, s') => (f a).exec H s'
      | (.error e, s') => (.error e, s') := by
  change (p.bind f).exec H s = _
  induction p generalizing s with
  | ret a => rfl
  | raise e => rfl
  | call op k ih => exact ih _ _

theorem exec_bind_ok {H : Handler Op Res ε σ} {p : Prog Op Res ε α}
    {f : α → Prog Op Res ε β} {s s' : σ} {a : α} (h : p.exec H s = (.ok a, s')) :
    (p >>= f).exec H s = (f a).exec H s' := by
  rw [exec_bind, h]

theorem exec_bind_error {H : Handler Op Res ε σ} {p : Prog Op Res ε α}
    {f : α → Prog Op Res ε β} {s s' : σ} {e : ε} (h : p.exec H s = (.error e, s')) :
    (p >>= f).exec H s = (.error e, s') := by
  rw [exec_bind, h]

theorem exec_bind_eq_ok {H : Handler Op Res ε σ} {p : Prog Op Res ε α}
    {f : α → Prog Op Res ε β} {s s' : σ} {b : β} :
    (p >>= f).exec H s = (.ok b, s') ↔
      ∃ a s₁, p.exec H s = (.ok a, s₁) ∧ (f a).exec H s₁ = (.ok b, s') := by
  rw [exec_bind]
  rcases p.exec H s with ⟨e | a, s₁⟩
  · simp
  · constructor
    · exact fun h => ⟨a, s₁, rfl, h⟩
    · rintro ⟨_, _, ⟨⟩, h⟩
      exact h

theorem exec_bind_eq_error {H : Handler Op Res ε σ} {p : Prog Op Res ε α}
    {f : α → Prog Op Res ε β} {s s' : σ} {e : ε} :
    (p >>= f).exec H s = (.error e, s') ↔
      p.exec H s = (.error e, s') ∨
        ∃ a s₁, p.exec H s = (.ok a, s₁) ∧ (f a).exec H s₁ = (.error e, s') := by
  rw [exec_bind]
  rcases p.exec H s with ⟨e' | a, s₁⟩
  · simp
  · constructor
    · exact fun h => .inr ⟨a, s₁, rfl, h⟩
    · rintro (⟨⟨⟩⟩ | ⟨_, _, ⟨⟩, h⟩)
      exact h

theorem exec_tryCatch (H : Handler Op Res ε σ) (p : Prog Op Res ε α)
    (h : ε → Prog Op Res ε α) (s : σ) :
    (p.tryCatch h).exec H s =
      match p.exec H s with
      | (.ok a, s') => (.ok a, s')
      | (.error e, s') => (h e).exec H s' := by
  induction p generalizing s with
  | ret a => rfl
  | raise e => rfl
  | call op k ih => exact ih _ _

/-! ### What a program may do -/

/-- The program makes only calls in `P`, and raises only errors in `E` as long
as its calls do. -/
def Within (P : Op → Prop) (E : ε → Prop) : Prog Op Res ε α → Prop
  | .ret _ => True
  | .raise e => E e
  | .call op k => P op ∧ ∀ r, (∀ e, r = .error e → E e) → (k r).Within P E

section Within

variable {P : Op → Prop} {E : ε → Prop}

theorem Within.mono {P' : Op → Prop} {p : Prog Op Res ε α} (h : p.Within P E)
    (hP : ∀ op, P op → P' op) : p.Within P' E := by
  induction p with
  | ret a => trivial
  | raise e => exact h
  | call op k ih => exact ⟨hP op h.1, fun r hr => ih r (h.2 r hr)⟩

theorem within_pure (a : α) : (pure a : Prog Op Res ε α).Within P E := trivial

theorem within_lift {r : Except ε α} (h : ∀ e, r = .error e → E e) :
    (lift r : Prog Op Res ε α).Within P E := by
  cases r with
  | error e => exact h e rfl
  | ok a => trivial

theorem within_perform {op : Op} (h : P op) : (perform op : Prog Op Res ε (Res op)).Within P E := by
  refine ⟨h, fun r hr => ?_⟩
  cases r with
  | error e => exact hr e rfl
  | ok a => trivial

theorem within_bind {p : Prog Op Res ε α} {f : α → Prog Op Res ε β} (hp : p.Within P E)
    (hf : ∀ a, (f a).Within P E) : (p >>= f).Within P E := by
  change (p.bind f).Within P E
  induction p with
  | ret a => exact hf a
  | raise e => exact hp
  | call op k ih => exact ⟨hp.1, fun r hr => ih r (hp.2 r hr)⟩

theorem within_foldlM {f : β → α → Prog Op Res ε β} {l : List α}
    (hf : ∀ b, ∀ a ∈ l, (f b a).Within P E) (b : β) : (l.foldlM f b).Within P E := by
  induction l generalizing b with
  | nil => exact within_pure b
  | cons a l ih =>
      rw [List.foldlM_cons]
      exact within_bind (hf b a List.mem_cons_self) fun b' =>
        ih (fun b a ha => hf b a (List.mem_cons_of_mem _ ha)) b'

theorem within_forM {f : α → Prog Op Res ε PUnit} (hf : ∀ a, (f a).Within P E) (l : List α) :
    (l.forM f).Within P E := by
  induction l with
  | nil => exact within_pure _
  | cons a l ih => exact within_bind (hf a) fun _ => ih

/-- A handler hides the errors of its program. -/
theorem within_tryCatch {p : Prog Op Res ε α} {h : ε → Prog Op Res ε α}
    (hp : p.Within P fun _ => True) (hh : ∀ e, (h e).Within P E) : (p.tryCatch h).Within P E := by
  induction p with
  | ret a => exact within_pure a
  | raise e => exact hh e
  | call op k ih => exact ⟨hp.1, fun r _ => ih r (hp.2 r fun _ _ => trivial)⟩

/-- **The frame rule.** What the calls in `P` preserve, the program preserves,
and its error, if it ends in one, is in `E`. -/
theorem exec_within {H : Handler Op Res ε σ} {I : σ → Prop}
    (hcall : ∀ op s, P op → I s → I (H op s).2)
    (herror : ∀ op s e, P op → (H op s).1 = .error e → E e) {p : Prog Op Res ε α}
    (hp : p.Within P E) {s : σ} (hs : I s) :
    I (p.exec H s).2 ∧ ∀ e, (p.exec H s).1 = .error e → E e := by
  induction p generalizing s with
  | ret a => exact ⟨hs, fun e he => by cases he⟩
  | raise e =>
      refine ⟨hs, fun e' he => ?_⟩
      cases he
      exact hp
  | call op k ih =>
      exact ih _ (hp.2 _ fun e he => herror op s e hp.1 he) (hcall op s hp.1 hs)

/-- The frame rule at the end of a program. -/
theorem exec_keeps {H : Handler Op Res ε σ} {I : σ → Prop} (hcall : ∀ op s, P op → I s → I (H op s).2)
    {p : Prog Op Res ε α} (hp : p.Within P fun _ => True) {s s' : σ} {r : Except ε α}
    (h : p.exec H s = (r, s')) (hs : I s) : I s' := by
  have hend := (exec_within hcall (fun _ _ _ _ _ => trivial) hp hs).1
  rw [h] at hend
  exact hend

/-- Handlers that agree on the calls of a program run it alike. -/
theorem exec_congr {H H' : Handler Op Res ε σ} (hcall : ∀ op s, P op → H op s = H' op s)
    {p : Prog Op Res ε α} (hp : p.Within P fun _ => True) (s : σ) : p.exec H s = p.exec H' s := by
  induction p generalizing s with
  | ret a => rfl
  | raise e => rfl
  | call op k ih =>
      rw [exec, exec, hcall op s hp.1]
      exact ih _ (hp.2 _ fun _ _ => trivial) _

end Within

/-! ### Running a program among others -/

/-- One step of the program's own: the call and its answer, the state it was
answered in and the state the answer left. -/
structure Step (Op : Type) (Res : Op → Type) (ε σ : Type) where
  op : Op
  result : Except ε (Res op)
  before : σ
  after : σ

/-- `p.Runs env answers s log r s'`: the program runs from `s` to `s'` with
result `r`, the environment making any number of `env` moves before each call
and each call being answered as `answers` allows. -/
inductive Runs (env : σ → σ → Prop) (answers : (op : Op) → σ → Except ε (Res op) → σ → Prop) :
    Prog Op Res ε α → σ → List (Step Op Res ε σ) → Except ε α → σ → Prop
  | ret {a : α} {s : σ} : Runs env answers (.ret a) s [] (.ok a) s
  | raise {e : ε} {s : σ} : Runs env answers (.raise e) s [] (.error e) s
  | call {op : Op} {k : Except ε (Res op) → Prog Op Res ε α} {s s₁ s₂ s' : σ}
      {r : Except ε (Res op)} {log : List (Step Op Res ε σ)} {res : Except ε α}
      (hmoves : Relation.ReflTransGen env s s₁) (hanswer : answers op s₁ r s₂)
      (hrest : Runs env answers (k r) s₂ log res s') :
      Runs env answers (.call op k) s (⟨op, r, s₁, s₂⟩ :: log) res s'

variable {env : σ → σ → Prop} {answers : (op : Op) → σ → Except ε (Res op) → σ → Prop}

/-- The steps of a program run alone. -/
def steps (H : Handler Op Res ε σ) : Prog Op Res ε α → σ → List (Step Op Res ε σ)
  | .ret _, _ => []
  | .raise _, _ => []
  | .call op k, s => ⟨op, (H op s).1, s, (H op s).2⟩ :: (k (H op s).1).steps H (H op s).2

theorem steps_perform (H : Handler Op Res ε σ) (op : Op) (s : σ) :
    (perform op : Prog Op Res ε (Res op)).steps H s = [⟨op, (H op s).1, s, (H op s).2⟩] := by
  unfold perform steps
  cases (H op s).1 <;> rfl

theorem steps_bind_ok {H : Handler Op Res ε σ} {p : Prog Op Res ε α} {f : α → Prog Op Res ε β}
    {s s₁ : σ} {a : α} (h : p.exec H s = (.ok a, s₁)) :
    (p >>= f).steps H s = p.steps H s ++ (f a).steps H s₁ := by
  change (p.bind f).steps H s = p.steps H s ++ (f a).steps H s₁
  induction p generalizing s with
  | ret a' =>
      cases h
      rfl
  | raise e => cases h
  | call op k ih => exact congrArg (_ :: ·) (ih _ h)

theorem steps_bind_error {H : Handler Op Res ε σ} {p : Prog Op Res ε α} {f : α → Prog Op Res ε β}
    {s s₁ : σ} {e : ε} (h : p.exec H s = (.error e, s₁)) :
    (p >>= f).steps H s = p.steps H s := by
  change (p.bind f).steps H s = p.steps H s
  induction p generalizing s with
  | ret a' => cases h
  | raise e => rfl
  | call op k ih => exact congrArg (_ :: ·) (ih _ h)

theorem steps_bind_pure (H : Handler Op Res ε σ) (p : Prog Op Res ε α) (f : α → β) (s : σ) :
    (p >>= fun a => (pure (f a) : Prog Op Res ε β)).steps H s = p.steps H s := by
  cases hp : p.exec H s with
  | mk res s₁ =>
      cases res with
      | ok a =>
          rw [steps_bind_ok hp]
          exact List.append_nil _
      | error e => rw [steps_bind_error hp]

theorem steps_within {P : Op → Prop} {p : Prog Op Res ε α} (hp : p.Within P fun _ => True)
    (H : Handler Op Res ε σ) (s : σ) : ∀ st ∈ p.steps H s, P st.op := by
  induction p generalizing s with
  | ret a => simp [steps]
  | raise e => simp [steps]
  | call op k ih =>
      intro st hst
      rcases List.mem_cons.mp hst with rfl | hst
      · exact hp.1
      · exact ih _ (hp.2 _ fun _ _ => trivial) _ st hst

/-- A run alone is a run among others that do not move. -/
theorem Runs.of_steps (H : Handler Op Res ε σ) (hH : ∀ op s, answers op s (H op s).1 (H op s).2)
    (p : Prog Op Res ε α) (s : σ) :
    Runs env answers p s (p.steps H s) (p.exec H s).1 (p.exec H s).2 := by
  induction p generalizing s with
  | ret a => exact .ret
  | raise e => exact .raise
  | call op k ih => exact .call .refl (hH op s) (ih _ _)

theorem Runs.of_exec (H : Handler Op Res ε σ) (hH : ∀ op s, answers op s (H op s).1 (H op s).2)
    (p : Prog Op Res ε α) (s : σ) :
    ∃ log, Runs env answers p s log (p.exec H s).1 (p.exec H s).2 :=
  ⟨_, .of_steps H hH p s⟩

/-- A run that is interrupted once, before the call numbered `n`: its steps, its
result and the last state. -/
def interrupted (H : Handler Op Res ε σ) (move : σ → σ) :
    Nat → Prog Op Res ε α → σ → List (Step Op Res ε σ) × Except ε α × σ
  | _, .ret a, s => ([], .ok a, s)
  | _, .raise e, s => ([], .error e, s)
  | 0, .call op k, s => (steps H (.call op k) (move s), exec H (.call op k) (move s))
  | n + 1, .call op k, s =>
      let (log, outcome) := interrupted H move n (k (H op s).1) (H op s).2
      (⟨op, (H op s).1, s, (H op s).2⟩ :: log, outcome)

theorem Runs.of_interrupted (H : Handler Op Res ε σ)
    (hH : ∀ op s, answers op s (H op s).1 (H op s).2) {move : σ → σ}
    (hmove : ∀ s, Relation.ReflTransGen env s (move s)) (n : Nat) (p : Prog Op Res ε α) (s : σ) :
    Runs env answers p s (p.interrupted H move n s).1 (p.interrupted H move n s).2.1
      (p.interrupted H move n s).2.2 := by
  induction n generalizing p s with
  | zero =>
      cases p with
      | ret a => exact .ret
      | raise e => exact .raise
      | call op k => exact .call (hmove s) (hH op (move s)) (.of_steps H hH _ _)
  | succ n ih =>
      cases p with
      | ret a => exact .ret
      | raise e => exact .raise
      | call op k => exact .call .refl (hH op s) (ih _ _)

/-- Another program, run as a whole, is some moves. -/
theorem exec_moves {Op' : Type} {Res' : Op' → Type} {ε' : Type} {H : Handler Op' Res' ε' σ}
    {P : Op' → Prop} (hcall : ∀ op s, P op → env s (H op s).2) {q : Prog Op' Res' ε' β}
    (hq : q.Within P fun _ => True) (s : σ) : Relation.ReflTransGen env s (q.exec H s).2 := by
  induction q generalizing s with
  | ret b => exact .refl
  | raise e => exact .refl
  | call op k ih => exact .head (hcall op s hq.1) (ih _ (hq.2 _ fun _ _ => trivial) _)

/-- Among others that can do more, the same run is possible. -/
theorem Runs.mono {env' : σ → σ → Prop} (henv : ∀ s s', env s s' → env' s s') {p : Prog Op Res ε α}
    {s s' : σ} {log : List (Step Op Res ε σ)} {res : Except ε α} (h : Runs env answers p s log res s') :
    Runs env' answers p s log res s' := by
  induction h with
  | ret => exact .ret
  | raise => exact .raise
  | call hmoves hanswer _ ih => exact .call (Relation.ReflTransGen.mono henv _ _ hmoves) hanswer ih

theorem Runs.performed {op : Op} {s s₁ s' : σ} {r : Except ε (Res op)}
    (hmoves : Relation.ReflTransGen env s s₁) (hanswer : answers op s₁ r s') :
    Runs env answers (perform op) s [⟨op, r, s₁, s'⟩] r s' := by
  refine .call hmoves hanswer ?_
  cases r with
  | error e => exact .raise
  | ok a => exact .ret

theorem Runs.followed {p : Prog Op Res ε α} {f : α → Prog Op Res ε β} {s s₁ s' : σ} {a : α}
    {log₁ log₂ : List (Step Op Res ε σ)} {res : Except ε β} (hp : Runs env answers p s log₁ (.ok a) s₁)
    (hf : Runs env answers (f a) s₁ log₂ res s') :
    Runs env answers (p >>= f) s (log₁ ++ log₂) res s' := by
  change Runs env answers (p.bind f) s (log₁ ++ log₂) res s'
  induction p generalizing s log₁ with
  | ret a' =>
      cases hp
      exact hf
  | raise e => cases hp
  | call op k ih =>
      cases hp with
      | call hmoves hanswer hrest => exact .call hmoves hanswer (ih _ hrest)

/-- Where a handler answers every call, what follows a run can be run to its end. -/
theorem Runs.extend (H : Handler Op Res ε σ) (hH : ∀ op s, answers op s (H op s).1 (H op s).2)
    {p : Prog Op Res ε α} {s s₁ : σ} {log₁ : List (Step Op Res ε σ)} {r : Except ε α}
    (hp : Runs env answers p s log₁ r s₁) (f : α → Prog Op Res ε β) :
    ∃ log₂ res s', Runs env answers (p >>= f) s (log₁ ++ log₂) res s' := by
  cases r with
  | ok a =>
      obtain ⟨log₂, hf⟩ := @Runs.of_exec _ _ _ _ _ env answers H hH (f a) s₁
      exact ⟨log₂, _, _, hp.followed hf⟩
  | error e =>
      refine ⟨[], .error e, s₁, ?_⟩
      rw [List.append_nil]
      change Runs env answers (p.bind f) s log₁ (.error e) s₁
      induction p generalizing s log₁ with
      | ret a => cases hp
      | raise e =>
          cases hp
          exact .raise
      | call op k ih =>
          cases hp with
          | call hmoves hanswer hrest => exact .call hmoves hanswer (ih _ hrest)

theorem Runs.lift_inv {r res : Except ε α} {s s' : σ} {log : List (Step Op Res ε σ)}
    (h : Runs env answers (lift r) s log res s') : res = r ∧ s' = s ∧ log = [] := by
  cases r with
  | error e =>
      cases h
      exact ⟨rfl, rfl, rfl⟩
  | ok a =>
      cases h
      exact ⟨rfl, rfl, rfl⟩

/-- A run of `p` followed by `f` is a run of `p`, then, if `p` returned, one
of `f` on its value. -/
theorem Runs.bind_inv {p : Prog Op Res ε α} {f : α → Prog Op Res ε β} {s s' : σ}
    {log : List (Step Op Res ε σ)} {res : Except ε β}
    (h : Runs env answers (p >>= f) s log res s') :
    (∃ e, Runs env answers p s log (.error e) s' ∧ res = .error e) ∨
      ∃ a s₁ log₁ log₂, Runs env answers p s log₁ (.ok a) s₁ ∧
        Runs env answers (f a) s₁ log₂ res s' ∧ log = log₁ ++ log₂ := by
  change Runs env answers (p.bind f) s log res s' at h
  induction p generalizing s log with
  | ret a => exact .inr ⟨a, s, [], log, .ret, h, rfl⟩
  | raise e =>
      cases h
      exact .inl ⟨e, .raise, rfl⟩
  | call op k ih =>
      cases h with
      | call hmoves hanswer hrest =>
          rcases ih _ hrest with ⟨e, hp, rfl⟩ | ⟨a, s₁, log₁, log₂, hp, hf, rfl⟩
          · exact .inl ⟨e, .call hmoves hanswer hp, rfl⟩
          · exact .inr ⟨a, s₁, _, log₂, .call hmoves hanswer hp, hf, rfl⟩

theorem Runs.bind_ok_inv {p : Prog Op Res ε α} {f : α → Prog Op Res ε β} {s s' : σ}
    {log : List (Step Op Res ε σ)} {b : β} (h : Runs env answers (p >>= f) s log (.ok b) s') :
    ∃ a s₁ log₁ log₂, Runs env answers p s log₁ (.ok a) s₁ ∧
      Runs env answers (f a) s₁ log₂ (.ok b) s' ∧ log = log₁ ++ log₂ := by
  rcases h.bind_inv with ⟨e, -, herror⟩ | h
  · cases herror
  · exact h

theorem Runs.perform_inv {op : Op} {s s' : σ} {log : List (Step Op Res ε σ)} {res : Except ε (Res op)}
    (h : Runs env answers (perform op) s log res s') :
    ∃ s₁, Relation.ReflTransGen env s s₁ ∧ answers op s₁ res s' ∧ log = [⟨op, res, s₁, s'⟩] := by
  cases h with
  | @call _ _ _ s₁ _ _ r _ _ hmoves hanswer hrest =>
      cases r with
      | error e =>
          cases hrest
          exact ⟨s₁, hmoves, hanswer, rfl⟩
      | ok a =>
          cases hrest
          exact ⟨s₁, hmoves, hanswer, rfl⟩

/-- A run under a handler returns what the program returns, or goes on with
the handler where the program raised. -/
theorem Runs.tryCatch_inv {p : Prog Op Res ε α} {handler : ε → Prog Op Res ε α} {s s' : σ}
    {log : List (Step Op Res ε σ)} {res : Except ε α}
    (h : Runs env answers (p.tryCatch handler) s log res s') :
    (∃ a, Runs env answers p s log (.ok a) s' ∧ res = .ok a) ∨
      ∃ e s₁ log₁ log₂, Runs env answers p s log₁ (.error e) s₁ ∧
        Runs env answers (handler e) s₁ log₂ res s' ∧ log = log₁ ++ log₂ := by
  induction p generalizing s log with
  | ret a =>
      cases h
      exact .inl ⟨a, .ret, rfl⟩
  | raise e => exact .inr ⟨e, s, [], log, .raise, h, rfl⟩
  | call op k ih =>
      cases h with
      | call hmoves hanswer hrest =>
          rcases ih _ hrest with ⟨a, hp, rfl⟩ | ⟨e, s₁, log₁, log₂, hp, hh, rfl⟩
          · exact .inl ⟨a, .call hmoves hanswer hp, rfl⟩
          · exact .inr ⟨e, s₁, _, log₂, .call hmoves hanswer hp, hh, rfl⟩

/-- **The run rule among others.** What every move of the environment keeps,
and every answer to a call in `P`, a run of a program that makes only calls in
`P` keeps; and its log is of such calls, each from a state where it held. -/
theorem Runs.preserves {P : Op → Prop} {I : σ → Prop} (henv : ∀ s s', env s s' → I s → I s')
    (hanswers : ∀ op s r s', P op → answers op s r s' → I s → I s')
    {p : Prog Op Res ε α} {s s' : σ} {log : List (Step Op Res ε σ)} {res : Except ε α}
    (h : Runs env answers p s log res s') (hp : p.Within P fun _ => True) (hs : I s) :
    I s' ∧ ∀ st ∈ log, P st.op ∧ I st.before ∧ answers st.op st.before st.result st.after := by
  have hmoves : ∀ {s s'}, Relation.ReflTransGen env s s' → I s → I s' := by
    intro s s' h hs
    induction h with
    | refl => exact hs
    | tail _ hstep ih => exact henv _ _ hstep ih
  induction h with
  | ret => exact ⟨hs, by simp⟩
  | raise => exact ⟨hs, by simp⟩
  | call hm hanswer _ ih =>
      obtain ⟨hend, hlog⟩ := ih (hp.2 _ fun _ _ => trivial)
        (hanswers _ _ _ _ hp.1 hanswer (hmoves hm hs))
      refine ⟨hend, fun st hst => ?_⟩
      rcases List.mem_cons.mp hst with rfl | hst
      · exact ⟨hp.1, hmoves hm hs, hanswer⟩
      · exact hlog st hst

/-- Every logged step is an answered call the program may make. -/
theorem Runs.within {P : Op → Prop} {p : Prog Op Res ε α} {s s' : σ} {log : List (Step Op Res ε σ)}
    {res : Except ε α} (h : Runs env answers p s log res s')
    (hp : p.Within P fun _ => True) :
    ∀ st ∈ log, P st.op ∧ answers st.op st.before st.result st.after := by
  intro st hst
  obtain ⟨hop, -, hanswer⟩ := (h.preserves (I := fun _ => True) (fun _ _ _ _ => trivial)
    (fun _ _ _ _ _ _ _ => trivial) hp trivial).2 st hst
  exact ⟨hop, hanswer⟩

end Prog
