import FacesService.Base.Prog
import Mathlib.Logic.Function.Basic
import Mathlib.Order.Basic

/-!
Any number of threads on one state, and programs that rely on each other.

A crew is a family of threads that share a state; a step is a move of one of
them. What the threads may count on is a relation between states, the *rely*:
every move of every thread is a step of it, and what a thread needs of the state
is not lost along it. `Crew.preserves` is that argument, made once for threads of
any kind.

For threads that are programs, `Discipline.Upholds` says, by recursion over the
program, that each call is one the discipline admits whatever the others did
before it. `Discipline.Keeps` is the Hoare logic of it.
-/

/-- The threads and the state they share. -/
structure Crew (ι τ σ : Type) where
  state : σ
  threads : ι → τ

namespace Crew

variable {ι τ σ : Type} [DecidableEq ι]

/-- One move of one thread. -/
inductive Step (move : τ → σ → τ → σ → Prop) : Crew ι τ σ → Crew ι τ σ → Prop
  | intro {c : Crew ι τ σ} (i : ι) {t : τ} {s : σ} (h : move (c.threads i) c.state t s) :
      Step move c ⟨s, Function.update c.threads i t⟩

variable {move : τ → σ → τ → σ → Prop} {holds : τ → σ → Prop} {rely : σ → σ → Prop}

theorem Step.holds_all (hmove : ∀ t s t' s', holds t s → move t s t' s' → holds t' s' ∧ rely s s')
    (hstable : ∀ t s s', holds t s → rely s s' → holds t s') {c c' : Crew ι τ σ}
    (h : Step move c c') (hc : ∀ i, holds (c.threads i) c.state) :
    (∀ i, holds (c'.threads i) c'.state) ∧ rely c.state c'.state := by
  cases h with
  | intro i h =>
      obtain ⟨hown, hrely⟩ := hmove _ _ _ _ (hc i) h
      refine ⟨fun j => ?_, hrely⟩
      by_cases hj : j = i
      · subst hj
        simpa using hown
      · simpa [Function.update_of_ne hj] using hstable _ _ _ (hc j) hrely

/-- **The crew rule.** What holds of every thread goes on to, and the state moves
as the threads rely on. -/
theorem preserves (hmove : ∀ t s t' s', holds t s → move t s t' s' → holds t' s' ∧ rely s s')
    (hstable : ∀ t s s', holds t s → rely s s' → holds t s') {c c' : Crew ι τ σ}
    (h : Relation.ReflTransGen (Step move) c c') (hc : ∀ i, holds (c.threads i) c.state) :
    (∀ i, holds (c'.threads i) c'.state) ∧ Relation.ReflTransGen rely c.state c'.state := by
  induction h with
  | refl => exact ⟨hc, .refl⟩
  | tail _ hstep ih =>
      obtain ⟨hall, hrely⟩ := hstep.holds_all hmove hstable ih.1
      exact ⟨hall, ih.2.tail hrely⟩

/-- Where something only grows, no move of a run passes the bound its end keeps. -/
theorem bounded {β : Type} [Preorder β] {size : σ → β}
    (hsize : ∀ t s t' s', move t s t' s' → size s ≤ size s') {limit : β} {c c' : Crew ι τ σ}
    (h : Relation.ReflTransGen (Step move) c c') (hlimit : size c'.state ≤ limit) :
    Relation.ReflTransGen (Step fun t s t' s' => move t s t' s' ∧ size s' ≤ limit) c c' := by
  induction h with
  | refl => exact .refl
  | tail _ hstep ih =>
      cases hstep with
      | intro i h =>
          exact (ih (le_trans (hsize _ _ _ _ h) hlimit)).tail (.intro i ⟨h, hlimit⟩)

end Crew

namespace Prog

variable {Op : Type} {Res : Op → Type} {ε σ α β : Type}

/-- How calls are answered, which of them may be made where, and what every call
that may be made guarantees to the others. -/
structure Discipline (Op : Type) (Res : Op → Type) (ε σ : Type) where
  answers : (op : Op) → σ → Except ε (Res op) → σ → Prop
  admits : Op → σ → Prop
  rely : σ → σ → Prop
  refl : ∀ s, rely s s
  trans : ∀ {s s' s''}, rely s s' → rely s' s'' → rely s s''
  guarantee : ∀ {op s r s'}, admits op s → answers op s r s' → rely s s'

namespace Discipline

variable (D : Discipline Op Res ε σ)

/-- Nothing the others do takes it away. -/
def Stable (P : σ → Prop) : Prop := ∀ s s', D.rely s s' → P s → P s'

/-- Each call of the program is admitted where the others have come to by then;
a value is returned in a state in `Q`, an error raised in one in `E`. -/
def Upholds (Q : α → σ → Prop) (E : σ → Prop) : Prog Op Res ε α → σ → Prop
  | .ret a, s => Q a s
  | .raise _, s => E s
  | .call op k, s => ∀ s', D.rely s s' → D.admits op s' ∧
      ∀ r s'', D.answers op s' r s'' → Upholds Q E (k r) s''

/-- From a state in `P` the program upholds the discipline. -/
def Keeps (P : σ → Prop) (p : Prog Op Res ε α) (Q : α → σ → Prop) (E : σ → Prop) : Prop :=
  ∀ s, P s → D.Upholds Q E p s

variable {D} {P P' : σ → Prop} {Q Q' : α → σ → Prop} {E E' : σ → Prop}

theorem Upholds.stable (hQ : ∀ a, D.Stable (Q a)) (hE : D.Stable E) {p : Prog Op Res ε α} {s s' : σ}
    (h : D.Upholds Q E p s) (hs : D.rely s s') : D.Upholds Q E p s' := by
  cases p with
  | ret a => exact hQ a s s' hs h
  | raise e => exact hE s s' hs h
  | call op k => exact fun s'' hs'' => h s'' (D.trans hs hs'')

theorem Upholds.mono {p : Prog Op Res ε α} {s : σ} (h : D.Upholds Q E p s)
    (hQ : ∀ a s, Q a s → Q' a s) (hE : ∀ s, E s → E' s) : D.Upholds Q' E' p s := by
  induction p generalizing s with
  | ret a => exact hQ a s h
  | raise e => exact hE s h
  | call op k ih => exact fun s' hs => ⟨(h s' hs).1, fun r s'' hr => ih r ((h s' hs).2 r s'' hr)⟩

namespace Keeps

/-- The rule of consequence. -/
theorem conseq {p : Prog Op Res ε α} (h : D.Keeps P p Q E) (hP : ∀ s, P' s → P s)
    (hQ : ∀ a s, Q a s → Q' a s) (hE : ∀ s, E s → E' s) : D.Keeps P' p Q' E' :=
  fun s hs => (h s (hP s hs)).mono hQ hE

theorem ret {a : α} (h : ∀ s, P s → Q a s) : D.Keeps P (pure a) Q E := h

theorem fail {e : ε} (h : ∀ s, P s → E s) : D.Keeps P (raise e : Prog Op Res ε α) Q E := h

/-- What the precondition says of the values at hand may be used. -/
theorem assuming {p : Prog Op Res ε α} {A : Prop} (hA : ∀ s, P s → A) (h : A → D.Keeps P p Q E) :
    D.Keeps P p Q E :=
  fun s hs => h (hA s hs) s hs

theorem lifted {r : Except ε α} (hQ : ∀ a s, r = .ok a → P s → Q a s) (hE : ∀ s, P s → E s) :
    D.Keeps P (lift r) Q E := by
  cases r with
  | error e => exact fail hE
  | ok a => exact ret fun s hs => hQ a s rfl hs

theorem performed {op : Op} {Q : Res op → σ → Prop} (hP : D.Stable P) (hop : ∀ s, P s → D.admits op s)
    (hok : ∀ a s s', P s → D.answers op s (.ok a) s' → Q a s')
    (herror : ∀ e s s', P s → D.answers op s (.error e) s' → E s') :
    D.Keeps P (perform op) Q E := by
  intro s hs s' hs'
  have hP' := hP s s' hs' hs
  refine ⟨hop s' hP', fun r s'' hr => ?_⟩
  cases r with
  | error e => exact herror e s' s'' hP' hr
  | ok a => exact hok a s' s'' hP' hr

/-- A call whose answer does not matter. -/
theorem performed_stable {op : Op} (hP : D.Stable P) (hop : ∀ s, P s → D.admits op s) :
    D.Keeps P (perform op) (fun _ => P) P :=
  performed hP hop (fun _ s s' hs hr => hP s s' (D.guarantee (hop s hs) hr) hs)
    fun _ s s' hs hr => hP s s' (D.guarantee (hop s hs) hr) hs

theorem bind {p : Prog Op Res ε α} {f : α → Prog Op Res ε β} {M : α → σ → Prop} {Q : β → σ → Prop}
    (hp : D.Keeps P p M E) (hf : ∀ a, D.Keeps (M a) (f a) Q E) : D.Keeps P (p >>= f) Q E := by
  intro s hs
  have h := hp s hs
  change D.Upholds Q E (p.bind f) s
  clear hp hs
  induction p generalizing s with
  | ret a => exact hf a s h
  | raise e => exact h
  | call op k ih => exact fun s' hs => ⟨(h s' hs).1, fun r s'' hr => ih r s'' ((h s' hs).2 r s'' hr)⟩

theorem caught {p : Prog Op Res ε α} {handler : ε → Prog Op Res ε α} {F : σ → Prop}
    (hp : D.Keeps P p Q F) (hh : ∀ e, D.Keeps F (handler e) Q E) :
    D.Keeps P (p.tryCatch handler) Q E := by
  intro s hs
  have h := hp s hs
  clear hp hs
  induction p generalizing s with
  | ret a => exact h
  | raise e => exact hh e s h
  | call op k ih => exact fun s' hs => ⟨(h s' hs).1, fun r s'' hr => ih r s'' ((h s' hs).2 r s'' hr)⟩

/-- The loop rule: an assertion about the accumulator is kept by each round. -/
theorem foldlM {f : β → α → Prog Op Res ε β} {I : β → σ → Prop} {l : List α}
    (hf : ∀ b, ∀ a ∈ l, D.Keeps (I b) (f b a) I E) (b : β) : D.Keeps (I b) (l.foldlM f b) I E := by
  induction l generalizing b with
  | nil => exact ret fun _ h => h
  | cons a l ih =>
      rw [List.foldlM_cons]
      exact bind (hf b a List.mem_cons_self) fun b' =>
        ih (fun b a ha => hf b a (List.mem_cons_of_mem _ ha)) b'

theorem forM {f : α → Prog Op Res ε PUnit} {l : List α}
    (hf : ∀ a ∈ l, D.Keeps P (f a) (fun _ => P) E) : D.Keeps P (l.forM f) (fun _ => P) E := by
  induction l with
  | nil => exact ret fun _ h => h
  | cons a l ih =>
      exact bind (hf a List.mem_cons_self) fun _ => ih fun a ha => hf a (List.mem_cons_of_mem _ ha)

/-- A program of calls that are admitted wherever `P` holds. -/
theorem of_within {C : Op → Prop} {p : Prog Op Res ε α} (hp : p.Within C fun _ => True)
    (hP : D.Stable P) (hC : ∀ op s, C op → P s → D.admits op s) :
    D.Keeps P p (fun _ => P) P := by
  intro s hs
  induction p generalizing s with
  | ret a => exact hs
  | raise e => exact hs
  | call op k ih =>
      intro s' hs'
      have hP' := hP s s' hs' hs
      have hop := hC op s' hp.1 hP'
      exact ⟨hop, fun r s'' hr => ih r (hp.2 _ fun _ _ => trivial) s''
        (hP s' s'' (D.guarantee hop hr) hP')⟩

end Keeps

/-! ### With an invariant

All threads keep one invariant, and a program is followed by what it knows beside it. -/

/-- The program keeps the invariant, also where it raises, and leads from `P` to `Q`. -/
abbrev Maintains (D : Discipline Op Res ε σ) (I P : σ → Prop) (p : Prog Op Res ε α) (Q : α → σ → Prop) :
    Prop :=
  D.Keeps (fun s => I s ∧ P s) p (fun a s => I s ∧ Q a s) I

namespace Maintains

variable {I : σ → Prop}

theorem ret {a : α} (h : ∀ s, P s → Q a s) : D.Maintains I P (pure a) Q :=
  Keeps.ret fun s hs => ⟨hs.1, h s hs.2⟩

theorem fail {e : ε} : D.Maintains I P (raise e : Prog Op Res ε α) Q :=
  Keeps.fail fun _ hs => hs.1

theorem lifted {r : Except ε α} (h : ∀ a s, r = .ok a → P s → Q a s) : D.Maintains I P (lift r) Q :=
  Keeps.lifted (fun a s hr hs => ⟨hs.1, h a s hr hs.2⟩) fun _ hs => hs.1

theorem bind {p : Prog Op Res ε α} {f : α → Prog Op Res ε β} {M : α → σ → Prop} {Q : β → σ → Prop}
    (hp : D.Maintains I P p M) (hf : ∀ a, D.Maintains I (M a) (f a) Q) : D.Maintains I P (p >>= f) Q :=
  Keeps.bind hp hf

theorem assuming {p : Prog Op Res ε α} {A : Prop} (hA : ∀ s, P s → A) (h : A → D.Maintains I P p Q) :
    D.Maintains I P p Q :=
  Keeps.assuming (fun s hs => hA s hs.2) h

theorem forget {p : Prog Op Res ε α} (h : D.Maintains I P p Q) (hP : ∀ s, P' s → P s) :
    D.Maintains I P' p Q :=
  Keeps.conseq h (fun s hs => ⟨hs.1, hP s hs.2⟩) (fun _ _ h => h) fun _ h => h

theorem weaken {p : Prog Op Res ε α} (h : D.Maintains I P p Q) (hQ : ∀ a s, Q a s → Q' a s) :
    D.Maintains I P p Q' :=
  Keeps.conseq h (fun _ hs => hs) (fun a s hs => ⟨hs.1, hQ a s hs.2⟩) fun _ h => h

theorem caught {p : Prog Op Res ε α} {handler : ε → Prog Op Res ε α} (hp : D.Maintains I P p Q)
    (hh : ∀ e, D.Maintains I (fun _ => True) (handler e) Q) : D.Maintains I P (p.tryCatch handler) Q :=
  Keeps.caught hp fun e => Keeps.conseq (hh e) (fun _ hs => ⟨hs, trivial⟩) (fun _ _ h => h) fun _ h => h

theorem foldlM {f : β → α → Prog Op Res ε β} {J : β → σ → Prop} {l : List α}
    (hf : ∀ b, ∀ a ∈ l, D.Maintains I (J b) (f b a) J) (b : β) : D.Maintains I (J b) (l.foldlM f b) J :=
  Keeps.foldlM hf b

theorem forM {f : α → Prog Op Res ε PUnit} {l : List α}
    (hf : ∀ a ∈ l, D.Maintains I P (f a) fun _ => P) : D.Maintains I P (l.forM f) fun _ => P :=
  Keeps.forM hf

/-- Calls that are admitted wherever `P` holds take nothing away. -/
theorem of_within {C : Op → Prop} {p : Prog Op Res ε α} (hp : p.Within C fun _ => True)
    (hP : D.Stable fun s => I s ∧ P s) (hC : ∀ op s, C op → P s → D.admits op s) :
    D.Maintains I P p fun _ => P :=
  Keeps.conseq (Keeps.of_within hp hP fun op s hop hs => hC op s hop hs.2) (fun _ h => h)
      (fun _ _ h => h)
    fun _ h => h.1

end Maintains

/-- What is left of a program after a call upholds the discipline where the call has led. -/
theorem Upholds.move {op : Op} {k : Except ε (Res op) → Prog Op Res ε α}
    {r : Except ε (Res op)} {s s' : σ}
    (h : D.Upholds Q E (.call op k) s) (hr : D.answers op s r s') :
    D.Upholds Q E (k r) s' ∧ D.rely s s' := by
  obtain ⟨hop, hrest⟩ := h s (D.refl s)
  exact ⟨hrest r s' hr, D.guarantee hop hr⟩

end Discipline

end Prog
