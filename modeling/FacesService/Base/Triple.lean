import FacesService.Base.Prog

/-!
Hoare triples for a program run alone, and a ghost that follows its calls.

`Triple H P p Q E` says that a run of `p` from a state in `P` ends with a value
and a state in `Q`, or with an error and a state in `E`. Each way to build a
program has a rule, and slack can be taken up at any point (`Triple.conseq`).

What a triple is to say of the past, of the calls made so far, has to be in the
state: `observe` keeps a ghost beside it that every call moves on, and
`exec_observe` says that the run is otherwise the same.
-/

namespace Prog

variable {Op : Type} {Res : Op → Type} {ε σ G α β : Type}

/-- An end of a run. -/
def Ends (Q : α → σ → Prop) (E : σ → Prop) : Except ε α × σ → Prop
  | (.ok a, s) => Q a s
  | (.error _, s) => E s

theorem Ends.mono {Q Q' : α → σ → Prop} {E E' : σ → Prop} {x : Except ε α × σ} (h : Ends Q E x)
    (hQ : ∀ a s, Q a s → Q' a s) (hE : ∀ s, E s → E' s) : Ends Q' E' x := by
  obtain ⟨_ | a, s⟩ := x
  · exact hE s h
  · exact hQ a s h

def Triple (H : Handler Op Res ε σ) (P : σ → Prop) (p : Prog Op Res ε α) (Q : α → σ → Prop)
    (E : σ → Prop) : Prop :=
  ∀ s, P s → Ends Q E (p.exec H s)

namespace Triple

variable {H : Handler Op Res ε σ} {P P' : σ → Prop} {Q Q' : α → σ → Prop} {E E' : σ → Prop}

/-- The rule of consequence. -/
theorem conseq {p : Prog Op Res ε α} (h : Triple H P p Q E) (hP : ∀ s, P' s → P s)
    (hQ : ∀ a s, Q a s → Q' a s) (hE : ∀ s, E s → E' s) : Triple H P' p Q' E' :=
  fun s hs => (h s (hP s hs)).mono hQ hE

theorem ret {a : α} (h : ∀ s, P s → Q a s) : Triple H P (pure a) Q E := h

theorem fail {e : ε} (h : ∀ s, P s → E s) : Triple H P (raise e : Prog Op Res ε α) Q E := h

/-- What the precondition says of the values at hand may be used. -/
theorem assuming {p : Prog Op Res ε α} {A : Prop} (hA : ∀ s, P s → A) (h : A → Triple H P p Q E) :
    Triple H P p Q E :=
  fun s hs => h (hA s hs) s hs

theorem lifted {r : Except ε α} (hQ : ∀ a s, r = .ok a → P s → Q a s) (hE : ∀ s, P s → E s) :
    Triple H P (lift r) Q E := by
  cases r with
  | error e => exact fail hE
  | ok a => exact ret fun s hs => hQ a s rfl hs

theorem performed {op : Op} {Q : Res op → σ → Prop} (h : ∀ s, P s → Ends Q E (H op s)) :
    Triple H P (perform op) Q E := by
  intro s hs
  rw [exec_perform]
  exact h s hs

theorem bind {p : Prog Op Res ε α} {f : α → Prog Op Res ε β} {M : α → σ → Prop}
    {Q : β → σ → Prop} (hp : Triple H P p M E) (hf : ∀ a, Triple H (M a) (f a) Q E) :
    Triple H P (p >>= f) Q E := by
  intro s hs
  have h := hp s hs
  rw [exec_bind]
  rcases hexec : p.exec H s with ⟨_ | a, s'⟩ <;> rw [hexec] at h
  · exact h
  · exact hf a s' h

theorem caught {p : Prog Op Res ε α} {handler : ε → Prog Op Res ε α} {F : σ → Prop}
    (hp : Triple H P p Q F) (hh : ∀ e, Triple H F (handler e) Q E) :
    Triple H P (p.tryCatch handler) Q E := by
  intro s hs
  have h := hp s hs
  rw [exec_tryCatch]
  rcases hexec : p.exec H s with ⟨e | a, s'⟩ <;> rw [hexec] at h
  · exact hh e s' h
  · exact h

/-- The loop rule. The invariant may speak of what is left of the list. -/
theorem foldlM {f : β → α → Prog Op Res ε β} {I : List α → β → σ → Prop}
    (hf : ∀ b a l, Triple H (I (a :: l) b) (f b a) (I l) E) (l : List α) (b : β) :
    Triple H (I l b) (l.foldlM f b) (I []) E := by
  induction l generalizing b with
  | nil => exact ret fun _ h => h
  | cons a l ih =>
      rw [List.foldlM_cons]
      exact bind (hf b a l) fun b' => ih b'

theorem forM {f : α → Prog Op Res ε PUnit} {I : List α → σ → Prop}
    (hf : ∀ a l, Triple H (I (a :: l)) (f a) (fun _ => I l) E) (l : List α) :
    Triple H (I l) (l.forM f) (fun _ => I []) E := by
  induction l with
  | nil => exact ret fun _ h => h
  | cons a l ih => exact bind (hf a l) fun _ => ih

end Triple

/-! ### A ghost -/

/-- The handler, with a ghost that moves on with every call. -/
def observe (note : G → Op → G) (H : Handler Op Res ε σ) : Handler Op Res ε (G × σ) :=
  fun op s => ((H op s.2).1, note s.1 op, (H op s.2).2)

/-- The ghost does not disturb the run, and ends where its calls lead it. -/
theorem exec_observe (note : G → Op → G) (H : Handler Op Res ε σ) (p : Prog Op Res ε α) (g : G)
    (s : σ) : p.exec (observe note H) (g, s) =
      ((p.exec H s).1, (p.steps H s).foldl (fun g st => note g st.op) g, (p.exec H s).2) := by
  induction p generalizing g s with
  | ret a => rfl
  | raise e => rfl
  | call op k ih => exact ih _ _ _

/-- Calls that leave the ghost alone may be followed without it. -/
theorem Triple.of_exec {note : G → Op → G} {H : Handler Op Res ε σ} {C : Op → Prop}
    (hnote : ∀ g op, C op → note g op = g) {p : Prog Op Res ε α} (hp : p.Within C fun _ => True)
    {P : G × σ → Prop} {Q : α → G × σ → Prop} {E : G × σ → Prop}
    (h : ∀ g, Triple H (fun s => P (g, s)) p (fun a s => Q a (g, s)) fun s => E (g, s)) :
    Triple (observe note H) P p Q E := by
  rintro ⟨g, s⟩ hs
  have hghost : ∀ log : List (Step Op Res ε σ), (∀ st ∈ log, C st.op) →
      log.foldl (fun g st => note g st.op) g = g := by
    intro log hlog
    induction log with
    | nil => rfl
    | cons st log ih =>
        rw [List.foldl_cons, hnote _ _ (hlog st List.mem_cons_self)]
        exact ih fun st' hst => hlog st' (List.mem_cons_of_mem _ hst)
  rw [exec_observe, hghost _ (steps_within hp H s)]
  have hend := h g s hs
  rcases hexec : p.exec H s with ⟨_ | a, s'⟩ <;> rw [hexec] at hend
  · exact hend
  · exact hend

end Prog
