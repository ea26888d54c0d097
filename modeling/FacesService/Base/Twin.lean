import FacesService.Base.Prog

/-!
One program run twice, from two states, possibly against two handlers: Hoare
rules for a pair of runs that are to answer alike. `Twin H G R p S E` says that
runs from states related by `R` end with the same value in states related by
`S`, or with the same error in states related by `E`.

What two runs may not differ in is thereby a property of the program, proved
along its text; where the states differ, only the rule for a call has to know.
-/

namespace Prog

variable {Op : Type} {Res : Op → Type} {ε σ τ α β : Type}

/-- Two ends of a run: the same value or the same error, and related states. -/
def Alike (S : α → σ → τ → Prop) (E : σ → τ → Prop) : Except ε α × σ → Except ε α × τ → Prop
  | (.ok a, s), (.ok b, t) => a = b ∧ S a s t
  | (.error e, s), (.error e', t) => e = e' ∧ E s t
  | _, _ => False

theorem Alike.mono {S S' : α → σ → τ → Prop} {E E' : σ → τ → Prop} {x : Except ε α × σ}
    {y : Except ε α × τ} (h : Alike S E x y) (hS : ∀ a s t, S a s t → S' a s t)
    (hE : ∀ s t, E s t → E' s t) : Alike S' E' x y := by
  obtain ⟨_ | a, s⟩ := x
  · obtain ⟨_ | b, t⟩ := y
    · exact ⟨h.1, hE _ _ h.2⟩
    · exact h
  · obtain ⟨_ | b, t⟩ := y
    · exact h
    · exact ⟨h.1, hS _ _ _ h.2⟩

/-- The response is the same, whatever the states are. -/
theorem Alike.result {S : α → σ → τ → Prop} {E : σ → τ → Prop} {x : Except ε α × σ}
    {y : Except ε α × τ} (h : Alike S E x y) : x.1 = y.1 := by
  obtain ⟨_ | a, s⟩ := x
  · obtain ⟨_ | b, t⟩ := y
    · exact congrArg _ h.1
    · exact h.elim
  · obtain ⟨_ | b, t⟩ := y
    · exact h.elim
    · exact congrArg _ h.1

theorem Alike.states {T : σ → τ → Prop} {x : Except ε α × σ} {y : Except ε α × τ}
    (h : Alike (fun _ => T) T x y) : T x.2 y.2 := by
  obtain ⟨_ | a, s⟩ := x
  · obtain ⟨_ | b, t⟩ := y
    · exact h.2
    · exact h.elim
  · obtain ⟨_ | b, t⟩ := y
    · exact h.elim
    · exact h.2

def Twin (H : Handler Op Res ε σ) (G : Handler Op Res ε τ) (R : σ → τ → Prop)
    (p : Prog Op Res ε α) (S : α → σ → τ → Prop) (E : σ → τ → Prop) : Prop :=
  ∀ s t, R s t → Alike S E (p.exec H s) (p.exec G t)

namespace Twin

variable {H : Handler Op Res ε σ} {G : Handler Op Res ε τ} {R R' : σ → τ → Prop}
  {S S' : α → σ → τ → Prop} {E E' : σ → τ → Prop}

/-- The rule of consequence. -/
theorem conseq {p : Prog Op Res ε α} (h : Twin H G R p S E) (hR : ∀ s t, R' s t → R s t)
    (hS : ∀ a s t, S a s t → S' a s t) (hE : ∀ s t, E s t → E' s t) : Twin H G R' p S' E' :=
  fun s t hst => (h s t (hR s t hst)).mono hS hE

theorem ret {a : α} (h : ∀ s t, R s t → S a s t) : Twin H G R (pure a) S E :=
  fun s t hst => ⟨rfl, h s t hst⟩

theorem fail {e : ε} (h : ∀ s t, R s t → E s t) : Twin H G R (raise e : Prog Op Res ε α) S E :=
  fun s t hst => ⟨rfl, h s t hst⟩

/-- What the relation says of the values at hand may be used. -/
theorem assuming {p : Prog Op Res ε α} {P : Prop} (hP : ∀ s t, R s t → P)
    (h : P → Twin H G R p S E) : Twin H G R p S E :=
  fun s t hst => h (hP s t hst) s t hst

theorem lifted {r : Except ε α} (hS : ∀ a s t, r = .ok a → R s t → S a s t)
    (hE : ∀ s t, R s t → E s t) : Twin H G R (lift r) S E := by
  cases r with
  | error e => exact fail hE
  | ok a => exact ret fun s t hst => hS a s t rfl hst

theorem performed {op : Op} {S : Res op → σ → τ → Prop}
    (h : ∀ s t, R s t → Alike S E (H op s) (G op t)) : Twin H G R (perform op) S E := by
  intro s t hst
  rw [exec_perform, exec_perform]
  exact h s t hst

theorem bind {p : Prog Op Res ε α} {f : α → Prog Op Res ε β} {M : α → σ → τ → Prop}
    {S : β → σ → τ → Prop} (hp : Twin H G R p M E) (hf : ∀ a, Twin H G (M a) (f a) S E) :
    Twin H G R (p >>= f) S E := by
  intro s t hst
  have h := hp s t hst
  rw [exec_bind, exec_bind]
  rcases hs : p.exec H s with ⟨_ | a, s'⟩ <;> rcases ht : p.exec G t with ⟨_ | b, t'⟩ <;>
    rw [hs, ht] at h
  · exact h
  · exact h.elim
  · exact h.elim
  · obtain ⟨rfl, hM⟩ := h
    exact hf a s' t' hM

theorem caught {p : Prog Op Res ε α} {handler : ε → Prog Op Res ε α} {F : σ → τ → Prop}
    (hp : Twin H G R p S F) (hh : ∀ e, Twin H G F (handler e) S E) :
    Twin H G R (p.tryCatch handler) S E := by
  intro s t hst
  have h := hp s t hst
  rw [exec_tryCatch, exec_tryCatch]
  rcases hs : p.exec H s with ⟨e | a, s'⟩ <;> rcases ht : p.exec G t with ⟨e' | b, t'⟩ <;>
    rw [hs, ht] at h
  · obtain ⟨rfl, hF⟩ := h
    exact hh e s' t' hF
  · exact h.elim
  · exact h.elim
  · exact h

/-- The loop rule: a relation on the accumulator and the states is kept. -/
theorem foldlM {f : β → α → Prog Op Res ε β} {I : β → σ → τ → Prop} {l : List α}
    (hf : ∀ b, ∀ a ∈ l, Twin H G (I b) (f b a) I E) (b : β) : Twin H G (I b) (l.foldlM f b) I E := by
  induction l generalizing b with
  | nil => exact ret fun _ _ h => h
  | cons a l ih =>
      rw [List.foldlM_cons]
      exact bind (hf b a List.mem_cons_self) fun b' =>
        ih (fun b a ha => hf b a (List.mem_cons_of_mem _ ha)) b'

theorem forM {f : α → Prog Op Res ε PUnit} {l : List α}
    (hf : ∀ a ∈ l, Twin H G R (f a) (fun _ => R) E) : Twin H G R (l.forM f) (fun _ => R) E := by
  induction l with
  | nil => exact ret fun _ _ h => h
  | cons a l ih =>
      exact bind (hf a List.mem_cons_self) fun _ => ih fun a ha => hf a (List.mem_cons_of_mem _ ha)

end Twin

end Prog
