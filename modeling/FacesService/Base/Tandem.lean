import FacesService.Base.Race

/-!
A program in tandem with another. `Trails T D Q p p'` says that `p` makes the calls `p'`
makes, in the same order and with the same consequences, but for calls of its
own that `p'` leaves out; that the values of the two are related by `Q`; and that
where this fails, `p` is bound to make a call it is not to make, or to return a
value in `D`.

In a race the first program may so be compared with one that runs alone: what
the states have in common is a relation that both keep, and that the second
program of the race does not disturb.
-/

namespace Prog

variable {Op Op' : Type} {Res : Op → Type} {Res' : Op' → Type} {ε ε' σ α α' β β' γ : Type}

theorem lift_ok_bind (a : α) (f : α → Prog Op Res ε β) : (lift (.ok a) >>= f) = f a := rfl

theorem lift_error_bind (e : ε) (f : α → Prog Op Res ε β) :
    (lift (.error e : Except ε α) >>= f) = .raise e := rfl

/-! ### Bound to make a call -/

/-- However its calls are answered, the program makes a call in `bad`, raises, or
returns a value in `D`. -/
def Bound (bad : Op → Prop) (D : α → Prop) : Prog Op Res ε α → Prop
  | .ret a => D a
  | .raise _ => True
  | .call op k => bad op ∨ ∀ r, (k r).Bound bad D

section Bound

variable {bad : Op → Prop} {D : α → Prop} {E : β → Prop}

theorem bound_true (p : Prog Op Res ε α) : p.Bound bad fun _ => True := by
  induction p with
  | ret a => trivial
  | raise e => trivial
  | call op k ih => exact .inr ih

theorem bound_pure {a : α} (h : D a) : (pure a : Prog Op Res ε α).Bound bad D := h

theorem bound_lift {r : Except ε α} (h : ∀ a, r = .ok a → D a) :
    (lift r : Prog Op Res ε α).Bound bad D := by
  cases r with
  | error e => trivial
  | ok a => exact h a rfl

theorem bound_perform {op : Op} {D : Res op → Prop} (h : bad op ∨ ∀ a, D a) :
    (perform op : Prog Op Res ε (Res op)).Bound bad D := by
  refine h.imp_right fun h r => ?_
  cases r with
  | error e => trivial
  | ok a => exact h a

theorem bound_bind {p : Prog Op Res ε α} {f : α → Prog Op Res ε β} (hp : p.Bound bad D)
    (hf : ∀ a, D a → (f a).Bound bad E) : (p >>= f).Bound bad E := by
  change (p.bind f).Bound bad E
  induction p with
  | ret a => exact hf a hp
  | raise e => trivial
  | call op k ih => exact hp.imp_right fun h r => ih r (h r)

theorem bound_foldlM {f : α → γ → Prog Op Res ε α} {l : List γ}
    (hf : ∀ a, ∀ c ∈ l, D a → (f a c).Bound bad D) {a : α} (ha : D a) :
    (l.foldlM f a).Bound bad D := by
  induction l generalizing a with
  | nil => exact ha
  | cons c l ih =>
      rw [List.foldlM_cons]
      exact bound_bind (hf a c List.mem_cons_self ha) fun a' ha' =>
        ih (fun a c hc => hf a c (List.mem_cons_of_mem _ hc)) ha'

/-- A loop with a round that makes the call. -/
theorem bound_forM {f : γ → Prog Op Res ε PUnit} {l : List γ} {c : γ} (hc : c ∈ l)
    (h : (f c).Bound bad fun _ => False) : (l.forM f).Bound bad fun _ => False := by
  induction l with
  | nil => cases hc
  | cons d l ih =>
      rcases List.mem_cons.mp hc with rfl | hc
      · exact bound_bind h fun _ => False.elim
      · exact bound_bind (bound_true (f d)) fun _ _ => ih hc

end Bound

/-! ### One program beside another -/

/-- The calls made by both, those the first makes for itself and how they are
answered, those it is not to make; and which answers may differ. -/
structure Tandem (Op : Type) (Res : Op → Type) (ε : Type) where
  shared : Op → Prop
  own : Op → Prop
  apt : (op : Op) → Except ε (Res op) → Prop
  bad : Op → Prop
  alike : (op : Op) → Except ε (Res op) → Except ε (Res op) → Prop

inductive Trails (T : Tandem Op Res ε) (D : α → Prop) (Q : α → α' → Prop) :
    Prog Op Res ε α → Prog Op Res ε α' → Prop
  | ret {a : α} {a' : α'} (h : Q a a') : Trails T D Q (.ret a) (.ret a')
  | raise (e : ε) (p' : Prog Op Res ε α') : Trails T D Q (.raise e) p'
  | call {op : Op} {k : Except ε (Res op) → Prog Op Res ε α} {k' : Except ε (Res op) → Prog Op Res ε α'}
      (hop : T.shared op) (h : ∀ r r', T.alike op r r' → Trails T D Q (k r) (k' r')) :
      Trails T D Q (.call op k) (.call op k')
  | own {op : Op} {k : Except ε (Res op) → Prog Op Res ε α} {p' : Prog Op Res ε α'} (hop : T.own op)
      (h : ∀ r, T.apt op r → Trails T D Q (k r) p') : Trails T D Q (.call op k) p'
  | lost {p : Prog Op Res ε α} {p' : Prog Op Res ε α'} (h : p.Bound T.bad D) : Trails T D Q p p'

namespace Trails

variable {T : Tandem Op Res ε} {D : α → Prop} {E : β → Prop} {Q : α → α' → Prop} {S : β → β' → Prop}

theorem bind {p : Prog Op Res ε α} {p' : Prog Op Res ε α'} {f : α → Prog Op Res ε β}
    {f' : α' → Prog Op Res ε β'} (hp : Trails T D Q p p')
    (hf : ∀ a a', Q a a' → Trails T E S (f a) (f' a')) (hD : ∀ a, D a → (f a).Bound T.bad E) :
    Trails T E S (p >>= f) (p' >>= f') := by
  induction hp with
  | ret h => exact hf _ _ h
  | raise e p' => exact .raise e _
  | call hop _ ih => exact .call hop fun r r' hr => ih r r' hr
  | own hop _ ih => exact .own hop fun r hr => ih r hr
  | lost h => exact .lost (bound_bind h hD)

/-- The same pure computation on both sides. -/
theorem lifted {r : Except ε γ} {f : γ → Prog Op Res ε β} {f' : γ → Prog Op Res ε β'}
    (h : ∀ a, r = .ok a → Trails T E S (f a) (f' a)) : Trails T E S (lift r >>= f) (lift r >>= f') := by
  cases r with
  | error e => exact .raise e _
  | ok a => exact h a rfl

/-- The same call on both sides, answered alike. -/
theorem performed {op : Op} {f : Res op → Prog Op Res ε β} {f' : Res op → Prog Op Res ε β'}
    (hop : T.shared op) (halike : ∀ r r', T.alike op r r' → r = r')
    (h : ∀ a, Trails T E S (f a) (f' a)) : Trails T E S (perform op >>= f) (perform op >>= f') := by
  refine .call hop fun r r' hr => ?_
  obtain rfl := halike r r' hr
  cases r with
  | error e => exact .raise e _
  | ok a => exact h a

/-- A call the other program does not make. -/
theorem performed_own {op : Op} {f : Res op → Prog Op Res ε β} {p' : Prog Op Res ε β'} (hop : T.own op)
    (h : ∀ a, T.apt op (.ok a) → Trails T E S (f a) p') : Trails T E S (perform op >>= f) p' := by
  refine .own hop fun r hr => ?_
  cases r with
  | error e => exact .raise e _
  | ok a => exact h a hr

theorem foldlM {f : α → γ → Prog Op Res ε α} {f' : α' → γ → Prog Op Res ε α'} {l : List γ}
    (hf : ∀ a a', ∀ c ∈ l, Q a a' → Trails T D Q (f a c) (f' a' c))
    (hD : ∀ a, ∀ c ∈ l, D a → (f a c).Bound T.bad D) {a : α} {a' : α'} (h : Q a a') :
    Trails T D Q (l.foldlM f a) (l.foldlM f' a') := by
  induction l generalizing a a' with
  | nil => exact .ret h
  | cons c l ih =>
      rw [List.foldlM_cons, List.foldlM_cons]
      refine (hf a a' c List.mem_cons_self h).bind (fun b b' hb => ?_) fun b hb => ?_
      · exact ih (fun a a' c hc => hf a a' c (List.mem_cons_of_mem _ hc))
          (fun a c hc => hD a c (List.mem_cons_of_mem _ hc)) hb
      · exact bound_foldlM (fun a c hc => hD a c (List.mem_cons_of_mem _ hc)) hb

/-- A program of shared calls trails itself. -/
theorem refl {p : Prog Op Res ε α} (hp : p.Within T.shared fun _ => True)
    (halike : ∀ op r r', T.shared op → T.alike op r r' → r = r') : Trails T D Eq p p := by
  induction p with
  | ret a => exact .ret rfl
  | raise e => exact .raise e _
  | call op k ih =>
      refine .call hp.1 fun r r' hr => ?_
      obtain rfl := halike op r r' hp.1 hr
      exact ih r (hp.2 r fun _ _ => trivial)

end Trails

/-! ### In a race -/

namespace Race

variable {answers : (op : Op) → σ → Except ε (Res op) → σ → Prop}
  {answers' : (op : Op') → σ → Except ε' (Res' op) → σ → Prop}
  {log : List (Event Op Res ε Op' Res' ε' σ)} {r : Except ε α} {r' : Except ε' β} {s s' t : σ}

/-- A program that is bound to make a call, and does not, returns a value in `D`. -/
theorem bound {bad : Op → Prop} {D : α → Prop} {p : Prog Op Res ε α} {q : Prog Op' Res' ε' β}
    (h : Race answers answers' p q s log r r' s') (hp : p.Bound bad D)
    (hbad : ∀ st, .inl st ∈ log → ¬ bad st.op) {a : α} (ha : r = .ok a) : D a := by
  induction h with
  | done r r' s =>
      subst ha
      exact hp
  | first h _ ih =>
      exact ih (hp.resolve_left (hbad _ List.mem_cons_self) _)
        (fun st hst => hbad st (List.mem_cons_of_mem _ hst)) ha
  | second h _ ih => exact ih hp (fun st hst => hbad st (List.mem_cons_of_mem _ hst)) ha

/-- **The tandem rule**: the first program of a race ends
as the one it follows ends alone, and makes no other calls than it is to make. -/
theorem trails {T : Tandem Op Res ε} {D : α → Prop} {Q : α → α' → Prop} {H : Handler Op Res ε σ}
    {R : σ → σ → Prop} {N : Op' → Prop}
    (hshared : ∀ op s a s₁ t, T.shared op → ¬ T.bad op → answers op s a s₁ → R s t →
      T.alike op a (H op t).1 ∧ R s₁ (H op t).2)
    (hown : ∀ op s a s₁ t, T.own op → ¬ T.bad op → answers op s a s₁ → R s t → T.apt op a ∧ R s₁ t)
    (hother : ∀ op s a s₁ t, N op → answers' op s a s₁ → R s t → R s₁ t)
    {p : Prog Op Res ε α} {p' : Prog Op Res ε α'} {q : Prog Op' Res' ε' β}
    (h : Race answers answers' p q s log r r' s') (hp : Trails T D Q p p')
    (hbad : ∀ st, .inl st ∈ log → ¬ T.bad st.op) (hN : ∀ st, .inr st ∈ log → N st.op)
    (hst : R s t) {a : α} (ha : r = .ok a) :
    D a ∨ ∃ a' t', p'.exec H t = (.ok a', t') ∧ Q a a' ∧ R s' t' ∧
      ∀ st, .inl st ∈ log → T.shared st.op ∨ T.own st.op := by
  induction h generalizing p' t with
  | done r r' s =>
      subst ha
      cases hp with
      | ret hQ => exact .inr ⟨_, t, rfl, hQ, hst, by simp⟩
      | lost hD => exact .inl hD
  | @first op k q s s₁ s' b log r r' h hrest ih =>
      have hop := hbad _ List.mem_cons_self
      have hbad' : ∀ st, .inl st ∈ log → ¬ T.bad st.op := fun st hst =>
        hbad st (List.mem_cons_of_mem _ hst)
      have hN' : ∀ st, .inr st ∈ log → N st.op := fun st hst => hN st (List.mem_cons_of_mem _ hst)
      have hmade : T.shared op ∨ T.own op → (∀ st, .inl st ∈ log → T.shared st.op ∨ T.own st.op) →
          ∀ st, .inl st ∈ .inl ⟨op, b, s, s₁⟩ :: log → T.shared st.op ∨ T.own st.op := by
        intro hfirst hlog st hst
        rcases List.mem_cons.mp hst with heq | hst
        · cases heq
          exact hfirst
        · exact hlog st hst
      cases hp with
      | call hshare hk =>
          obtain ⟨halike, hR⟩ := hshared op s b s₁ t hshare hop h hst
          refine (ih (hk b _ halike) hbad' hN' hR ha).imp_right ?_
          rintro ⟨a', t', hexec, hQ, hR', hlog⟩
          exact ⟨a', t', hexec, hQ, hR', hmade (.inl hshare) hlog⟩
      | own howns hk =>
          obtain ⟨hapt, hR⟩ := hown op s b s₁ t howns hop h hst
          refine (ih (hk b hapt) hbad' hN' hR ha).imp_right ?_
          rintro ⟨a', t', hexec, hQ, hR', hlog⟩
          exact ⟨a', t', hexec, hQ, hR', hmade (.inr howns) hlog⟩
      | lost hlost => exact .inl (hrest.bound (hlost.resolve_left hop b) hbad' ha)
  | @second p op k s s₁ s' b log r r' h _ ih =>
      refine (ih hp (fun st hst => hbad st (List.mem_cons_of_mem _ hst))
        (fun st hst => hN st (List.mem_cons_of_mem _ hst))
        (hother op s b s₁ t (hN _ List.mem_cons_self) h hst) ha).imp_right ?_
      rintro ⟨a', t', hexec, hQ, hR', hlog⟩
      refine ⟨a', t', hexec, hQ, hR', fun st hst => ?_⟩
      rcases List.mem_cons.mp hst with heq | hst
      · cases heq
      · exact hlog st hst

end Race

end Prog
