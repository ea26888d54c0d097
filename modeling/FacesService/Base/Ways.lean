import FacesService.Base.Race

/-!
How far a program has come. In a race one looks at the moment of some call: the
other program has come from its start to a rest of itself, alone, and the race
goes on from there.
-/

namespace Prog

variable {Op Op' : Type} {Res : Op → Type} {Res' : Op' → Type} {ε ε' σ α β γ : Type}
  {answers : (op : Op) → σ → Except ε (Res op) → σ → Prop}
  {answers' : (op : Op') → σ → Except ε' (Res' op) → σ → Prop}

theorem perform_bind_bind (op : Op) (f : Res op → Prog Op Res ε α) (g : α → Prog Op Res ε β) :
    ((perform op >>= f) >>= g) = perform op >>= fun a => f a >>= g := by
  refine congrArg (Prog.call op) (funext fun r => ?_)
  cases r <;> rfl

/-! ### What a race shows -/

namespace Race

variable {log : List (Event Op Res ε Op' Res' ε' σ)} {r : Except ε α} {r' : Except ε' β} {s s' : σ}
  {p : Prog Op Res ε α} {q : Prog Op' Res' ε' β}

/-- The calls of the first program are such as it makes. -/
theorem made {P : Op → Prop} (h : Race answers answers' p q s log r r' s')
    (hp : p.Within P fun _ => True) : ∀ st, .inl st ∈ log → P st.op := by
  induction h with
  | done => simp
  | first h _ ih =>
      intro st hst
      rcases List.mem_cons.mp hst with heq | hst
      · cases heq
        exact hp.1
      · exact ih (hp.2 _ fun _ _ => trivial) st hst
  | second h _ ih =>
      intro st hst
      rcases List.mem_cons.mp hst with heq | hst
      · cases heq
      · exact ih hp st hst

/-- The race rule, for the calls that are made in the race. -/
theorem keeps {P : Op → Prop} {N : Op' → Prop} {I : σ → Prop}
    (hfirst : ∀ op s a s', P op → answers op s a s' → I s → I s')
    (hsecond : ∀ op s a s', N op → answers' op s a s' → I s → I s')
    (h : Race answers answers' p q s log r r' s') (hP : ∀ st, .inl st ∈ log → P st.op)
    (hN : ∀ st, .inr st ∈ log → N st.op) (hs : I s) : I s' := by
  induction h with
  | done => exact hs
  | first h _ ih =>
      exact ih (fun st hst => hP st (List.mem_cons_of_mem _ hst))
        (fun st hst => hN st (List.mem_cons_of_mem _ hst))
        (hfirst _ _ _ _ (hP _ List.mem_cons_self) h hs)
  | second h _ ih =>
      exact ih (fun st hst => hP st (List.mem_cons_of_mem _ hst))
        (fun st hst => hN st (List.mem_cons_of_mem _ hst))
        (hsecond _ _ _ _ (hN _ List.mem_cons_self) h hs)

theorem swap (h : Race answers answers' p q s log r r' s') :
    Race answers' answers q p s (log.map Sum.swap) r' r s' := by
  induction h with
  | done r r' s => exact .done r' r s
  | first h _ ih => exact .second h ih
  | second h _ ih => exact .first h ih

/-- And so are those of the second. -/
theorem made_second {N : Op' → Prop} (h : Race answers answers' p q s log r r' s')
    (hq : q.Within N fun _ => True) : ∀ st, .inr st ∈ log → N st.op := fun st hst =>
  h.swap.made hq st (List.mem_map.mpr ⟨.inr st, hst, rfl⟩)

/-- The first program as a whole, and then the second. -/
theorem one_by_one (H : Handler Op Res ε σ) (H' : Handler Op' Res' ε' σ)
    (hH : ∀ op s, answers op s (H op s).1 (H op s).2)
    (hH' : ∀ op s, answers' op s (H' op s).1 (H' op s).2) (p : Prog Op Res ε α)
    (q : Prog Op' Res' ε' β) (s : σ) :
    Race answers answers' p q s ((p.steps H s).map .inl ++ (q.steps H' (p.exec H s).2).map .inr)
      (p.exec H s).1 (q.exec H' (p.exec H s).2).1 (q.exec H' (p.exec H s).2).2 := by
  have hsecond : ∀ (r : Except ε α) (q : Prog Op' Res' ε' β) (s : σ),
      Race answers answers' (lift r) q s ((q.steps H' s).map .inr) r (q.exec H' s).1 (q.exec H' s).2 := by
    intro r q s
    induction q generalizing s with
    | ret b => exact .done r (.ok b) s
    | raise e => exact .done r (.error e) s
    | call op k ih => exact .second (hH' op s) (ih _ _)
  induction p generalizing s with
  | ret a => exact hsecond (.ok a) q s
  | raise e => exact hsecond (.error e) q s
  | call op k ih => exact .first (hH op s) (ih _ _)

/-- The first program as a whole, between two calls of the second. -/
theorem amid (H : Handler Op Res ε σ) (H' : Handler Op' Res' ε' σ)
    (hH : ∀ op s, answers op s (H op s).1 (H op s).2)
    (hH' : ∀ op s, answers' op s (H' op s).1 (H' op s).2) (n : Nat) (p : Prog Op Res ε α)
    (q : Prog Op' Res' ε' β) (s : σ) :
    Race answers answers' p q s
      (((q.steps H' s).take n).map .inr ++ ((p.steps H (after H' n q s).2).map .inl ++
        ((after H' n q s).1.steps H' (p.exec H (after H' n q s).2).2).map .inr))
      (p.exec H (after H' n q s).2).1 ((after H' n q s).1.exec H' (p.exec H (after H' n q s).2).2).1
      ((after H' n q s).1.exec H' (p.exec H (after H' n q s).2).2).2 := by
  induction n generalizing q s with
  | zero => exact one_by_one H H' hH hH' p q s
  | succ n ih =>
      cases q with
      | ret b => exact one_by_one H H' hH hH' p _ s
      | raise e => exact one_by_one H H' hH hH' p _ s
      | call op k => exact .second (hH' op s) (ih _ _)

theorem raised {e : ε'} (h : Race answers answers' p (.raise e) s log r r' s') : r' = .error e := by
  generalize hq : Prog.raise e = q at h
  induction h with
  | done r r' s =>
      cases r' with
      | error e' =>
          cases hq
          rfl
      | ok b => cases hq
  | first _ _ ih => exact ih hq
  | second _ _ _ => cases hq

end Race

/-! ### A part of a way -/

/-- Alone, `p` comes from `s` to the rest `p'` in `s'` by the steps of the log. -/
inductive Goes (answers : (op : Op) → σ → Except ε (Res op) → σ → Prop) :
    Prog Op Res ε α → σ → List (Step Op Res ε σ) → Prog Op Res ε α → σ → Prop
  | refl (p : Prog Op Res ε α) (s : σ) : Goes answers p s [] p s
  | call {op : Op} {k : Except ε (Res op) → Prog Op Res ε α} {a : Except ε (Res op)} {s s₁ s' : σ}
      {p' : Prog Op Res ε α} {log : List (Step Op Res ε σ)} (h : answers op s a s₁)
      (hrest : Goes answers (k a) s₁ log p' s') :
      Goes answers (.call op k) s (⟨op, a, s, s₁⟩ :: log) p' s'

namespace Goes

variable {p p' : Prog Op Res ε α} {s s' : σ} {log : List (Step Op Res ε σ)}

/-- Whoever has come a part of the way ends where the whole way does. -/
theorem exec {H : Handler Op Res ε σ} (hH : ∀ op s a s', answers op s a s' → H op s = (a, s'))
    (h : Goes answers p s log p' s') : p.exec H s = p'.exec H s' := by
  induction h with
  | refl => rfl
  | call h _ ih =>
      rw [Prog.exec, hH _ _ _ _ h]
      exact ih

theorem within {P : Op → Prop} (h : Goes answers p s log p' s') (hp : p.Within P fun _ => True) :
    p'.Within P fun _ => True := by
  induction h with
  | refl => exact hp
  | call _ _ ih => exact ih (hp.2 _ fun _ _ => trivial)

/-- What the calls of a program keep, it keeps up to wherever it has come. -/
theorem keeps {H : Handler Op Res ε σ} (hH : ∀ op s a s', answers op s a s' → H op s = (a, s'))
    {P : Op → Prop} {I : σ → Prop} (hcall : ∀ op s, P op → I s → I (H op s).2)
    (h : Goes answers p s log p' s') (hp : p.Within P fun _ => True) (hs : I s) : I s' := by
  induction h with
  | refl => exact hs
  | @call op k a s s₁ s' p' log h _ ih =>
      have hnext := hcall op s hp.1 hs
      rw [hH op s a s₁ h] at hnext
      exact ih (hp.2 _ fun _ _ => trivial) hnext

/-- Before its first call, after it, or at an error. -/
theorem performed {op : Op} {f : Res op → Prog Op Res ε α} (h : Goes answers (perform op >>= f) s log p' s') :
    (log = [] ∧ p' = (perform op >>= f) ∧ s' = s) ∨
    (∃ a s₁ rest, answers op s (.ok a) s₁ ∧ log = ⟨op, .ok a, s, s₁⟩ :: rest ∧
      Goes answers (f a) s₁ rest p' s') ∨
    ∃ e, p' = .raise e := by
  generalize hq : (perform op >>= f) = q at h
  cases h with
  | refl => exact .inl ⟨rfl, rfl, rfl⟩
  | @call op' k a s s₁ s' p' rest h hrest =>
      cases hq
      cases a with
      | error e =>
          cases hrest
          exact .inr (.inr ⟨e, rfl⟩)
      | ok a => exact .inr (.inl ⟨a, s₁, rest, h, rfl, hrest⟩)

end Goes

/-! ### Up to a call -/

namespace Race

variable {p : Prog Op Res ε α} {s s' : σ} {log : List (Event Op Res ε Op' Res' ε' σ)} {r : Except ε α}

/-- A race up to the first call of the second program. -/
theorem until_second {op : Op'} {k : Except ε' (Res' op) → Prog Op' Res' ε' β} {r' : Except ε' β}
    (h : Race answers answers' p (.call op k) s log r r' s') :
    ∃ p₁ s₁ a s₂ before rest, Goes answers p s before p₁ s₁ ∧ answers' op s₁ a s₂ ∧
      log = before.map .inl ++ .inr ⟨op, a, s₁, s₂⟩ :: rest ∧
      Race answers answers' p₁ (k a) s₂ rest r r' s' := by
  generalize hq : Prog.call op k = q at h
  induction h with
  | done r r' s => exact absurd hq.symm (Race.lift_ne_call r' op k)
  | @first op' k' q s s₁ s' b log r r' h _ ih =>
      obtain ⟨p₁, s₂, a, s₃, before, rest, hgoes, hanswer, rfl, hrace⟩ := ih hq
      exact ⟨p₁, s₂, a, s₃, _ :: before, rest, .call h hgoes, hanswer, rfl, hrace⟩
  | @second p op' k' s s₁ s' b log r r' h hrest ih =>
      cases hq
      exact ⟨p, s, b, s₁, [], log, .refl p s, h, rfl, hrest⟩

/-- A second program that returns has had its first call answered. -/
theorem until_performed {op : Op'} {f : Res' op → Prog Op' Res' ε' β} {b : β}
    (h : Race answers answers' p (perform op >>= f) s log r (.ok b) s') :
    ∃ p₁ s₁ a s₂ before rest, Goes answers p s before p₁ s₁ ∧ answers' op s₁ (.ok a) s₂ ∧
      log = before.map .inl ++ .inr ⟨op, .ok a, s₁, s₂⟩ :: rest ∧
      Race answers answers' p₁ (f a) s₂ rest r (.ok b) s' := by
  obtain ⟨p₁, s₁, a, s₂, before, rest, hgoes, hanswer, hlog, hrace⟩ := until_second h
  cases a with
  | error e => cases hrace.raised
  | ok a => exact ⟨p₁, s₁, a, s₂, before, rest, hgoes, hanswer, hlog, hrace⟩

/-- A race up to the first call of the first program, which returns. -/
theorem until_first {op : Op} {f : Res op → Prog Op Res ε α} {a : α} {q : Prog Op' Res' ε' β}
    {r' : Except ε' β} (h : Race answers answers' (perform op >>= f) q s log (.ok a) r' s') :
    ∃ q₁ s₁ b s₂ before rest, Goes answers' q s before q₁ s₁ ∧ answers op s₁ (.ok b) s₂ ∧
      log = before.map .inr ++ .inl ⟨op, .ok b, s₁, s₂⟩ :: rest ∧
      Race answers answers' (f b) q₁ s₂ rest (.ok a) r' s' := by
  obtain ⟨q₁, s₁, b, s₂, before, rest, hgoes, hanswer, hlog, hrace⟩ := h.swap.until_performed
  refine ⟨q₁, s₁, b, s₂, before, rest.map Sum.swap, hgoes, hanswer, ?_, hrace.swap⟩
  have hswap := congrArg (List.map Sum.swap) hlog
  rw [List.map_map, Sum.swap_swap_eq, List.map_id] at hswap
  rw [hswap]
  simp [Function.comp_def]

end Race

end Prog
