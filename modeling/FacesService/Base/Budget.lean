import FacesService.Base.Prog

/-!
What a program may still cost, whatever it is told.

`Costs cost told n p` bounds the cost of the calls of `p` as long as the answers
are such as `told` has them. `Always Q p` says `Q` of `p` and of all that can be
left of it, whatever has been answered so far. Together they bound the cost from
any moment on at which the answers begin to be restricted.
-/

namespace Prog

variable {Op : Type} {Res : Op → Type} {ε α β : Type}

/-- Being told only what `told` allows, the program makes calls of at most this cost. -/
def Costs (cost : Op → Nat) (told : (op : Op) → Except ε (Res op) → Prop) : Nat → Prog Op Res ε α → Prop
  | n, .call op k => cost op ≤ n ∧ ∀ r, told op r → Costs cost told (n - cost op) (k r)
  | _, _ => True

/-- `Q` holds of the program and of all it can become. -/
def Always (Q : Prog Op Res ε α → Prop) : Prog Op Res ε α → Prop
  | .call op k => Q (.call op k) ∧ ∀ r, Always Q (k r)
  | p => Q p

section Costs

variable {cost : Op → Nat} {told : (op : Op) → Except ε (Res op) → Prop} {n m : Nat}

theorem Costs.mono {p : Prog Op Res ε α} (h : Costs cost told n p) (hnm : n ≤ m) : Costs cost told m p := by
  induction p generalizing n m with
  | call op k ih => exact ⟨Nat.le_trans h.1 hnm, fun r hr => ih r (h.2 r hr) (Nat.sub_le_sub_right hnm _)⟩
  | _ => trivial

theorem costs_pure (a : α) : Costs cost told n (pure a : Prog Op Res ε α) := trivial

theorem costs_raise (e : ε) : Costs cost told n (raise e : Prog Op Res ε α) := trivial

theorem costs_perform {op : Op} (h : cost op ≤ n) :
    Costs cost told n (perform op : Prog Op Res ε (Res op)) := by
  refine ⟨h, fun r _ => ?_⟩
  cases r <;> trivial

/-- What a sequence costs. -/
theorem costs_bind {p : Prog Op Res ε α} {f : α → Prog Op Res ε β} (hp : Costs cost told n p)
    (hf : ∀ a, Costs cost told m (f a)) : Costs cost told (n + m) (p >>= f) := by
  change Costs cost told (n + m) (p.bind f)
  induction p generalizing n with
  | ret a => exact (hf a).mono (Nat.le_add_left m n)
  | raise e => trivial
  | call op k ih =>
      refine ⟨Nat.le_trans hp.1 (Nat.le_add_right n m), fun r hr => ?_⟩
      rw [Nat.sub_add_comm hp.1]
      exact ih r (hp.2 r hr)

/-- Calls that cost nothing. -/
theorem costs_of_within {P : Op → Prop} (hP : ∀ op, P op → cost op = 0)
    {p : Prog Op Res ε α} (hp : p.Within P fun _ => True) : Costs cost told n p := by
  induction p generalizing n with
  | call op k ih =>
      refine ⟨Nat.le_trans (Nat.le_of_eq (hP op hp.1)) (Nat.zero_le n), fun r _ => ?_⟩
      exact ih r (hp.2 r fun _ _ => trivial)
  | _ => trivial

end Costs

section Always

variable {Q : Prog Op Res ε α → Prop}

theorem Always.here {p : Prog Op Res ε α} (h : Always Q p) : Q p := by
  cases p with
  | call op k => exact h.1
  | _ => exact h

theorem Always.next {op : Op} {k : Except ε (Res op) → Prog Op Res ε α} (h : Always Q (.call op k))
    (r : Except ε (Res op)) : Always Q (k r) :=
  h.2 r

theorem Always.mono {Q' : Prog Op Res ε α → Prop} {p : Prog Op Res ε α} (h : Always Q p)
    (hQ : ∀ p, Q p → Q' p) : Always Q' p := by
  induction p with
  | call op k ih => exact ⟨hQ _ h.1, fun r => ih r (h.2 r)⟩
  | _ => exact hQ _ h

/-- What is left of a sequence is a rest of the first part, or of the second. -/
theorem always_bind {Q : Prog Op Res ε β → Prop} {p : Prog Op Res ε α} {f : α → Prog Op Res ε β}
    (hp : Always (fun p' => Q (p' >>= f)) p) (hf : ∀ a, Always Q (f a)) : Always Q (p >>= f) := by
  change Always Q (p.bind f)
  induction p with
  | ret a => exact hf a
  | raise e => exact hp
  | call op k ih => exact ⟨hp.1, fun r => ih r (hp.2 r)⟩

/-- A bound that needs no restriction holds from any moment on. -/
theorem Costs.always {cost : Op → Nat} {told : (op : Op) → Except ε (Res op) → Prop} {n : Nat}
    {p : Prog Op Res ε α} (h : Costs cost (fun _ _ => True) n p) : Always (Costs cost told n) p := by
  induction p generalizing n with
  | call op k ih =>
      constructor
      · exact ⟨h.1, fun r _ => (ih r (h.2 r trivial)).here⟩
      · intro r
        apply (ih r (h.2 r trivial)).mono
        exact fun p hp => hp.mono (Nat.sub_le n _)
  | _ => exact h

/-- A sequence keeps to a bound that the rests of its first part leave room under. -/
theorem always_costs_bind {cost : Op → Nat} {told : (op : Op) → Except ε (Res op) → Prop} {n m l : Nat}
    {p : Prog Op Res ε α} {f : α → Prog Op Res ε β} (hp : Always (Costs cost told n) p)
    (hf : ∀ a, Costs cost told m (f a)) (hl : n + m ≤ l) (hlater : ∀ a, Always (Costs cost told l) (f a)) :
    Always (Costs cost told l) (p >>= f) := by
  apply always_bind _ hlater
  apply hp.mono
  exact fun p' hp' => (costs_bind hp' hf).mono hl

end Always

end Prog
