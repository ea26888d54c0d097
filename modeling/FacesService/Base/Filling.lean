import FacesService.Base.Probe
import Mathlib.Data.Set.Insert

/-!
Filling places by linear probing. Every newcomer takes the first place from its
own on that is free. Which newcomer ends up where depends on the order in which
they come; which places are taken in the end does not.
-/

namespace Probe

variable {α : Type} {next : α → α}

/-- A newcomer for `t` takes the place `t'`. -/
def Lands (next : α → α) (taken : Set α) (t t' : α) : Prop :=
  t' ∉ taken ∧ ∃ k, t' = next^[k] t ∧ ∀ j < k, next^[j] t ∈ taken

namespace Lands

variable {taken : Set α} {a b x y : α}

/-- There is one place to take. -/
theorem unique (h : Lands next taken a x) (h' : Lands next taken a y) : x = y := by
  obtain ⟨hx, k, rfl, htaken⟩ := h
  obtain ⟨hy, k', rfl, htaken'⟩ := h'
  rcases Nat.lt_trichotomy k k' with hlt | rfl | hlt
  · exact absurd (htaken' k hlt) hx
  · rfl
  · exact absurd (htaken k' hlt) hy

/-- Where the place of the first is on the way of the second, the second would
have taken it. -/
theorem of_insert (h : Lands next (insert x taken) b y) :
    Lands next taken b y ∨ Lands next taken b x := by
  obtain ⟨hy, k, rfl, htaken⟩ := h
  by_cases hpass : ∃ j < k, next^[j] b ∉ taken
  · classical
    obtain ⟨hj, hfree⟩ := Nat.find_spec hpass
    set j := Nat.find hpass
    have hx : next^[j] b = x := by
      rcases Set.mem_insert_iff.mp (htaken j hj) with heq | hmem
      · exact heq
      · exact absurd hmem hfree
    refine .inr ⟨hx ▸ hfree, j, hx.symm, fun i hi => ?_⟩
    by_contra hnot
    exact Nat.find_min hpass hi ⟨by omega, hnot⟩
  · refine .inl ⟨fun hmem => hy (Set.mem_insert_of_mem _ hmem), k, rfl, fun j hj => ?_⟩
    by_contra hnot
    exact hpass ⟨j, hj, hnot⟩

/-- One place more is taken, and not on the way. -/
theorem insert_of_ne (h : Lands next taken a x) (hne : y ≠ x) : Lands next (insert y taken) a x := by
  obtain ⟨hx, k, rfl, htaken⟩ := h
  refine ⟨fun hmem => ?_, k, rfl, fun j hj => Set.mem_insert_of_mem _ (htaken j hj)⟩
  rcases Set.mem_insert_iff.mp hmem with heq | hmem
  · exact hne heq.symm
  · exact hx hmem

/-- Two newcomers that want the same place: the second goes on from there,
whichever of them it is. -/
theorem go_on (ha : Lands next taken a x) (hb : Lands next taken b x)
    (h : Lands next (insert x taken) b y) : Lands next (insert x taken) a y := by
  obtain ⟨hx, k, hk, htaken⟩ := ha
  obtain ⟨-, m, hm, htaken'⟩ := hb
  obtain ⟨hy, n, rfl, hway⟩ := h
  -- the way of the second runs through the contested place
  have hmn : m < n := by
    by_contra hge
    have hnm : n ≤ m := by omega
    rcases Nat.lt_or_eq_of_le hnm with hlt | rfl
    · exact hy (Set.mem_insert_of_mem _ (htaken' n hlt))
    · exact hy (Set.mem_insert_iff.mpr (.inl hm.symm))
  refine ⟨hy, k + (n - m), ?_, fun j hj => ?_⟩
  · rw [Nat.add_comm, Function.iterate_add_apply, ← hk, hm, ← Function.iterate_add_apply]
    congr 1
    omega
  · by_cases hlt : j < k
    · exact Set.mem_insert_of_mem _ (htaken j hlt)
    · have hback : next^[j] a = next^[j - k + m] b := by
        rw [Function.iterate_add_apply, ← hm, hk, ← Function.iterate_add_apply]
        congr 1
        omega
      rw [hback]
      exact hway _ (by omega)

/-- **Exchange.** Two newcomers take the same two places in either order. -/
theorem exchange (ha : Lands next taken a x) (hb : Lands next (insert x taken) b y) :
    ∃ x' y', Lands next taken b x' ∧ Lands next (insert x' taken) a y' ∧
      (insert y (insert x taken) : Set α) = insert y' (insert x' taken) := by
  rcases hb.of_insert with hfree | hsame
  · have hne : y ≠ x := fun heq => hb.1 (heq ▸ Set.mem_insert _ _)
    exact ⟨y, x, hfree, ha.insert_of_ne hne, Set.insert_comm _ _ _⟩
  · exact ⟨x, y, hsame, ha.go_on hsame hb, rfl⟩

end Lands

/-- Newcomers take their places one after the other. -/
inductive Fills (next : α → α) : Set α → List α → Set α → Prop
  | nil {taken : Set α} : Fills next taken [] taken
  | cons {taken taken' : Set α} {t t' : α} {ts : List α} (h : Lands next taken t t')
      (hrest : Fills next (insert t' taken) ts taken') : Fills next taken (t :: ts) taken'

namespace Fills

variable {taken taken₁ taken' : Set α} {ts ts' : List α}

theorem unique (h : Fills next taken ts taken₁) (h' : Fills next taken ts taken') :
    taken₁ = taken' := by
  induction h with
  | nil =>
      cases h'
      rfl
  | cons hland _ ih =>
      cases h' with
      | cons hland' hrest' =>
          cases hland.unique hland'
          exact ih hrest'

theorem append (h : Fills next taken ts taken₁) (h' : Fills next taken₁ ts' taken') :
    Fills next taken (ts ++ ts') taken' := by
  induction h with
  | nil => exact h'
  | cons hland _ ih => exact .cons hland (ih h')

/-- The taken places do not depend on the order. -/
theorem perm (hperm : ts.Perm ts') (h : Fills next taken ts taken') : Fills next taken ts' taken' := by
  induction hperm generalizing taken with
  | nil => exact h
  | cons a _ ih =>
      cases h with
      | cons hland hrest => exact .cons hland (ih hrest)
  | swap a b ts =>
      cases h with
      | cons hb hrest =>
          cases hrest with
          | cons ha hrest =>
              obtain ⟨x', y', hfirst, hsecond, hset⟩ := hb.exchange ha
              exact .cons hfirst (.cons hsecond (hset ▸ hrest))
  | trans _ _ ih ih' => exact ih' (ih h)

end Fills

end Probe
