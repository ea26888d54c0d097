import Mathlib.Data.Finset.Card
import Mathlib.Data.List.Dedup
import Mathlib.Logic.Function.Iterate
import Mathlib.Order.Monotone.Basic
import Mathlib.Data.Fintype.Card

/-!
Linear probing: `while t in occupied: t = next(t)`.

The loop is run with one unit of fuel more than there are occupied places.
This is not a cut: a probe that finds all of `occupied.length + 1` places taken
has come back to one it saw, and never ends (`probe_eq_none_iff`).
-/

namespace Probe

variable {α : Type} [DecidableEq α]

def probeFrom (next : α → α) (occupied : List α) : ℕ → α → Option α
  | 0, _ => none
  | fuel + 1, t => if t ∈ occupied then probeFrom next occupied fuel (next t) else some t

/-- The first free place from `t` on, or `none` when the loop never ends. -/
def probe (next : α → α) (occupied : List α) (t : α) : Option α :=
  probeFrom next occupied (occupied.length + 1) t

variable {next : α → α} {occupied : List α} {t t' : α}

theorem probeFrom_eq_some {fuel : ℕ} (h : probeFrom next occupied fuel t = some t') :
    t' ∉ occupied ∧ ∃ k < fuel, t' = next^[k] t ∧ ∀ j < k, next^[j] t ∈ occupied := by
  induction fuel generalizing t with
  | zero => cases h
  | succ fuel ih =>
      unfold probeFrom at h
      split at h
      · rename_i hmem
        obtain ⟨hfree, k, hk, ht', htaken⟩ := ih h
        refine ⟨hfree, k + 1, by omega, by simpa using ht', fun j hj => ?_⟩
        cases j with
        | zero => exact hmem
        | succ j => exact htaken j (by omega)
      · rename_i hmem
        cases h
        exact ⟨hmem, 0, by omega, rfl, by simp⟩

theorem probeFrom_eq_none {fuel : ℕ} (h : probeFrom next occupied fuel t = none) :
    ∀ j < fuel, next^[j] t ∈ occupied := by
  induction fuel generalizing t with
  | zero => simp
  | succ fuel ih =>
      unfold probeFrom at h
      split at h
      · rename_i hmem
        intro j hj
        cases j with
        | zero => exact hmem
        | succ j => exact ih h j (by omega)
      · cases h

/-- Among the first `occupied.length + 1` places, all of them taken, one comes
twice. -/
theorem exists_repeat (h : ∀ j < occupied.length + 1, next^[j] t ∈ occupied) :
    ∃ i j, i < j ∧ j < occupied.length + 1 ∧ next^[i] t = next^[j] t := by
  have hcard : occupied.toFinset.card < (Finset.range (occupied.length + 1)).card := by
    rw [Finset.card_range]
    exact Nat.lt_succ_of_le (List.toFinset_card_le occupied)
  have hmaps : Set.MapsTo (fun j => next^[j] t) (Finset.range (occupied.length + 1))
      occupied.toFinset := by
    intro j hj
    simpa using h j (by simpa using hj)
  obtain ⟨i, hi, j, hj, hne, heq⟩ := Finset.exists_ne_map_eq_of_card_lt_of_maps_to hcard hmaps
  simp only [Finset.mem_range] at hi hj
  rcases Nat.lt_or_gt_of_ne hne with hlt | hgt
  · exact ⟨i, j, hlt, hj, heq⟩
  · exact ⟨j, i, hgt, hi, heq.symm⟩

/-- The fuel is enough: running out of it means the loop never ends. -/
theorem probe_eq_none_iff : probe next occupied t = none ↔ ∀ k, next^[k] t ∈ occupied := by
  constructor
  · intro h
    have hfuel := probeFrom_eq_none h
    obtain ⟨i, j, hij, hj, heq⟩ := exists_repeat hfuel
    intro k
    induction k using Nat.strong_induction_on with
    | _ k ih =>
        by_cases hk : k < j
        · exact hfuel k (by omega)
        · have hback : next^[k] t = next^[k - j + i] t := by
            rw [Function.iterate_add_apply, heq, ← Function.iterate_add_apply]
            congr 1
            omega
          rw [hback]
          exact ih _ (by omega)
  · intro h
    cases hprobe : probe next occupied t with
    | none => rfl
    | some t' =>
        obtain ⟨hfree, k, -, rfl, -⟩ := probeFrom_eq_some hprobe
        exact absurd (h k) hfree

theorem probe_ends_iff : (∃ t', probe next occupied t = some t') ↔ ∃ k, next^[k] t ∉ occupied := by
  rw [← Option.ne_none_iff_exists', Ne, probe_eq_none_iff, not_forall]

/-- A probe that can get stuck ends if it finds a free place before it is stuck. -/
theorem probe_ends_iff_of_stuck {stuck : α → Prop} (hstuck : ∀ x, stuck x → next x = x) :
    (∃ t', probe next occupied t = some t') ↔
      ∃ k, next^[k] t ∉ occupied ∧ ∀ j < k, ¬ stuck (next^[j] t) := by
  constructor
  · rintro ⟨t', h⟩
    obtain ⟨hfree, k, -, rfl, htaken⟩ := probeFrom_eq_some h
    refine ⟨k, hfree, fun j hj hstop => hfree ?_⟩
    -- all the later places are this one, which is taken
    have hsame : next^[k] t = next^[j] t := by
      rw [show k = k - j + j by omega, Function.iterate_add_apply]
      exact Function.iterate_fixed (hstuck _ hstop) _
    rw [hsame]
    exact htaken j hj
  · rintro ⟨k, hfree, -⟩
    exact probe_ends_iff.mpr ⟨k, hfree⟩

/-- A probe that moves on from every taken place ends. -/
theorem probe_ends_of_lt {β : Type} [Preorder β] {f : α → β}
    (hlt : ∀ k, next^[k] t ∈ occupied → f (next^[k] t) < f (next^[k + 1] t)) :
    ∃ t', probe next occupied t = some t' := by
  rw [probe_ends_iff]
  by_contra hnone
  have htaken : ∀ k, next^[k] t ∈ occupied := fun k => not_not.mp fun hfree => hnone ⟨k, hfree⟩
  have hmono : StrictMono fun k => f (next^[k] t) := strictMono_nat_of_lt_succ fun k => hlt k (htaken k)
  obtain ⟨i, j, hij, -, heq⟩ := exists_repeat fun j _ => htaken j
  exact absurd (hmono hij) (by simp [heq])

end Probe
