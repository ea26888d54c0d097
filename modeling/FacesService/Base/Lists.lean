import Mathlib.Data.List.Sort
import Mathlib.Data.List.Dedup
import Mathlib.Data.List.MinMax

/-!
Filtering commutes with sorting and with the removal of duplicates: what is kept
of a list stands in the same order whatever else was in it. What is kept in two
portions is kept in one, up to the order. A list cut in slices is made up of them.
-/

namespace List

variable {α : Type}

theorem filter_orderedInsert {r : α → α → Prop} [DecidableRel r] [IsTrans α r] (p : α → Bool) (a : α)
    {l : List α} (hsorted : l.Pairwise r) :
    (l.orderedInsert r a).filter p =
      if p a then (l.filter p).orderedInsert r a else l.filter p := by
  induction l with
  | nil => cases hpa : p a <;> simp [hpa]
  | cons b l ih =>
      obtain ⟨hb, hl⟩ := List.pairwise_cons.mp hsorted
      rw [List.orderedInsert_cons]
      by_cases hab : r a b
      · rw [if_pos hab]
        have hfirst : (List.filter p (b :: l)).orderedInsert r a = a :: List.filter p (b :: l) := by
          cases hfl : List.filter p (b :: l) with
          | nil => rfl
          | cons c rest =>
              have hc : c ∈ b :: l := (List.mem_filter.mp (hfl ▸ List.mem_cons_self)).1
              have hac : r a c := by
                rcases List.mem_cons.mp hc with rfl | hc
                · exact hab
                · exact IsTrans.trans _ _ _ hab (hb c hc)
              rw [List.orderedInsert_cons, if_pos hac]
        rw [hfirst]
        cases hpa : p a <;> simp [hpa]
      · rw [if_neg hab, List.filter_cons, ih hl]
        cases hpb : p b <;> cases hpa : p a <;> simp [hpb, hab]

theorem filter_insertionSort {r : α → α → Prop} [DecidableRel r] [IsTrans α r] [Std.Total r]
    (p : α → Bool) (l : List α) :
    (l.insertionSort r).filter p = (l.filter p).insertionSort r := by
  induction l with
  | nil => rfl
  | cons a l ih =>
      rw [List.insertionSort_cons, filter_orderedInsert p a (List.pairwise_insertionSort r l), ih]
      cases hpa : p a <;> simp [hpa]

theorem filter_dedup [DecidableEq α] (p : α → Bool) (l : List α) :
    l.dedup.filter p = (l.filter p).dedup := by
  induction l with
  | nil => rfl
  | cons a l ih =>
      by_cases ha : a ∈ l
      · rw [List.dedup_cons_of_mem ha, ih]
        cases hpa : p a with
        | false => simp [hpa]
        | true =>
            rw [List.filter_cons_of_pos hpa, List.dedup_cons_of_mem (List.mem_filter.mpr ⟨ha, hpa⟩)]
      · rw [List.dedup_cons_of_notMem ha]
        cases hpa : p a with
        | false => simp [hpa, ih]
        | true =>
            have hnot : a ∉ l.filter p := fun h => ha (List.mem_filter.mp h).1
            rw [List.filter_cons_of_pos hpa, List.filter_cons_of_pos hpa,
              List.dedup_cons_of_notMem hnot, ih]

theorem filter_append_filter_perm {p q r : α → Bool} (hdisjoint : ∀ x, p x = true → ¬ q x = true)
    (hr : ∀ x, r x = (p x || q x)) (l : List α) : (l.filter p ++ l.filter q).Perm (l.filter r) := by
  induction l with
  | nil => exact .refl _
  | cons x l ih =>
      cases hp : p x with
      | true =>
          have hq : q x = false := by simpa using hdisjoint x hp
          simpa [hr, hp, hq] using ih
      | false =>
          cases hq : q x with
          | true => simpa [hr, hp, hq] using List.perm_middle.trans (ih.cons x)
          | false => simpa [hr, hp, hq] using ih

/-- The `argmax` is the first of the greatest. -/
theorem argmax_split {β : Type} [LinearOrder β] {f : α → β} {l : List α} {a : α}
    (h : l.argmax f = some a) :
    ∃ before after, l = before ++ a :: after ∧ (∀ b ∈ before, f b < f a) ∧ ∀ b ∈ after, f b ≤ f a := by
  induction l generalizing a with
  | nil => cases h
  | cons x l ih =>
      rw [List.argmax_cons] at h
      cases hbest : l.argmax f with
      | none =>
          rw [hbest] at h
          cases h
          rw [List.argmax_eq_none.mp hbest]
          exact ⟨[], [], rfl, by simp, by simp⟩
      | some c =>
          rw [hbest] at h
          by_cases hless : f x < f c
          · obtain ⟨before, after, hl, hbefore, hafter⟩ := ih hbest
            obtain rfl : c = a := by simpa [hless] using h
            refine ⟨x :: before, after, by rw [hl, List.cons_append], ?_, hafter⟩
            exact List.forall_mem_cons.mpr ⟨hless, hbefore⟩
          · obtain rfl : x = a := by simpa [hless] using h
            refine ⟨[], l, rfl, by simp, fun b hb => ?_⟩
            exact (List.le_of_mem_argmax hb hbest).trans (not_lt.mp hless)

theorem argmax_map {β γ : Type} [LinearOrder γ] {f : β → γ} (g : α → β) (l : List α) :
    (l.map g).argmax f = (l.argmax fun a => f (g a)).map g := by
  induction l using List.reverseRecOn with
  | nil => rfl
  | append_singleton l a ih =>
      rw [List.map_append, List.map_singleton, List.argmax_concat, List.argmax_concat, ih]
      cases l.argmax fun a => f (g a) with
      | none => rfl
      | some c =>
          simp only [Option.map_some]
          split <;> rfl

theorem argmax_congr {β : Type} [LinearOrder β] {f g : α → β} {l : List α} (h : ∀ a ∈ l, f a = g a) :
    l.argmax f = l.argmax g := by
  induction l using List.reverseRecOn with
  | nil => rfl
  | append_singleton l a ih =>
      obtain ⟨hl, ha⟩ := List.forall_mem_append.mp h
      rw [List.argmax_concat, List.argmax_concat, ih hl, ha a (List.mem_singleton.mpr rfl)]
      cases hbest : l.argmax g with
      | none => rfl
      | some c => simp only [hl c (List.argmax_mem hbest)]

/-- A bound from below changes nothing but whether there is a greatest. -/
theorem argmax_filter_le {β : Type} [LinearOrder β] (f : α → β) (bound : β) (l : List α) :
    (l.filter fun a => bound ≤ f a).argmax f = (l.argmax f).filter fun a => bound ≤ f a := by
  induction l using List.reverseRecOn with
  | nil => rfl
  | append_singleton l a ih =>
      rw [List.filter_append, List.argmax_concat]
      by_cases ha : bound ≤ f a
      · rw [List.filter_singleton, decide_eq_true ha, cond_true, List.argmax_concat, ih]
        cases l.argmax f with
        | none => simp [Option.filter_some, ha]
        | some c =>
            by_cases hc : bound ≤ f c
            · by_cases hless : f c < f a
              · simp [Option.filter_some, hc, ha, hless]
              · simp [Option.filter_some, hc, hless]
            · simp [Option.filter_some, hc, ha, lt_of_lt_of_le (not_le.mp hc) ha]
      · rw [List.filter_singleton, decide_eq_false ha, cond_false, List.append_nil, ih]
        cases l.argmax f with
        | none => simp [Option.filter_some, ha]
        | some c =>
            by_cases hless : f c < f a
            · have hc : ¬ bound ≤ f c := fun hc => ha (hc.trans hless.le)
              simp [Option.filter_some, hc, ha, hless]
            · simp [Option.filter_some, hless]

/-! ### Slices -/

/-- The multiples of `n` below `m`, in order. -/
def multiplesBelow (n m : ℕ) : List ℕ := (range m).filter (n ∣ ·)

/-- The slices of length `n` that start below `m` reach the first multiple of
`n` that is not below `m`. -/
theorem flatMap_slices_take {n : ℕ} (hn : 0 < n) (l : List α) (m : ℕ) :
    ∃ q, (multiplesBelow n m).flatMap (fun i => (l.drop i).take n) = l.take (n * q) ∧
      m ≤ n * q ∧ n * q < m + n := by
  unfold multiplesBelow
  induction m with
  | zero => exact ⟨0, by simp, Nat.zero_le _, by omega⟩
  | succ m ih =>
      obtain ⟨q, hq, hle, hlt⟩ := ih
      rw [range_succ, filter_append, flatMap_append, hq]
      by_cases hdvd : n ∣ m
      · obtain ⟨p, rfl⟩ := hdvd
        have hpq : p = q := by
          have hle' : p ≤ q := Nat.le_of_mul_le_mul_left hle hn
          have hlt' : q < p + 1 := Nat.lt_of_mul_lt_mul_left (by rw [Nat.mul_succ]; exact hlt)
          omega
        subst hpq
        refine ⟨p + 1, ?_, by rw [Nat.mul_succ]; omega, by rw [Nat.mul_succ]; omega⟩
        rw [filter_singleton, decide_eq_true (Nat.dvd_mul_right n p), cond_true, flatMap_singleton,
          Nat.mul_succ, take_add]
      · refine ⟨q, ?_, Nat.lt_of_le_of_ne hle ?_, by omega⟩
        · rw [filter_singleton, decide_eq_false hdvd, cond_false, flatMap_nil, append_nil]
        · rintro rfl
          exact hdvd (Nat.dvd_mul_right n q)

/-- The slices that start inside a list make up the list. -/
theorem flatMap_slices {n : ℕ} (hn : 0 < n) (l : List α) :
    (multiplesBelow n l.length).flatMap (fun i => (l.drop i).take n) = l := by
  obtain ⟨q, hq, hle, -⟩ := flatMap_slices_take hn l l.length
  rw [hq, take_of_length_le hle]

end List
