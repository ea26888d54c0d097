import FacesService.Model.CacheClock
import Mathlib.Data.List.Infix

/-!
The TTL as a backstop. Whatever way threads, bumps and the commits of this and of other
processes come between each other, an index lacks only what was committed within the TTL
and the time of its own build before `get` has read the clock. No bump is needed for that.
-/

namespace FacesService.Clocked

variable {ttl : ℕ} {s s' : State}

/-- An index that lacks no commit from more than `slack` before `at` -/
structure Lacks (s : State) (owner : String) (value time slack : ℕ) : Prop where
  past : time ≤ s.now
  recent : ∀ t ∈ (s.commits owner).drop value, time ≤ t + slack

/-- Time goes on, and commits are made in it. -/
structure Later (s s' : State) : Prop where
  now : s.now ≤ s'.now
  commits : ∀ owner, ∃ more, s'.commits owner = s.commits owner ++ more ∧ ∀ t ∈ more, s.now ≤ t

theorem Later.of_eq (hnow : s'.now = s.now) (hcommits : s'.commits = s.commits) : Later s s' where
  now := Nat.le_of_eq hnow.symm
  commits owner := ⟨[], by simp [hcommits]⟩

theorem Lacks.later {owner : String} {value time slack : ℕ} (h : Lacks s owner value time slack)
    (hlater : Later s s') : Lacks s' owner value time slack where
  past := Nat.le_trans h.past hlater.now
  recent := by
    obtain ⟨more, hmore, hnow⟩ := hlater.commits owner
    intro t ht
    rw [hmore, List.drop_append, List.mem_append] at ht
    rcases ht with hold | hnew
    · exact h.recent t hold
    · have hpast := h.past
      have ht' := hnow t (List.mem_of_mem_drop hnew)
      omega

theorem Lacks.mono {owner : String} {value time slack slack' : ℕ} (h : Lacks s owner value time slack)
    (hle : slack ≤ slack') : Lacks s owner value time slack' where
  past := h.past
  recent := by
    intro t ht
    have hrecent := h.recent t ht
    omega

/-- What an index was built from is what is there. -/
theorem lacks_read (s : State) (owner : String) : Lacks s owner (s.commits owner).length s.now 0 where
  past := Nat.le_refl _
  recent := by
    intro t ht
    simp at ht

/-- The clock is read later. -/
theorem Lacks.wait {owner : String} {value time slack : ℕ} (h : Lacks s owner value time slack) :
    Lacks s owner value s.now (s.now - time + slack) where
  past := Nat.le_refl _
  recent := by
    intro t ht
    have hrecent := h.recent t ht
    have hpast := h.past
    omega

/-! ### The invariant -/

/-- What a thread holds. -/
def Holds (ttl : ℕ) (s : State) : Phase → Prop
  | .timing owner _ storedAt index => Lacks s owner index.value storedAt index.took
  | .built owner _ value readAt => Lacks s owner value readAt 0
  | .storing owner _ storedAt index => Lacks s owner index.value storedAt index.took
  | .returned owner checkedAt index => Lacks s owner index.value checkedAt (index.took + ttl)
  | _ => True

theorem Holds.later {p : Phase} (h : Holds ttl s p) (hlater : Later s s') : Holds ttl s' p := by
  cases p with
  | timing owner epoch storedAt index => exact Lacks.later h hlater
  | built owner epoch value readAt => exact Lacks.later h hlater
  | storing owner epoch storedAt index => exact Lacks.later h hlater
  | returned owner checkedAt index => exact Lacks.later h hlater
  | _ => trivial

structure Inv (ttl : ℕ) (s : State) : Prop where
  entries : ∀ owner e, s.entries owner = some e → Lacks s owner e.index.value e.storedAt e.index.took
  threads : ∀ i, Holds ttl s (s.threads i)

/-- The clock and the commits may go on, entries may go, one thread moves. -/
theorem Inv.move (h : Inv ttl s) {i : ℕ} {p : Phase} (hlater : Later s s')
    (hentries : ∀ owner e, s'.entries owner = some e → s.entries owner = some e ∨
      Lacks s' owner e.index.value e.storedAt e.index.took)
    (hthreads : s'.threads = Function.update s.threads i p) (hp : Holds ttl s' p) : Inv ttl s' where
  entries owner e he := by
    rcases hentries owner e he with hold | hnew
    · exact (h.entries owner e hold).later hlater
    · exact hnew
  threads j := by
    rw [hthreads]
    by_cases hj : j = i
    · subst hj
      simpa using hp
    · rw [Function.update_of_ne hj]
      exact (h.threads j).later hlater

theorem Inv.goto (h : Inv ttl s) {i : ℕ} {p : Phase} (hp : Holds ttl s p) : Inv ttl (s.goto i p) := by
  refine h.move (.of_eq rfl rfl) (fun _ _ he => .inl he) rfl ?_
  exact hp.later (.of_eq rfl rfl)

theorem Inv.advance (h : Inv ttl s) {i : ℕ} (hstep : s.advance ttl i = some s') : Inv ttl s' := by
  have hholds := h.threads i
  unfold State.advance at hstep
  split at hstep
  · -- `self._epoch[owner_id] = …`
    cases hstep
    exact h.move (.of_eq rfl rfl) (fun _ _ he => .inl he) rfl trivial
  · rename_i owner hi
    cases hstep
    refine h.move (.of_eq rfl rfl) (fun o e he => .inl ?_) rfl trivial
    change Function.update s.entries owner none o = some e at he
    by_cases ho : o = owner
    · subst ho
      simp at he
    · rwa [Function.update_of_ne ho] at he
  · rename_i owner epoch hi
    split at hstep
    · cases hstep
      exact h.goto trivial
    · rename_i e he
      split at hstep
      · cases hstep
        exact h.goto (h.entries owner e he)
      · cases hstep
        exact h.goto trivial
  · rename_i owner epoch storedAt index hi
    rw [hi] at hholds
    split at hstep
    · rename_i hfresh
      cases hstep
      have hlacks : Lacks s owner index.value storedAt index.took := hholds
      apply h.goto
      exact hlacks.wait.mono (by omega)
    · cases hstep
      exact h.goto trivial
  · rename_i owner epoch hi
    cases hstep
    exact h.goto (lacks_read s owner)
  · rename_i owner epoch value readAt hi
    rw [hi] at hholds
    cases hstep
    have hlacks : Lacks s owner value readAt 0 := hholds
    exact h.goto hlacks.wait
  · rename_i owner epoch storedAt index hi
    rw [hi] at hholds
    cases hstep
    have hlacks : Lacks s owner index.value storedAt index.took := hholds
    refine h.move (.of_eq rfl rfl) (fun o e he => ?_) rfl ?_
    · change Function.update s.entries owner _ o = some e at he
      by_cases ho : o = owner
      · subst ho
        rw [Function.update_self] at he
        cases he
        exact .inr ⟨hlacks.past, hlacks.recent⟩
      · rw [Function.update_of_ne ho] at he
        exact .inl he
    · have hslack : Lacks s owner index.value storedAt (index.took + ttl) := hlacks.mono (by omega)
      exact ⟨hslack.past, hslack.recent⟩
  · cases hstep

theorem Inv.later (h : Inv ttl s) (hlater : Later s s') (hentries : ∀ owner e, s'.entries owner = some e →
    s.entries owner = some e) (hthreads : s'.threads = s.threads) : Inv ttl s' := by
  apply h.move (i := 0) (p := s.threads 0) hlater (fun owner e he => .inl (hentries owner e he))
  · rw [hthreads, Function.update_eq_self]
  · exact (h.threads 0).later hlater

/-- **The step lemma.** -/
theorem Inv.step (h : Inv ttl s) {a : Action} (hstep : s.step ttl a = some s') : Inv ttl s' := by
  cases a with
  | tick d =>
      cases hstep
      exact h.later ⟨Nat.le_add_right _ _, fun _ => ⟨[], by simp⟩⟩ (fun _ _ he => he) rfl
  | commit owner =>
      cases hstep
      refine h.later ⟨Nat.le_refl _, fun o => ?_⟩ (fun _ _ he => he) rfl
      by_cases ho : o = owner
      · subst ho
        exact ⟨[s.now], by simp⟩
      · exact ⟨[], by simp [Function.update_of_ne ho]⟩
  | bump i owner =>
      simp only [State.step] at hstep
      split at hstep
      · cases hstep
        exact h.goto trivial
      · cases hstep
  | get i owner =>
      simp only [State.step] at hstep
      split at hstep
      · cases hstep
        exact h.goto trivial
      · cases hstep
  | clear =>
      cases hstep
      exact h.later (.of_eq rfl rfl) (fun _ _ he => nomatch he) rfl
  | advance i => exact h.advance hstep

/-- **No index is older than the TTL and its build.** If `get` returns an index, having
read the clock at `checkedAt`, then all it lacks of the commits for its owner, up to any
later moment, was committed at most the TTL and the time of that build before. -/
theorem served_within {actions : List Action} (h : State.start.play ttl actions = some s) {i : ℕ}
    {owner : String} {checkedAt : ℕ} {index : Built} (hi : s.threads i = .returned owner checkedAt index) :
    checkedAt ≤ s.now ∧ ∀ t ∈ (s.commits owner).drop index.value, checkedAt ≤ t + (index.took + ttl) := by
  have hinv : ∀ (actions : List Action) (s₀ : State), Inv ttl s₀ → s₀.play ttl actions = some s → Inv ttl s := by
    intro actions
    induction actions with
    | nil =>
        intro s₀ hs₀ hplay
        cases hplay
        exact hs₀
    | cons a actions ih =>
        intro s₀ hs₀ hplay
        unfold State.play at hplay
        split at hplay
        · cases hplay
        · rename_i s₁ hstep
          exact ih s₁ (hs₀.step hstep) hplay
  have hstart : Inv ttl State.start := ⟨(fun _ _ he => nomatch he), fun _ => trivial⟩
  have hholds := (hinv actions _ hstart h).threads i
  rw [hi] at hholds
  have hlacks : Lacks s owner index.value checkedAt (index.took + ttl) := hholds
  exact ⟨hlacks.past, hlacks.recent⟩

/-- An index is built, another process commits a write, and a `get` comes just within the TTL. -/
def foreignCommit : List Action :=
  [.get 0 "o", .advance 0, .advance 0, .tick 2, .advance 0, .advance 0, .commit "o", .tick 299,
    .get 1 "o", .advance 1, .advance 1]

/-- It does not know of the write; one tick later it would. -/
theorem served_within_foreignCommit : ∃ s, State.start.play 300 foreignCommit = some s ∧
    s.threads 1 = .returned "o" 301 ⟨0, 2⟩ ∧ s.commits "o" = [2] ∧ 301 ≤ 2 + (2 + 300) := by
  refine ⟨_, rfl, rfl, rfl, ?_⟩
  exact (@served_within 300 _ foreignCommit rfl 1 "o" 301 ⟨0, 2⟩ rfl).2 2 (List.mem_singleton_self 2)

end FacesService.Clocked
