import FacesService.Model.CacheThreads
import FacesService.Model.Service

/-!
The epochs of the suggestion cache. An index that is stored, or about to be, was
looked up under an epoch; once a bump for a write it does not know has returned,
the epoch is past that one, so that no later `get` takes it. This rests on the
epoch never going back, and `bump` does not see to that: it writes what it has
read, plus one, whatever was written in between.
-/

namespace FacesService.Threads

variable {s s' : State}

/-- An index stored, or about to be, under an epoch. -/
def Present (s : State) (owner : String) (epoch value : ℕ) : Prop :=
  s.entries owner = some (epoch, value) ∨ ∃ i seen, s.threads i = .storing owner seen epoch value

theorem present_goto {i : ℕ} {p : Phase} {owner : String} {epoch value : ℕ}
    (h : Present (s.goto i p) owner epoch value) :
    Present s owner epoch value ∨ ∃ seen, p = .storing owner seen epoch value := by
  rcases h with h | ⟨j, seen, hj⟩
  · exact .inl (.inl h)
  · by_cases hji : j = i
    · subst hji
      exact .inr ⟨seen, by simpa [State.goto] using hj⟩
    · exact .inl (.inr ⟨j, seen, by simpa [State.goto, hji] using hj⟩)

def Phase.stores : Phase → Bool
  | storing .. => true
  | _ => false

theorem present_of_goto {i : ℕ} {p : Phase} (hp : p.stores = false) {owner : String} {epoch value : ℕ}
    (h : Present (s.goto i p) owner epoch value) : Present s owner epoch value := by
  rcases present_goto h with h | ⟨seen, rfl⟩
  · exact h
  · cases hp

/-! ### The invariant -/

/-- What a thread knows. -/
def Knows (s : State) : Phase → Prop
  | .idle => True
  | .committed owner ticket => ticket ≤ s.commits owner
  | .bumping owner ticket epoch => ticket ≤ s.commits owner ∧ epoch ≤ s.epoch owner ∧
      ∀ e value, Present s owner e value → value < ticket → e ≤ epoch
  | .popping owner ticket => ticket ≤ s.commits owner ∧
      ∀ e value, Present s owner e value → value < ticket → e < s.epoch owner
  | .called owner seen => seen ≤ s.bumped owner
  | .looking owner seen epoch => seen ≤ s.bumped owner ∧ epoch ≤ s.epoch owner ∧
      ∀ value, Present s owner epoch value → seen ≤ value
  | .building owner seen epoch => seen ≤ s.bumped owner ∧ epoch ≤ s.epoch owner
  | .storing _ seen _ value => seen ≤ value
  | .returned _ seen value => seen ≤ value

structure Inv (s : State) : Prop where
  bumped : ∀ owner, s.bumped owner ≤ s.commits owner
  present : ∀ owner epoch value, Present s owner epoch value →
    epoch ≤ s.epoch owner ∧ value ≤ s.commits owner ∧
      (value < s.bumped owner → epoch < s.epoch owner)
  threads : ∀ i, Knows s (s.threads i)

/-- Nothing goes back, and an index that comes up is of the present tables. -/
structure Later (s s' : State) : Prop where
  commits : ∀ owner, s.commits owner ≤ s'.commits owner
  bumped : ∀ owner, s.bumped owner ≤ s'.bumped owner
  epoch : ∀ owner, s.epoch owner ≤ s'.epoch owner
  present : ∀ owner epoch value, Present s' owner epoch value →
    Present s owner epoch value ∨ s.commits owner ≤ value

/-- What a thread knows, it still knows later. -/
theorem Knows.later {p : Phase} (h : Knows s p) (hb : ∀ owner, s.bumped owner ≤ s.commits owner)
    (hl : Later s s') : Knows s' p := by
  cases p with
  | idle => trivial
  | committed owner ticket => exact Nat.le_trans h (hl.commits owner)
  | bumping owner ticket epoch =>
      obtain ⟨hticket, hepoch, hall⟩ := h
      refine ⟨Nat.le_trans hticket (hl.commits owner), Nat.le_trans hepoch (hl.epoch owner), ?_⟩
      intro e value hpresent hvalue
      rcases hl.present owner e value hpresent with hpresent | hnew
      · exact hall e value hpresent hvalue
      · omega
  | popping owner ticket =>
      obtain ⟨hticket, hall⟩ := h
      refine ⟨Nat.le_trans hticket (hl.commits owner), fun e value hpresent hvalue => ?_⟩
      rcases hl.present owner e value hpresent with hpresent | hnew
      · exact Nat.lt_of_lt_of_le (hall e value hpresent hvalue) (hl.epoch owner)
      · omega
  | called owner seen => exact Nat.le_trans h (hl.bumped owner)
  | looking owner seen epoch =>
      obtain ⟨hseen, hepoch, hall⟩ := h
      refine ⟨Nat.le_trans hseen (hl.bumped owner), Nat.le_trans hepoch (hl.epoch owner), ?_⟩
      intro value hpresent
      rcases hl.present owner epoch value hpresent with hpresent | hnew
      · exact hall value hpresent
      · exact Nat.le_trans hseen (Nat.le_trans (hb owner) hnew)
  | building owner seen epoch =>
      exact ⟨Nat.le_trans h.1 (hl.bumped owner), Nat.le_trans h.2 (hl.epoch owner)⟩
  | storing owner seen epoch value => exact h
  | returned owner seen value => exact h

/-- A thread goes on, and the others know what they knew. -/
theorem Inv.goto {s₁ : State} {i : ℕ} {p : Phase} (h : Inv s) (hsame : s₁.threads = s.threads)
    (hl : Later s (s₁.goto i p)) (hb : ∀ owner, s₁.bumped owner ≤ s₁.commits owner)
    (hpresent : ∀ owner epoch value, Present (s₁.goto i p) owner epoch value →
      epoch ≤ s₁.epoch owner ∧ value ≤ s₁.commits owner ∧
        (value < s₁.bumped owner → epoch < s₁.epoch owner))
    (hp : Knows (s₁.goto i p) p) : Inv (s₁.goto i p) where
  bumped := hb
  present := hpresent
  threads := by
    intro j
    by_cases hji : j = i
    · subst hji
      simpa [State.goto] using hp
    · have hj : (s₁.goto i p).threads j = s.threads j := by
        simp [State.goto, hji, hsame]
      rw [hj]
      exact (h.threads j).later h.bumped hl

/-! ### One step -/

/-- The step does not write an epoch that is behind the current one: at most one
other bump has come between what this one read and what it writes. -/
def Forward (s : State) : Action → Prop
  | .advance i =>
      match s.threads i with
      | .bumping owner _ epoch => s.epoch owner ≤ epoch + 1
      | _ => True
  | _ => True

/-- A step that leaves the dicts alone, and stores nothing. -/
theorem Inv.look (h : Inv s) {i : ℕ} {p : Phase}
    (hstores : p.stores = false) (hp : Knows s p) : Inv (s.goto i p) := by
  have hkept : ∀ owner epoch value, Present (s.goto i p) owner epoch value → Present s owner epoch value :=
    fun _ _ _ => present_of_goto hstores
  have hl : Later s (s.goto i p) :=
    ⟨fun _ => Nat.le_refl _, fun _ => Nat.le_refl _, fun _ => Nat.le_refl _,
      fun owner epoch value hpresent => .inl (hkept owner epoch value hpresent)⟩
  exact h.goto rfl hl h.bumped
    (fun owner epoch value hpresent => h.present owner epoch value (hkept owner epoch value hpresent))
    (hp.later h.bumped hl)

theorem Inv.write (h : Inv s) (i : ℕ) (owner : String) :
    Inv (({ s with commits := Function.update s.commits owner (s.commits owner + 1) } : State).goto i
      (.committed owner (s.commits owner + 1))) := by
  let s₁ : State := { s with commits := Function.update s.commits owner (s.commits owner + 1) }
  have hcommits : ∀ o, s.commits o ≤ s₁.commits o := fun o => by
    by_cases ho : o = owner
    · subst ho
      simp [s₁]
    · simp [s₁, ho]
  have hkept : ∀ o epoch value, Present (s₁.goto i (.committed owner (s.commits owner + 1))) o epoch value →
      Present s o epoch value := fun _ _ _ => present_of_goto rfl
  refine h.goto rfl ⟨hcommits, fun _ => Nat.le_refl _, fun _ => Nat.le_refl _,
    fun o epoch value hpresent => .inl (hkept o epoch value hpresent)⟩
    (fun o => Nat.le_trans (h.bumped o) (hcommits o)) (fun o epoch value hpresent => ?_) ?_
  · obtain ⟨hepoch, hvalue, hlt⟩ := h.present o epoch value (hkept o epoch value hpresent)
    exact ⟨hepoch, Nat.le_trans hvalue (hcommits o), hlt⟩
  · simp [Knows, State.goto]

/-- `self._epoch[owner_id] = …`, if the epoch does not go back. -/
theorem Inv.setEpoch (h : Inv s) {i : ℕ} {owner : String} {ticket epoch : ℕ}
    (hi : s.threads i = .bumping owner ticket epoch) (hforward : s.epoch owner ≤ epoch + 1) :
    Inv (({ s with epoch := Function.update s.epoch owner (epoch + 1) } : State).goto i
      (.popping owner ticket)) := by
  let s₁ : State := { s with epoch := Function.update s.epoch owner (epoch + 1) }
  have hepochs : ∀ o, s.epoch o ≤ s₁.epoch o := fun o => by
    by_cases ho : o = owner
    · subst ho
      simpa [s₁] using hforward
    · simp [s₁, ho]
  have hkept : ∀ o e value, Present (s₁.goto i (.popping owner ticket)) o e value → Present s o e value :=
    fun _ _ _ => present_of_goto rfl
  have hknows := h.threads i
  rw [hi] at hknows
  obtain ⟨hticket, -, hall⟩ := hknows
  refine h.goto rfl ⟨fun _ => Nat.le_refl _, fun _ => Nat.le_refl _, hepochs,
    fun o e value hpresent => .inl (hkept o e value hpresent)⟩ h.bumped
    (fun o e value hpresent => ?_) ⟨hticket, fun e value hpresent hvalue => ?_⟩
  · obtain ⟨hepoch, hvalue, hlt⟩ := h.present o e value (hkept o e value hpresent)
    exact ⟨Nat.le_trans hepoch (hepochs o), hvalue, fun hb => Nat.lt_of_lt_of_le (hlt hb) (hepochs o)⟩
  · have hold := hall e value (hkept owner e value hpresent) hvalue
    simp only [State.goto, Function.update_self]
    omega

/-- `self._entries.pop(owner_id, None)`: the bump returns. -/
theorem Inv.pop (h : Inv s) {i : ℕ} {owner : String} {ticket : ℕ}
    (hi : s.threads i = .popping owner ticket) :
    Inv (({ s with
      entries := Function.update s.entries owner none
      bumped := Function.update s.bumped owner (max (s.bumped owner) ticket) } : State).goto i .idle) := by
  let s₁ : State := { s with
    entries := Function.update s.entries owner none
    bumped := Function.update s.bumped owner (max (s.bumped owner) ticket) }
  have hknows := h.threads i
  rw [hi] at hknows
  obtain ⟨hticket, hall⟩ := hknows
  have hbumped : ∀ o, s.bumped o ≤ s₁.bumped o := fun o => by
    by_cases ho : o = owner
    · subst ho
      simp [s₁]
    · simp [s₁, ho]
  have hkept : ∀ o e value, Present (s₁.goto i .idle) o e value → Present s o e value := by
    intro o e value hpresent
    rcases present_of_goto rfl hpresent with hentry | hstoring
    · by_cases ho : o = owner
      · subst ho
        simp [s₁] at hentry
      · exact .inl (by simpa [s₁, ho] using hentry)
    · exact .inr hstoring
  refine h.goto rfl ⟨fun _ => Nat.le_refl _, hbumped, fun _ => Nat.le_refl _,
    fun o e value hpresent => .inl (hkept o e value hpresent)⟩ (fun o => ?_)
    (fun o e value hpresent => ?_) trivial
  · by_cases ho : o = owner
    · subst ho
      simpa [s₁] using Nat.max_le.mpr ⟨h.bumped o, hticket⟩
    · simpa [s₁, ho] using h.bumped o
  · obtain ⟨hepoch, hvalue, hlt⟩ := h.present o e value (hkept o e value hpresent)
    refine ⟨hepoch, hvalue, fun hb => ?_⟩
    by_cases ho : o = owner
    · subst ho
      simp only [Function.update_self] at hb
      rcases Nat.lt_or_ge value (s.bumped o) with hold | hold
      · exact hlt hold
      · exact hall e value (hkept o e value hpresent) (by omega)
    · simp only [Function.update_of_ne ho] at hb
      exact hlt hb

/-- The builder reads the tables. -/
theorem Inv.build (h : Inv s) {i : ℕ} {owner : String} {seen epoch : ℕ}
    (hi : s.threads i = .building owner seen epoch) :
    Inv (s.goto i (.storing owner seen epoch (s.commits owner))) := by
  have hknows := h.threads i
  rw [hi] at hknows
  obtain ⟨hseen, hepoch⟩ := hknows
  have hcases : ∀ o e value, Present (s.goto i (.storing owner seen epoch (s.commits owner))) o e value →
      Present s o e value ∨ o = owner ∧ e = epoch ∧ value = s.commits owner := by
    intro o e value hpresent
    rcases present_goto hpresent with hpresent | ⟨seen', hstore⟩
    · exact .inl hpresent
    · cases hstore
      exact .inr ⟨rfl, rfl, rfl⟩
  refine h.goto rfl ⟨fun _ => Nat.le_refl _, fun _ => Nat.le_refl _, fun _ => Nat.le_refl _,
    fun o e value hpresent => ?_⟩ h.bumped (fun o e value hpresent => ?_)
    (Nat.le_trans hseen (h.bumped owner))
  · rcases hcases o e value hpresent with hpresent | ⟨rfl, -, rfl⟩
    · exact .inl hpresent
    · exact .inr (Nat.le_refl _)
  · rcases hcases o e value hpresent with hpresent | ⟨rfl, rfl, rfl⟩
    · exact h.present o e value hpresent
    · exact ⟨hepoch, Nat.le_refl _, fun hb => absurd (h.bumped o) (by omega)⟩

/-- `self._entries[owner_id] = …`. -/
theorem Inv.store (h : Inv s) {i : ℕ} {owner : String} {seen epoch value : ℕ}
    (hi : s.threads i = .storing owner seen epoch value) :
    Inv (({ s with entries := Function.update s.entries owner (some (epoch, value)) } : State).goto i
      (.returned owner seen value)) := by
  let s₁ : State := { s with entries := Function.update s.entries owner (some (epoch, value)) }
  have hkept : ∀ o e v, Present (s₁.goto i (.returned owner seen value)) o e v → Present s o e v := by
    intro o e v hpresent
    rcases present_of_goto rfl hpresent with hentry | hstoring
    · by_cases ho : o = owner
      · subst ho
        simp only [s₁, Function.update_self, Option.some.injEq, Prod.mk.injEq] at hentry
        obtain ⟨rfl, rfl⟩ := hentry
        exact .inr ⟨i, seen, hi⟩
      · exact .inl (by simpa [s₁, ho] using hentry)
    · exact .inr hstoring
  have hknows := h.threads i
  rw [hi] at hknows
  exact h.goto rfl ⟨fun _ => Nat.le_refl _, fun _ => Nat.le_refl _, fun _ => Nat.le_refl _,
    fun o e v hpresent => .inl (hkept o e v hpresent)⟩ h.bumped
    (fun o e v hpresent => h.present o e v (hkept o e v hpresent)) hknows

/-- **The step lemma.** -/
theorem Inv.step (h : Inv s) {a : Action} (hforward : Forward s a) (hstep : s.step a = some s') :
    Inv s' := by
  cases a with
  | write i owner =>
      simp only [State.step] at hstep
      split at hstep
      · cases hstep
        simpa using h.write i owner
      · cases hstep
  | get i owner =>
      simp only [State.step] at hstep
      split at hstep
      · cases hstep
        exact h.look rfl (Nat.le_refl _)
      · cases hstep
  | advance i =>
      simp only [State.step, State.advance] at hstep
      have hknows := h.threads i
      cases hi : s.threads i with
      | idle =>
          rw [hi] at hstep
          cases hstep
      | returned owner seen value =>
          rw [hi] at hstep
          cases hstep
      | committed owner ticket =>
          rw [hi] at hstep hknows
          cases hstep
          exact h.look rfl ⟨hknows, Nat.le_refl _, fun e value hpresent _ =>
            (h.present owner e value hpresent).1⟩
      | bumping owner ticket epoch =>
          simp only [Forward, hi] at hforward
          rw [hi] at hstep
          cases hstep
          exact h.setEpoch hi hforward
      | popping owner ticket =>
          rw [hi] at hstep
          cases hstep
          exact h.pop hi
      | called owner seen =>
          rw [hi] at hstep hknows
          cases hstep
          refine h.look rfl ⟨hknows, Nat.le_refl _, fun value hpresent => ?_⟩
          -- an index too old for this call is under an earlier epoch
          by_contra hold
          have hlt := (h.present owner _ value hpresent).2.2
            (Nat.lt_of_lt_of_le (Nat.lt_of_not_le hold) hknows)
          exact Nat.lt_irrefl _ hlt
      | looking owner seen epoch =>
          rw [hi] at hstep hknows
          obtain ⟨hseen, hepoch, hall⟩ := hknows
          cases hentry : s.entries owner with
          | none =>
              simp only [hentry] at hstep
              cases hstep
              exact h.look rfl ⟨hseen, hepoch⟩
          | some entry =>
              obtain ⟨storedEpoch, value⟩ := entry
              simp only [hentry] at hstep
              split at hstep
              · rename_i heq
                cases hstep
                exact h.look rfl (hall value (.inl (heq ▸ hentry)))
              · cases hstep
                exact h.look rfl ⟨hseen, hepoch⟩
      | building owner seen epoch =>
          rw [hi] at hstep
          cases hstep
          exact h.build hi
      | storing owner seen epoch value =>
          rw [hi] at hstep
          cases hstep
          exact h.store hi

/-! ### Whole runs -/

instance (s : State) (a : Action) : Decidable (Forward s a) := by
  cases a with
  | advance i =>
      simp only [Forward]
      split <;> infer_instance
  | _ => exact inferInstanceAs (Decidable True)

/-- `Forward` holds of each step where it comes. -/
def Forwards : State → List Action → Prop
  | _, [] => True
  | s, a :: actions => Forward s a ∧
      match s.step a with
      | none => True
      | some s' => Forwards s' actions

instance decidableForwards : (s : State) → (actions : List Action) → Decidable (Forwards s actions)
  | _, [] => inferInstanceAs (Decidable True)
  | s, a :: actions =>
      have : Decidable (match s.step a with
          | none => True
          | some s' => Forwards s' actions) :=
        match s.step a with
        | none => inferInstanceAs (Decidable True)
        | some s' => decidableForwards s' actions
      inferInstanceAs (Decidable (_ ∧ _))

theorem inv_start : Inv .start where
  bumped := fun _ => Nat.le_refl _
  present := by
    rintro owner epoch value (h | ⟨i, seen, h⟩) <;> cases h
  threads := fun _ => trivial

theorem Inv.play (h : Inv s) {actions : List Action} (hforward : Forwards s actions)
    (hplay : s.play actions = some s') : Inv s' := by
  induction actions generalizing s with
  | nil =>
      cases hplay
      exact h
  | cons a actions ih =>
      obtain ⟨hfirst, hrest⟩ := hforward
      simp only [State.play] at hplay
      cases hstep : s.step a with
      | none =>
          rw [hstep] at hplay
          cases hplay
      | some s₁ =>
          rw [hstep] at hplay hrest
          exact ih (h.step hfirst hstep) hrest hplay

/-- **No `get` serves an index from before a write that was bumped when it was
called**, in every run in which no bump writes the epoch back. -/
theorem epochs_safe {actions : List Action} (hforward : Forwards .start actions)
    (hplay : State.start.play actions = some s') : Safe s' := by
  have hinv := inv_start.play hforward hplay
  intro i owner seen value hi
  have hknows := hinv.threads i
  rw [hi] at hknows
  exact hknows

/-- A write and its bump fall between the reading and the storing of thread 0, which
stores an old index; the next call does not take it. -/
theorem epochs_safe_overlap : ∃ s', State.start.play [.get 0 "owner", .advance 0, .advance 0, .advance 0,
    .write 1 "owner", .advance 1, .advance 1, .advance 1, .advance 0,
    .get 2 "owner", .advance 2, .advance 2, .advance 2, .advance 2] = some s' ∧
      s'.threads 0 = .returned "owner" 0 0 ∧ s'.threads 2 = .returned "owner" 1 1 ∧ Safe s' := by
  refine ⟨(State.start.play _).get (by decide +kernel), Option.some_get _ |>.symm, by decide +kernel,
    by decide +kernel, ?_⟩
  exact epochs_safe (by decide +kernel) (Option.some_get _).symm

/-- The bump of thread 0 reads epoch 0 and is overtaken by two whole bumps; thread 2
builds an index between them. Thread 0 then writes epoch 1 again, the index is
stored under it, and thread 4 is served an index that does not know the third write. -/
def overtaken : List Action :=
  [.write 0 "owner", .advance 0,
    .write 1 "owner", .advance 1, .advance 1, .advance 1,
    .get 2 "owner", .advance 2, .advance 2, .advance 2,
    .write 3 "owner", .advance 3, .advance 3, .advance 3,
    .advance 0, .advance 0, .advance 2,
    .get 4 "owner", .advance 4, .advance 4]

theorem overtaken_bump_unsafe :
    ¬ ∀ actions s', State.start.play actions = some s' → Safe s' := by
  intro h
  have hend : (State.start.play overtaken).map (·.threads 4) = some (.returned "owner" 3 2) := by
    decide +kernel
  obtain ⟨s', hplay, hthread⟩ := Option.map_eq_some_iff.mp hend
  have hsafe := h overtaken s' hplay 4 "owner" 3 2 hthread
  omega

/-! ### One request at a time -/

variable {K : Type}

/-- The dicts hold what the cache of a world holds. -/
def Agrees (s : State) (w : World K) : Prop :=
  s.epoch = w.epoch ∧ ∀ owner, (s.entries owner).map (·.1) = (w.entries owner).map (·.epoch)

/-- A `bump` that nothing comes between is the `bump` of the world. -/
theorem bump_agrees {w : World K} (h : Agrees s w) {i : ℕ} {owner : String} {ticket : ℕ}
    (hi : s.threads i = .committed owner ticket) :
    ∃ s', s.play [.advance i, .advance i, .advance i] = some s' ∧ Agrees s' (w.bump owner) := by
  obtain ⟨hepoch, hentries⟩ := h
  refine ⟨_, by simp [State.play, State.step, State.advance, State.goto, hi]; rfl, ?_, fun o => ?_⟩
  · simp [World.bump, hepoch]
  · by_cases ho : o = owner
    · subst ho
      simp [World.bump]
    · simp [World.bump, ho, hentries]

/-- A `get` that nothing comes between is served from the dicts exactly if the
world would serve it, as long as no entry is too old. -/
theorem get_agrees {w : World K} (h : Agrees s w) {now : ℕ}
    (hfresh : ∀ owner e, w.entries owner = some e → now < e.storedAt + cacheTtl) {i : ℕ} {owner : String}
    {seen : ℕ} (hi : s.threads i = .called owner seen) :
    (∃ s' value, s.play [.advance i, .advance i] = some s' ∧ s'.threads i = .returned owner seen value) ↔
      (w.cached now owner).isSome := by
  obtain ⟨hepoch, hentries⟩ := h
  have hentry := hentries owner
  cases hw : w.entries owner with
  | none =>
      rw [hw, Option.map_none, Option.map_eq_none_iff] at hentry
      simp [World.cached, hw, State.play, State.step, State.advance, State.goto, hi, hentry]
  | some e =>
      rw [hw, Option.map_some] at hentry
      obtain ⟨⟨epoch, value⟩, hs, hepochs⟩ := Option.map_eq_some_iff.mp hentry
      obtain rfl : epoch = e.epoch := hepochs
      by_cases hlive : e.epoch = s.epoch owner
      · simp [World.cached, hw, State.play, State.step, State.advance, State.goto, hi, hs, ← hepoch, hlive,
          hfresh owner e hw]
      · simp [World.cached, hw, State.play, State.step, State.advance, State.goto, hi, hs, ← hepoch, hlive]

end FacesService.Threads
