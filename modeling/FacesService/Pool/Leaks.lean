import FacesService.Pool.Bounds

/-!
Whether a slot comes back. `release` is the second statement of the `finally`
block; if the first one, `putconn`, raises, the slot is never released. The other
ways out of `conn` release it exactly once: a failing `getconn` in the first
`except`, everything else in the `finally`. The first `except` does not see what
is no `Exception`, and then again nobody releases the slot.
-/

namespace FacesService.Pool

open Prog

/-! ### One call of `conn` -/

/-- The semaphore gave its slot. -/
def takesSlot (c : Call) (r : Except Raised c.Answer) : Bool :=
  match c, r with
  | .acquire, .ok got => got
  | _, _ => false

/-- The call raises where nobody releases the slot any more. -/
def leaks (c : Call) (r : Except Raised c.Answer) : Bool :=
  match c, r with
  | .putconn, .error _ => true
  | .getconn, .error e => !e.isException
  | _, _ => false

/-- The calls of one thread, and their answers. -/
abbrev Log := List (Prog.Step Call Call.Answer Raised State)

def Log.takesSlot (log : Log) : Bool := log.any fun st => Pool.takesSlot st.op st.result

def Log.releases (log : Log) : ℕ := log.countP fun st => st.op = .release

def Log.leaks (log : Log) : Bool := log.any fun st => Pool.leaks st.op st.result

structure Account where
  taken : Bool
  releases : ℕ
  leaked : Bool

def account : Monitor Call Call.Answer Raised Account where
  pass _ _ := True
  next g c r :=
    ⟨g.taken || takesSlot c r, g.releases + (if c = .release then 1 else 0), g.leaked || leaks c r⟩

/-- A slot that was taken is released once, or leaked. -/
def Account.Settled (g : Account) : Prop := g.taken = true → (g.releases = 1 ↔ g.leaked = false)

theorem account_foldl (log : Log) (g : Account) :
    log.foldl (fun g st => account.next g st.op st.result) g =
      ⟨g.taken || log.takesSlot, g.releases + log.releases, g.leaked || log.leaks⟩ := by
  induction log generalizing g with
  | nil => simp [Log.takesSlot, Log.releases, Log.leaks]
  | cons st log ih =>
      rw [List.foldl_cons, ih]
      simp only [account, Log.takesSlot, Log.releases, Log.leaks, List.any_cons, List.countP_cons,
        decide_eq_true_eq, Bool.or_assoc, Account.mk.injEq, true_and, and_true]
      omega

theorem account_follows : Follows (fun _ _ => True) account (· = ⟨false, 0, false⟩)
    (· = ⟨true, 0, false⟩) (· = ⟨true, 0, false⟩) Account.Settled where
  neutral c hc g := by
    refine ⟨trivial, fun r => ?_⟩
    cases c <;> first
      | exact absurd hc (by decide)
      | simp [account, takesSlot, leaks]
  leaves := by
    rintro _ rfl h
    cases h
  acquire := by
    rintro _ rfl
    exact ⟨trivial, rfl, fun h => (by cases h), fun e h => (by cases h)⟩
  getconn := by
    rintro _ rfl
    refine ⟨trivial, rfl, fun e _ => ?_⟩
    cases hkind : e.isException with
    | true => simp [account, takesSlot, leaks, hkind]
    | false => simp [account, takesSlot, leaks, hkind, Account.Settled]
  putconn := by
    rintro _ rfl
    refine ⟨trivial, rfl, fun e _ => ?_⟩
    simp [account, takesSlot, leaks, Account.Settled]
  release := by
    rintro _ rfl
    refine ⟨trivial, fun r => ?_⟩
    simp [account, takesSlot, leaks, Account.Settled]

/-- Whatever the other threads do meanwhile, and whatever raises. -/
theorem conn_releases_iff {env : State → State → Prop} {max : ℕ} {s s' : State} {log : Log}
    {r : Except Raised Unit} (h : Runs env (Answers max) conn s log r s')
    (htaken : log.takesSlot = true) : log.releases = 1 ↔ log.leaks = false := by
  have hend := h.watched (A := fun _ _ => True) (fun _ _ _ _ _ => trivial)
    (account_follows.conn_watched rfl)
  have hsettled : (log.foldl (fun g st => account.next g st.op st.result) ⟨false, 0, false⟩).Settled := by
    cases r with
    | ok a => exact hend.1 a rfl
    | error e => exact hend.2 e rfl
  rw [account_foldl] at hsettled
  simpa [Account.Settled, htaken] using hsettled

/-! ### All calls -/

/-- The answers without a leak. -/
def Kept (max : ℕ) (c : Call) (s : State) (r : Except Raised c.Answer) (s' : State) : Prop :=
  Answers max c s r s' ∧ leaks c r = false

section Threads

variable {ι : Type} [Fintype ι] {max : ℕ} {s s' : System ι}

/-- The thread holds a slot, with or without a connection. -/
def holds : Holding → ℕ
  | .nothing => 0
  | _ => 1

/-- A slot is free or held, and a thread on its way out holds nothing. -/
structure NoneLost (max : ℕ) (s : System ι) (status : ι → Holding) : Prop where
  watched : ∀ i, (s.threads i).Watched (fun c r => leaks c r = false) discipline
    (fun g _ => g = .nothing) (fun g _ => g = .nothing) (status i)
  slots : s.state.slots + tally holds status = max

omit [Fintype ι] in
theorem leakless_follows : Follows (fun c r => leaks c r = false) discipline (· = .nothing) (· = .slot)
    (· = .connection) (· = .nothing) :=
  discipline_follows rfl (fun _ he => by cases he) fun e he hkind => by simp [leaks, hkind] at he

theorem Idle.holds_nothing {p : Program Unit} {g : Holding} (h : Idle p)
    (hp : p.Watched (fun c r => leaks c r = false) discipline (fun g _ => g = .nothing)
      (fun g _ => g = .nothing) g) : g = .nothing := by
  cases p with
  | ret a => exact hp
  | raise e => exact hp
  | call c k => exact h.elim

theorem Kept.slots {c : Call} {r : Except Raised c.Answer} {st st' : State} {g : Holding}
    (h : Kept max c st r st') (hpass : discipline.pass g c) (hroom : st.slots + holds g ≤ max) :
    st'.slots + holds (discipline.next g c r) = st.slots + holds g := by
  obtain ⟨hanswer, hleak⟩ := h
  cases hanswer with
  | acquire hslots =>
      cases hpass
      simp only [discipline, holds]
      omega
  | getconn _ =>
      cases hpass
      rfl
  | putconn =>
      cases hpass
      rfl
  | putconnFails e => cases hleak
  | putconnFailsLate e => cases hleak
  | release hslots =>
      cases hpass
      rfl
  | overRelease hslots =>
      -- the thread holds a slot, so not all of them are free
      cases hpass
      simp only [holds] at hroom
      omega
  | _ => rfl

variable [DecidableEq ι]

theorem NoneLost.step {status : ι → Holding} (h : NoneLost max s status)
    (hstep : Step (Kept max) s s') : ∃ status', NoneLost max s' status' := by
  cases hstep with
  | enter i hidle =>
      have hnothing := hidle.holds_nothing (h.watched i)
      refine ⟨Function.update status i .nothing,
        watched_update h.watched (leakless_follows.conn_watched rfl), ?_⟩
      rw [← hnothing, Function.update_eq_self]
      exact h.slots
  | @call i c k r state' hthread hanswer =>
      obtain ⟨hpass, hrest⟩ : (Prog.call c k).Watched (fun c r => leaks c r = false) discipline
          (fun g _ => g = .nothing) (fun g _ => g = .nothing) (status i) := hthread ▸ h.watched i
      have htally := tally_update holds status i (discipline.next (status i) c r)
      have hheld : holds (status i) ≤ tally holds status := le_tally _ _ i
      have hslots := h.slots
      have hsame := hanswer.slots hpass (by omega)
      refine ⟨Function.update status i (discipline.next (status i) c r),
        watched_update h.watched (hrest r hanswer.2), ?_⟩
      simp only
      omega

/-- Without a leak all slots are free whenever nobody is in `conn`. -/
theorem Reached.slots_free (h : Reached (Kept max) max s) (hidle : ∀ i, Idle (s.threads i)) :
    s.state.slots = max := by
  have hinv : ∃ status, NoneLost max s status := by
    clear hidle
    induction h with
    | refl => exact ⟨fun _ => .nothing, fun _ => rfl, by simp [tally, holds, State.start]⟩
    | tail _ hstep ih =>
        obtain ⟨status, hnone⟩ := ih
        exact hnone.step hstep
  obtain ⟨status, hnone⟩ := hinv
  have hnothing : tally holds status = 0 :=
    Finset.sum_eq_zero fun i _ => by rw [(hidle i).holds_nothing (hnone.watched i), holds]
  have hslots := hnone.slots
  omega

end Threads

/-- **A slot comes back exactly once** if and only if `putconn` does not raise, nor
`getconn` anything but an `Exception`; and if that never happens in any thread, all
slots are free again whenever all calls have ended. -/
theorem slot_released_iff (max : ℕ) :
    (∀ (env : State → State → Prop) (s s' : State) (log : Log) (r : Except Raised Unit),
      Runs env (Answers max) conn s log r s' → log.takesSlot = true →
        (log.releases = 1 ↔ log.leaks = false)) ∧
    ∀ (ι : Type) [Fintype ι] [DecidableEq ι] (s : System ι), Reached (Kept max) max s →
      (∀ i, Idle (s.threads i)) → s.state.slots = max :=
  ⟨fun _ _ _ _ _ h htaken => conn_releases_iff h htaken, fun _ _ _ _ h hidle => h.slots_free hidle⟩

/-- One slot and one connection; what the body raises, and what `putconn` does. -/
def onePool (body putconn : Except Raised Unit) : Handler Call Call.Answer Raised State
  | .poolIsNone, s => (.ok false, s)
  | .acquire, s =>
      if 0 < s.slots then (.ok true, { s with slots := s.slots - 1, acquired := s.acquired + 1 })
      else (.ok false, s)
  | .getconn, s => if s.out < 1 then (.ok (), { s with out := s.out + 1 }) else (.error .poolError, s)
  | .putconn, s => (putconn, { s with out := s.out - 1 })
  | .release, s =>
      if s.slots < 1 then (.ok (), { s with slots := s.slots + 1, released := s.released + 1 })
      else (.error .valueError, s)
  | .initDb, s => (.ok (), s)
  | .cursor, s => (.ok (), s)
  | .body, s => (body, s)
  | .closeCursor, s => (.ok (), s)
  | .commit, s => (.ok (), s)
  | .rollback, s => (.ok (), s)

theorem onePool_answers (body putconn : Except Raised Unit) (c : Call) (s : State) :
    Answers 1 c s (onePool body putconn c s).1 (onePool body putconn c s).2 := by
  cases c with
  | initDb => exact .initDb s
  | poolIsNone => exact .poolIsNone s
  | acquire =>
      by_cases h : 0 < s.slots
      · simpa [onePool, h] using Answers.acquire h
      · simpa [onePool, h] using Answers.timeout (Nat.eq_zero_of_not_pos h)
  | getconn =>
      by_cases h : s.out < 1
      · simpa only [onePool, if_pos h] using Answers.getconn h
      · simpa only [onePool, if_neg h] using Answers.exhausted (not_lt.mp h)
  | cursor => exact .cursor s _
  | body => exact .body s _
  | closeCursor => exact .closeCursor s _
  | commit => exact .commit s _
  | rollback => exact .rollback s _
  | putconn =>
      cases putconn with
      | ok a => exact .putconn s
      | error e => exact .putconnFailsLate s e
  | release =>
      by_cases h : s.slots < 1
      · simpa only [onePool, if_pos h] using Answers.release h
      · simpa only [onePool, if_neg h] using Answers.overRelease (not_lt.mp h)

/-- Where `putconn` does not raise, the pool leaks nothing. -/
theorem onePool_kept (body : Except Raised Unit) (c : Call) (s : State) :
    Kept 1 c s (onePool body (.ok ()) c s).1 (onePool body (.ok ()) c s).2 := by
  refine ⟨onePool_answers body (.ok ()) c s, ?_⟩
  cases c with
  | getconn =>
      by_cases h : s.out < 1
      · simp only [onePool, if_pos h]
        rfl
      · simp only [onePool, if_neg h]
        rfl
  | _ => rfl

/-- A thread that comes to the end of what it is in. -/
theorem Reached.finished {ι : Type} [DecidableEq ι] {max : ℕ} {s : System ι}
    {answers : (c : Call) → State → Except Raised c.Answer → State → Prop}
    {H : Handler Call Call.Answer Raised State} (hH : ∀ c s, answers c s (H c s).1 (H c s).2) (i : ι)
    (h : Reached answers max s) : ∃ s', Reached answers max s' ∧ Idle (s'.threads i) ∧
      (∀ j, j ≠ i → s'.threads j = s.threads j) ∧ s'.state = ((s.threads i).exec H s.state).2 := by
  generalize hp : s.threads i = p
  induction p generalizing s with
  | ret a => exact ⟨s, h, hp ▸ trivial, fun _ _ => rfl, rfl⟩
  | raise e => exact ⟨s, h, hp ▸ trivial, fun _ _ => rfl, rfl⟩
  | call c k ih =>
      obtain ⟨s', hs', hidle, hothers, hstate⟩ :=
        ih _ (h.tail (.call hp (hH c s.state))) (Function.update_self _ _ _)
      exact ⟨s', hs', hidle, fun j hj => (hothers j hj).trans (Function.update_of_ne hj _ _), hstate⟩

/-- The body raises, and the slot comes back. -/
theorem slot_released_iff_raised :
    (Log.takesSlot (conn.steps (onePool (.error .exception) (.ok ())) (.start 1)) = true ∧
      Log.releases (conn.steps (onePool (.error .exception) (.ok ())) (.start 1)) = 1) ∧
    ∃ s : System (Fin 2), Reached (Kept 1) 1 s ∧ (∀ i, Idle (s.threads i)) ∧ s.state.acquired = 1 ∧
      s.state.slots = 1 := by
  constructor
  · have hruns : Runs (fun _ _ => False) (Answers 1) conn (.start 1)
        (conn.steps (onePool (.error .exception) (.ok ())) (.start 1)) _ _ :=
      .of_steps _ (onePool_answers _ _) conn (.start 1)
    exact ⟨by decide, ((slot_released_iff 1).1 _ _ _ _ _ hruns (by decide)).mpr (by decide)⟩
  · have hstart : Reached (Kept 1) 1 (⟨.start 1, fun _ => .ret ()⟩ : System (Fin 2)) := .refl
    have hentered : Reached (Kept 1) 1
        (⟨.start 1, Function.update (fun _ => .ret ()) 0 conn⟩ : System (Fin 2)) :=
      hstart.tail (.enter 0 trivial)
    obtain ⟨s, hs, hidle, hothers, hstate⟩ := hentered.finished (onePool_kept (.error .exception)) 0
    have hall : ∀ i, Idle (s.threads i) := by
      intro i
      by_cases hi : i = 0
      · exact hi ▸ hidle
      · rw [hothers i hi]
        simp only [Function.update_of_ne hi]
        trivial
    refine ⟨s, hs, hall, ?_, (slot_released_iff 1).2 (Fin 2) s hs hall⟩
    rw [hstate]
    simp only [Function.update_self]
    decide

/-- Everything goes well until the connection is put back; the slot is gone. -/
theorem putconn_leaks_slot :
    ¬ ∀ (log : Log) (r : Except Raised Unit) (s' : State),
      Runs (fun _ _ => False) (Answers 1) conn (.start 1) log r s' → log.takesSlot = true →
        log.releases = 1 := by
  intro h
  have hruns : Runs (fun _ _ => False) (Answers 1) conn (.start 1)
      (steps (onePool (.ok ()) (.error .exception)) conn (.start 1)) _ _ :=
    .of_steps _ (onePool_answers _ _) conn (.start 1)
  exact absurd (h _ _ _ hruns (by decide)) (by decide)

end FacesService.Pool
