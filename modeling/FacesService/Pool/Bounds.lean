import FacesService.Base.Monitor
import FacesService.Model.Conn
import Mathlib.Algebra.BigOperators.Group.Finset.Piecewise
import Mathlib.Algebra.Order.BigOperators.Group.Finset
import Mathlib.Data.Fintype.Basic

/-!
The semaphore stands before the pool. A thread in `conn` holds nothing, a slot, or
a slot with a connection; the text of `conn` takes and gives these in this order
on every way through it, whatever raises. Over all threads the connections that
are out and the slots that have none add up to at most the slots that are taken,
so that a thread that comes to `getconn` with its slot finds a connection left.
-/

namespace FacesService.Pool

/-! ### The text of `conn` -/

section Text

open Prog

variable {A : (c : Call) → Except Raised c.Answer → Prop} {G α : Type}
  {m : Monitor Call Call.Answer Raised G} {before slot connection left : G → Prop}

/-- A call that takes and gives nothing. -/
def Call.neutral : Call → Bool
  | acquire | getconn | putconn | release => false
  | _ => true

/-- What a monitor may show of a thread in `conn`: before its slot, with a slot,
with a connection as well, and on its way out. -/
structure Follows (A : (c : Call) → Except Raised c.Answer → Prop) (m : Monitor Call Call.Answer Raised G)
    (before slot connection left : G → Prop) : Prop where
  neutral : ∀ c : Call, c.neutral = true → ∀ g, m.pass g c ∧ ∀ r, m.next g c r = g
  leaves : ∀ g, before g → left g
  acquire : ∀ g, before g → m.pass g .acquire ∧ slot (m.next g .acquire (.ok true)) ∧
    left (m.next g .acquire (.ok false)) ∧ ∀ e, left (m.next g .acquire (.error e))
  getconn : ∀ g, slot g → m.pass g .getconn ∧ connection (m.next g .getconn (.ok ())) ∧
    ∀ e, A .getconn (.error e) →
      if e.isException then slot (m.next g .getconn (.error e)) else left (m.next g .getconn (.error e))
  putconn : ∀ g, connection g → m.pass g .putconn ∧ slot (m.next g .putconn (.ok ())) ∧
    ∀ e, A .putconn (.error e) → left (m.next g .putconn (.error e))
  release : ∀ g, slot g → m.pass g .release ∧ ∀ r, left (m.next g .release r)

variable (h : Follows A m before slot connection left)
include h

theorem Follows.neutral_watched {c : Call} (hc : c.neutral = true) {P : G → Prop} {g : G} (hg : P g) :
    (call c).Watched A m (fun g _ => P g) (fun g _ => P g) g := by
  obtain ⟨hpass, hnext⟩ := h.neutral c hc g
  refine watched_perform hpass (fun a _ => ?_) fun e _ => ?_
  · rw [hnext]
    exact hg
  · rw [hnext]
    exact hg

/-- The block of the caller and the commit leave the thread with what it has. -/
theorem Follows.transaction_watched {P : G → Prop} {g : G} (hg : P g) :
    transaction.Watched A m (fun g _ => P g) (fun g _ => P g) g := by
  refine watched_bind (M := fun g _ => P g) (h.neutral_watched rfl hg) fun g _ hg => ?_
  refine watched_bind (M := fun g _ => P g) ?_ fun g _ hg => h.neutral_watched rfl hg
  exact watched_tryFinally (M := fun g _ => P g) (F := fun g _ => P g) (h.neutral_watched rfl hg)
    (fun g _ hg => h.neutral_watched rfl hg) fun g _ hg => h.neutral_watched rfl hg

omit h in
theorem onException_watched {p : Program α} {last : Program Unit} {Q : G → α → Prop}
    {F E : G → Raised → Prop} {g : G} (hp : p.Watched A m Q F g)
    (hlast : ∀ g e, F g e → e.isException = true → last.Watched A m (fun g' _ => E g' e) E g)
    (hbase : ∀ g e, F g e → e.isException = false → E g e) :
    (onException p last).Watched A m Q E g := by
  refine watched_tryCatch hp fun g e he => ?_
  cases hkind : e.isException with
  | true =>
      rw [if_pos rfl]
      exact watched_bind (hlast g e he hkind) fun g' _ h => watched_raise h
  | false =>
      rw [if_neg Bool.false_ne_true]
      exact watched_raise (hbase g e he hkind)

/-- **Every way through `conn`.** -/
theorem Follows.conn_watched {g : G} (hg : before g) :
    conn.Watched A m (fun g _ => left g) (fun g _ => left g) g := by
  have hneutral : ∀ {c : Call} {g : G}, c.neutral = true → before g →
      (call c).Watched A m (fun g _ => before g) (fun g _ => left g) g := by
    intro c g hc hg
    obtain ⟨hpass, hnext⟩ := h.neutral c hc g
    refine watched_perform hpass (fun a _ => ?_) fun e _ => ?_
    · rw [hnext]
      exact hg
    · rw [hnext]
      exact h.leaves g hg
  have hrelease : ∀ g, slot g → (call .release).Watched A m (fun g _ => left g) (fun g _ => left g) g := by
    intro g hg
    obtain ⟨hpass, hnext⟩ := h.release g hg
    exact watched_perform hpass (fun a _ => hnext _) fun e _ => hnext _
  -- the last lines, on the way out of the second `try`
  have hback : ∀ g, connection g → (call .putconn >>= fun _ => call .release).Watched A m
      (fun g _ => left g) (fun g _ => left g) g := by
    intro g hg
    obtain ⟨hpass, hok, herror⟩ := h.putconn g hg
    exact watched_bind (M := fun g _ => slot g) (watched_perform hpass (fun _ _ => hok) herror)
      fun g _ hg => hrelease g hg
  refine watched_bind (M := fun g _ => before g) (hneutral rfl hg) fun g _ hg => ?_
  refine watched_bind (M := fun g _ => before g) (hneutral rfl hg) fun g missing hg => ?_
  cases missing with
  | true => exact h.leaves g hg
  | false =>
      obtain ⟨hpass, htrue, hfalse, herror⟩ := h.acquire g hg
      refine watched_bind (M := fun g got => if got then slot g else left g) ?_ fun g got hg => ?_
      · refine watched_perform hpass (fun got _ => ?_) fun e _ => herror e
        cases got with
        | false => exact hfalse
        | true => exact htrue
      cases got with
      | false => exact hg
      | true =>
          obtain ⟨hpass, hok, herror⟩ := h.getconn g hg
          refine watched_bind (M := fun g _ => connection g) ?_ fun g _ hg => ?_
          · refine onException_watched (F := fun g e => if e.isException then slot g else left g)
              (watched_perform hpass (fun _ _ => hok) herror) (fun g e hg hkind => ?_) fun g e hg hkind => ?_
            · rw [if_pos hkind] at hg
              exact hrelease g hg
            · rwa [hkind] at hg
          refine watched_tryFinally (M := fun g _ => connection g) (F := fun g _ => connection g) ?_
            (fun g _ hg => hback g hg) fun g _ hg => hback g hg
          exact onException_watched (F := fun g _ => connection g) (h.transaction_watched hg)
            (fun g e hg _ => h.neutral_watched rfl hg) fun g e hg _ => hg

end Text

/-! ### One thread -/

/-- What a thread has taken and not given back. -/
inductive Holding
  | nothing
  | slot
  | connection
  /-- `putconn` raised: the slot is never released -/
  | lost
  deriving DecidableEq

/-- What each call asks of the thread, and leaves it with. -/
def discipline : Prog.Monitor Call Call.Answer Raised Holding where
  pass g c := match c with
    | .acquire => g = .nothing
    | .getconn => g = .slot
    | .putconn => g = .connection
    | .release => g = .slot
    | _ => True
  next g c r := match c, r with
    | .acquire, .ok true => .slot
    | .getconn, .ok _ => .connection
    | .putconn, .ok _ => .slot
    | .putconn, .error _ => .lost
    | .release, _ => .nothing
    | _, _ => g

/-- A thread may leave with its slot if `putconn` raised, or `getconn` raised what
`except Exception` does not catch. -/
theorem discipline_follows {A : (c : Call) → Except Raised c.Answer → Prop} {left : Holding → Prop}
    (hnothing : left .nothing) (hlost : ∀ e, A .putconn (.error e) → left .lost)
    (hslot : ∀ e, A .getconn (.error e) → e.isException = false → left .slot) :
    Follows A discipline (· = .nothing) (· = .slot) (· = .connection) left where
  neutral c hc g := by
    cases c <;> first | exact ⟨trivial, fun _ => rfl⟩ | exact absurd hc (by decide)
  leaves := by
    rintro _ rfl
    exact hnothing
  acquire := by
    rintro _ rfl
    exact ⟨rfl, rfl, hnothing, fun _ => hnothing⟩
  getconn := by
    rintro _ rfl
    refine ⟨rfl, rfl, fun e he => ?_⟩
    split
    · rfl
    · exact hslot e he (by simpa using ‹¬ e.isException = true›)
  putconn := by
    rintro _ rfl
    exact ⟨rfl, rfl, hlost⟩
  release := by
    rintro _ rfl
    exact ⟨rfl, fun _ => hnothing⟩

/-! ### All threads -/

section Threads

variable {ι : Type} [Fintype ι]

/-- Some measure of what they hold, over all threads. -/
def tally (measure : Holding → ℕ) (status : ι → Holding) : ℕ := ∑ i, measure (status i)

/-- One thread moves on. -/
theorem tally_update [DecidableEq ι] (measure : Holding → ℕ) (status : ι → Holding) (i : ι) (g : Holding) :
    tally measure (Function.update status i g) + measure (status i) = tally measure status + measure g := by
  have hsplit : ∀ g, tally measure (Function.update status i g) =
      measure g + ∑ j ∈ Finset.univ \ {i}, measure (status j) := by
    intro g
    unfold tally
    rw [← Finset.sum_update_of_mem (Finset.mem_univ i)]
    refine Finset.sum_congr rfl fun j _ => ?_
    by_cases hj : j = i
    · subst hj
      simp
    · simp [hj]
  have hsame := hsplit (status i)
  rw [Function.update_eq_self] at hsame
  rw [hsplit g, hsame]
  omega

theorem le_tally (measure : Holding → ℕ) (status : ι → Holding) (i : ι) :
    measure (status i) ≤ tally measure status :=
  Finset.single_le_sum (f := fun i => measure (status i)) (fun _ _ => Nat.zero_le _) (Finset.mem_univ i)

def hasSlot : Holding → ℕ
  | .slot => 1
  | _ => 0

def hasConnection : Holding → ℕ
  | .connection => 1
  | _ => 0

variable [DecidableEq ι] {max : ℕ} {s s' : System ι}

/-- The threads keep to the discipline, and the counters are what they hold. -/
structure Inv (max : ℕ) (s : System ι) (status : ι → Holding) : Prop where
  watched : ∀ i, (s.threads i).Watched (fun _ _ => True) discipline (fun _ _ => True)
    (fun _ _ => True) (status i)
  bound : s.state.out + tally hasSlot status + s.state.slots ≤ max
  out : tally hasConnection status ≤ s.state.out
  balance : s.state.slots + s.state.acquired = max + s.state.released

omit [DecidableEq ι] in
theorem inv_start : Inv max (⟨.start max, fun _ => .ret ()⟩ : System ι) fun _ => .nothing where
  watched _ := trivial
  bound := by simp [tally, hasSlot, State.start]
  out := by simp [tally, hasConnection]
  balance := rfl

omit [Fintype ι] in
/-- What a thread has come to, it has come to by the discipline. -/
theorem watched_update {A : (c : Call) → Except Raised c.Answer → Prop} {Q : Holding → Unit → Prop}
    {E : Holding → Raised → Prop} {threads : ι → Program Unit} {status : ι → Holding}
    (h : ∀ i, (threads i).Watched A discipline Q E (status i)) {i : ι} {p : Program Unit} {g : Holding}
    (hp : p.Watched A discipline Q E g) (j : ι) :
    (Function.update threads i p j).Watched A discipline Q E (Function.update status i g j) := by
  by_cases hj : j = i
  · subst hj
    simpa using hp
  · simpa [hj] using h j

/-- One answer keeps the accounts: a slot or a connection that is taken is held. -/
theorem Answers.accounts {c : Call} {r : Except Raised c.Answer} {st st' : State} {g : Holding}
    (h : Answers max c st r st') (hpass : discipline.pass g c) (hout : hasConnection g ≤ st.out) :
    st'.out + hasSlot (discipline.next g c r) + st'.slots ≤ st.out + hasSlot g + st.slots ∧
    hasConnection (discipline.next g c r) + st.out ≤ hasConnection g + st'.out ∧
    st'.slots + st'.acquired + st.released = st.slots + st.acquired + st'.released := by
  cases h with
  | acquire hslots =>
      cases hpass
      simp only [discipline, hasSlot, hasConnection]
      omega
  | getconn hroom =>
      cases hpass
      simp only [discipline, hasSlot, hasConnection, and_true]
      omega
  | putconn =>
      cases hpass
      simp only [discipline, hasSlot, hasConnection, and_true] at hout ⊢
      omega
  | putconnFails e =>
      cases hpass
      simp only [discipline, hasSlot, hasConnection, and_true] at hout ⊢
      omega
  | putconnFailsLate e =>
      cases hpass
      simp only [discipline, hasSlot, hasConnection, and_true] at hout ⊢
      omega
  | release hslots =>
      cases hpass
      simp only [discipline, hasSlot, hasConnection]
      omega
  | overRelease hslots =>
      cases hpass
      simp only [discipline, hasSlot, hasConnection, and_true]
      omega
  | _ => exact ⟨le_refl _, le_refl _, rfl⟩

theorem Inv.step {status : ι → Holding} (h : Inv max s status) (hstep : Step (Answers max) s s') :
    ∃ status', Inv max s' status' := by
  cases hstep with
  | enter i _ =>
      have hslot := tally_update hasSlot status i .nothing
      have hconn := tally_update hasConnection status i .nothing
      have hbound := h.bound
      have hout := h.out
      simp only [hasSlot, hasConnection] at hslot hconn
      refine ⟨Function.update status i .nothing, watched_update h.watched ?_, ?_, ?_, h.balance⟩
      · exact (discipline_follows trivial (fun _ _ => trivial) fun _ _ _ => trivial).conn_watched rfl
      · simp only
        omega
      · simp only
        omega
  | @call i c k r state' hthread hanswer =>
      obtain ⟨hpass, hrest⟩ : (Prog.call c k).Watched (fun _ _ => True) discipline (fun _ _ => True)
          (fun _ _ => True) (status i) := hthread ▸ h.watched i
      have hslot := tally_update hasSlot status i (discipline.next (status i) c r)
      have hconn := tally_update hasConnection status i (discipline.next (status i) c r)
      have hheld : hasConnection (status i) ≤ tally hasConnection status := le_tally _ _ i
      have hbound := h.bound
      have hout := h.out
      have hbalance := h.balance
      obtain ⟨hfirst, hsecond, hthird⟩ := hanswer.accounts hpass (hheld.trans hout)
      refine ⟨Function.update status i (discipline.next (status i) c r),
        watched_update h.watched (hrest r trivial), ?_, ?_, ?_⟩ <;> simp only <;> omega

theorem Reached.inv (h : Reached (Answers max) max s) : ∃ status, Inv max s status := by
  induction h with
  | refl => exact ⟨_, inv_start⟩
  | tail _ hstep ih =>
      obtain ⟨status, hinv⟩ := ih
      exact hinv.step hstep

end Threads

/-- **The pool is never exhausted.** At any moment at most as many connections are
out as slots are held, and those are at most `max`; `getconn` is only called with
a connection left, and no release goes beyond the acquisitions. -/
theorem pool_never_exhausted {ι : Type} [Fintype ι] [DecidableEq ι] {max : ℕ} {s : System ι}
    (h : Reached (Answers max) max s) :
    s.state.out ≤ s.state.acquired - s.state.released ∧
    s.state.acquired - s.state.released ≤ max ∧
    s.state.released ≤ s.state.acquired ∧
    (∀ i k, s.threads i = .call .getconn k → s.state.out < max) ∧
    ∀ i k, s.threads i = .call .release k → s.state.slots < max := by
  obtain ⟨status, hinv⟩ := h.inv
  have hbound := hinv.bound
  have hbalance := hinv.balance
  refine ⟨by omega, by omega, by omega, fun i k hthread => ?_, fun i k hthread => ?_⟩
  · obtain ⟨hpass, -⟩ : (Prog.call Call.getconn k).Watched (fun _ _ => True) discipline (fun _ _ => True)
      (fun _ _ => True) (status i) := hthread ▸ hinv.watched i
    have hslot : hasSlot (status i) ≤ tally hasSlot status := le_tally _ _ i
    have hone : hasSlot (status i) = 1 := congrArg hasSlot hpass
    omega
  · obtain ⟨hpass, -⟩ : (Prog.call Call.release k).Watched (fun _ _ => True) discipline (fun _ _ => True)
      (fun _ _ => True) (status i) := hthread ▸ hinv.watched i
    have hslot : hasSlot (status i) ≤ tally hasSlot status := le_tally _ _ i
    have hone : hasSlot (status i) = 1 := congrArg hasSlot hpass
    omega

/-- Two threads and one connection: the first thread has it. -/
theorem pool_never_exhausted_pair : ∃ s : System (Fin 2), s.state = ⟨0, 1, 1, 0⟩ ∧
    s.state.out ≤ s.state.acquired - s.state.released ∧ s.state.acquired - s.state.released ≤ 1 := by
  have hreached : ∃ s : System (Fin 2), Reached (Answers 1) 1 s ∧ s.state = ⟨0, 1, 1, 0⟩ := by
    refine ⟨_, ((((Relation.ReflTransGen.refl.tail (.enter 0 trivial)).tail
      (.call (i := 0) rfl (.initDb _))).tail (.call (i := 0) rfl (.poolIsNone _))).tail
      (.call (i := 0) rfl (.acquire Nat.one_pos))).tail (.call (i := 0) rfl (.getconn Nat.one_pos)), rfl⟩
  obtain ⟨s, hs, hstate⟩ := hreached
  exact ⟨s, hstate, (pool_never_exhausted hs).1, (pool_never_exhausted hs).2.1⟩

end FacesService.Pool
