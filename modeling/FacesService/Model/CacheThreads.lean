import Mathlib.Logic.Function.Basic
import Mathlib.Data.Nat.Notation

/-!
`SuggestionIndexCache` of `app/clustering.py` under threads. Nothing locks the
cache, so each access to one of its two dicts is a step of its own, and the steps
of `bump` and `get` interleave in any way. An index is known by the number of
writes for its owner that were committed when its builder read the tables; time
stays within the TTL.
-/

namespace FacesService.Threads

/-- How far a thread has come. -/
inductive Phase
  | idle
  /-- the write is committed, as the `ticket`-th of the owner; `bump` is called -/
  | committed (owner : String) (ticket : ℕ)
  /-- `self.epoch(owner_id)` gave `epoch` -/
  | bumping (owner : String) (ticket epoch : ℕ)
  /-- `self._epoch[owner_id]` is written -/
  | popping (owner : String) (ticket : ℕ)
  /-- `get` is called, the bumps up to write `seen` having returned -/
  | called (owner : String) (seen : ℕ)
  /-- `epoch = self.epoch(owner_id)` is read -/
  | looking (owner : String) (seen epoch : ℕ)
  /-- the entry was missing, or of another epoch -/
  | building (owner : String) (seen epoch : ℕ)
  /-- the builder has read the tables after write `value` -/
  | storing (owner : String) (seen epoch value : ℕ)
  /-- `get` has returned that index -/
  | returned (owner : String) (seen value : ℕ)
  deriving DecidableEq

structure State where
  /-- the writes committed for an owner -/
  commits : String → ℕ
  /-- the last of them whose `bump` has returned -/
  bumped : String → ℕ
  /-- `self._epoch` -/
  epoch : String → ℕ
  /-- `self._entries`: the epoch and the index of each entry -/
  entries : String → Option (ℕ × ℕ)
  threads : ℕ → Phase

/-- A process that has just started. -/
def State.start : State where
  commits _ := 0
  bumped _ := 0
  epoch _ := 0
  entries _ := none
  threads _ := .idle

def State.goto (s : State) (i : ℕ) (p : Phase) : State :=
  { s with threads := Function.update s.threads i p }

/-- The thread waits for something to do. -/
def Phase.free : Phase → Bool
  | idle => true
  | returned .. => true
  | _ => false

inductive Action
  /-- a thread commits a write for an owner -/
  | write (i : ℕ) (owner : String)
  /-- a thread calls `get` -/
  | get (i : ℕ) (owner : String)
  /-- a thread goes on -/
  | advance (i : ℕ)

/-- The next step of `bump` or of `get`. -/
def State.advance (s : State) (i : ℕ) : Option State :=
  match s.threads i with
  | .committed owner ticket => some (s.goto i (.bumping owner ticket (s.epoch owner)))
  | .bumping owner ticket epoch =>
      let s := { s with epoch := Function.update s.epoch owner (epoch + 1) }
      some (s.goto i (.popping owner ticket))
  | .popping owner ticket =>
      let s := { s with
        entries := Function.update s.entries owner none
        bumped := Function.update s.bumped owner (max (s.bumped owner) ticket) }
      some (s.goto i .idle)
  | .called owner seen => some (s.goto i (.looking owner seen (s.epoch owner)))
  | .looking owner seen epoch =>
      match s.entries owner with
      | none => some (s.goto i (.building owner seen epoch))
      | some (storedEpoch, value) =>
          if storedEpoch = epoch then some (s.goto i (.returned owner seen value))
          else some (s.goto i (.building owner seen epoch))
  | .building owner seen epoch => some (s.goto i (.storing owner seen epoch (s.commits owner)))
  | .storing owner seen epoch value =>
      let s := { s with entries := Function.update s.entries owner (some (epoch, value)) }
      some (s.goto i (.returned owner seen value))
  | _ => none

/-- One step of one thread, if it can make it. -/
def State.step (s : State) : Action → Option State
  | .write i owner =>
      if (s.threads i).free then
        let s := { s with commits := Function.update s.commits owner (s.commits owner + 1) }
        some (s.goto i (.committed owner (s.commits owner)))
      else none
  | .get i owner =>
      if (s.threads i).free then some (s.goto i (.called owner (s.bumped owner))) else none
  | .advance i => s.advance i

/-- A sequence of steps, of any threads in any order. -/
def State.play : State → List Action → Option State
  | s, [] => some s
  | s, a :: actions =>
      match s.step a with
      | none => none
      | some s' => s'.play actions

/-- No `get` has returned an index from before a write that was bumped when it was called. -/
def Safe (s : State) : Prop :=
  ∀ i owner seen value, s.threads i = .returned owner seen value → seen ≤ value

end FacesService.Threads
