import Mathlib.Logic.Function.Basic
import Mathlib.Data.Nat.Notation

/-!
`SuggestionIndexCache` of `app/clustering.py` with its clock, under threads. A write
is committed at some time, in this process or in another one, and may or may not be
followed by a `bump` here; so the entry of an owner may be out of date, and what ends
that is the TTL. An index is known by the number of commits for its owner that its
builder has seen.
-/

namespace FacesService.Clocked

/-- An index, and the time from the read of the tables to its end. -/
structure Built where
  value : ℕ
  took : ℕ
  deriving DecidableEq

/-- `(epoch, stored_at, value)`. -/
structure Entry where
  epoch : ℕ
  storedAt : ℕ
  index : Built
  deriving DecidableEq

/-- How far a thread has come. -/
inductive Phase
  | idle
  /-- `self.epoch(owner_id)` gave `epoch` to `bump` -/
  | bumping (owner : String) (epoch : ℕ)
  /-- `self._epoch[owner_id]` is written -/
  | popping (owner : String)
  /-- `epoch = self.epoch(owner_id)` is read by `get` -/
  | looking (owner : String) (epoch : ℕ)
  /-- the entry is of this epoch; the clock is next -/
  | timing (owner : String) (epoch storedAt : ℕ) (index : Built)
  | building (owner : String) (epoch : ℕ)
  /-- the builder has read the tables at `readAt` -/
  | built (owner : String) (epoch value readAt : ℕ)
  /-- the clock is read for `stored_at` -/
  | storing (owner : String) (epoch storedAt : ℕ) (index : Built)
  /-- `get` returns an index, having read the clock at `checkedAt` -/
  | returned (owner : String) (checkedAt : ℕ) (index : Built)
  deriving DecidableEq

structure State where
  now : ℕ
  /-- the times of the commits for an owner, in their order -/
  commits : String → List ℕ
  epoch : String → ℕ
  entries : String → Option Entry
  threads : ℕ → Phase

def State.start : State where
  now := 0
  commits _ := []
  epoch _ := 0
  entries _ := none
  threads _ := .idle

def State.goto (s : State) (i : ℕ) (p : Phase) : State :=
  { s with threads := Function.update s.threads i p }

/-- The thread waits for something to do. -/
def Phase.free : Phase → Bool
  | idle => true
  | returned .. => true
  | _ => false

inductive Action
  | tick (d : ℕ)
  /-- somebody commits a write for an owner -/
  | commit (owner : String)
  | bump (i : ℕ) (owner : String)
  | get (i : ℕ) (owner : String)
  | clear
  /-- a thread goes on -/
  | advance (i : ℕ)

/-- The next step of `bump` or of `get`. -/
def State.advance (ttl : ℕ) (s : State) (i : ℕ) : Option State :=
  match s.threads i with
  | .bumping owner epoch =>
      some ({ s with epoch := Function.update s.epoch owner (epoch + 1) }.goto i (.popping owner))
  | .popping owner => some ({ s with entries := Function.update s.entries owner none }.goto i .idle)
  | .looking owner epoch =>
      match s.entries owner with
      | none => some (s.goto i (.building owner epoch))
      | some e =>
          if e.epoch = epoch then some (s.goto i (.timing owner epoch e.storedAt e.index))
          else some (s.goto i (.building owner epoch))
  | .timing owner epoch storedAt index =>
      if s.now - storedAt < ttl then some (s.goto i (.returned owner s.now index))
      else some (s.goto i (.building owner epoch))
  | .building owner epoch => some (s.goto i (.built owner epoch (s.commits owner).length s.now))
  | .built owner epoch value readAt =>
      some (s.goto i (.storing owner epoch s.now ⟨value, s.now - readAt⟩))
  | .storing owner epoch storedAt index =>
      let s := { s with entries := Function.update s.entries owner (some ⟨epoch, storedAt, index⟩) }
      some (s.goto i (.returned owner storedAt index))
  | _ => none

/-- One step, if it can be made. -/
def State.step (ttl : ℕ) (s : State) : Action → Option State
  | .tick d => some { s with now := s.now + d }
  | .commit owner => some { s with commits := Function.update s.commits owner (s.commits owner ++ [s.now]) }
  | .bump i owner => if (s.threads i).free then some (s.goto i (.bumping owner (s.epoch owner))) else none
  | .get i owner => if (s.threads i).free then some (s.goto i (.looking owner (s.epoch owner))) else none
  | .clear => some { s with entries := fun _ => none }
  | .advance i => s.advance ttl i

/-- A sequence of steps, in any order. -/
def State.play (ttl : ℕ) : State → List Action → Option State
  | s, [] => some s
  | s, a :: actions =>
      match s.step ttl a with
      | none => none
      | some s' => s'.play ttl actions

end FacesService.Clocked
