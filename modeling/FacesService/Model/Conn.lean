import FacesService.Base.Prog
import Mathlib.Logic.Function.Basic
import Mathlib.Logic.Relation
import Mathlib.Data.Nat.Notation

/-!
`conn` of `app/db.py`: a connection for the body of a `with` block, under the
semaphore that stands before the pool. What it calls is the semaphore, the pool
and the connection, and each of them may raise; the body of the block is one more
call. `init_db` has succeeded, so calling it again does nothing.
-/

namespace FacesService.Pool

/-- What may come out of a call. -/
inductive Raised
  | dbBusyError
  | runtimeError
  | poolError
  | valueError
  /-- any other `Exception` -/
  | exception
  /-- `KeyboardInterrupt` and the like, which `except Exception` does not catch -/
  | baseException
  deriving DecidableEq

/-- `isinstance(e, Exception)`. -/
def Raised.isException : Raised → Bool
  | baseException => false
  | _ => true

inductive Call
  | initDb
  /-- `_pool is None` -/
  | poolIsNone
  | acquire
  | getconn
  | cursor
  | body
  | closeCursor
  | commit
  | rollback
  | putconn
  | release
  deriving DecidableEq

@[reducible] def Call.Answer : Call → Type
  | poolIsNone => Bool
  | acquire => Bool
  | _ => Unit

abbrev Program := Prog Call Call.Answer Raised

abbrev call (c : Call) : Program c.Answer := Prog.perform c

/-- `try: p except Exception: last; raise`. -/
def onException {α : Type} (p : Program α) (last : Program Unit) : Program α :=
  p.tryCatch fun e => if e.isException then last >>= fun _ => .raise e else .raise e

/-- `with c.cursor(…) as cur: yield cur`, then `c.commit()`. -/
def transaction : Program Unit := do
  call .cursor
  (call .body).tryFinally (call .closeCursor)
  call .commit

/-- `conn`. -/
def conn : Program Unit := do
  call .initDb
  if ← call .poolIsNone then .raise .runtimeError
  else if ← call .acquire then do
    onException (call .getconn) (call .release)
    (onException transaction (call .rollback)).tryFinally do
      call .putconn
      call .release
  else .raise .dbBusyError

/-! ### The semaphore and the pool -/

structure State where
  /-- the value of the semaphore -/
  slots : ℕ
  /-- the connections checked out of the pool -/
  out : ℕ
  /-- how often the semaphore was acquired and released -/
  acquired : ℕ
  released : ℕ
  deriving DecidableEq

/-- After `init_db`. -/
def State.start (max : ℕ) : State := ⟨max, 0, 0, 0⟩

/-- What a call may answer, and do. A `putconn` that raises may or may not have
taken the connection back; any other call that raises has changed nothing. -/
inductive Answers (max : ℕ) : (c : Call) → State → Except Raised c.Answer → State → Prop
  | initDb (s : State) : Answers max .initDb s (.ok ()) s
  | poolIsNone (s : State) : Answers max .poolIsNone s (.ok false) s
  | acquire {s : State} (h : 0 < s.slots) : Answers max .acquire s (.ok true)
      { s with slots := s.slots - 1, acquired := s.acquired + 1 }
  | timeout {s : State} (h : s.slots = 0) : Answers max .acquire s (.ok false) s
  | getconn {s : State} (h : s.out < max) : Answers max .getconn s (.ok ()) { s with out := s.out + 1 }
  | exhausted {s : State} (h : max ≤ s.out) : Answers max .getconn s (.error .poolError) s
  | getconnFails (s : State) (e : Raised) : Answers max .getconn s (.error e) s
  | cursor (s : State) (r : Except Raised Unit) : Answers max .cursor s r s
  | body (s : State) (r : Except Raised Unit) : Answers max .body s r s
  | closeCursor (s : State) (r : Except Raised Unit) : Answers max .closeCursor s r s
  | commit (s : State) (r : Except Raised Unit) : Answers max .commit s r s
  | rollback (s : State) (r : Except Raised Unit) : Answers max .rollback s r s
  | putconn (s : State) : Answers max .putconn s (.ok ()) { s with out := s.out - 1 }
  | putconnFails (s : State) (e : Raised) : Answers max .putconn s (.error e) s
  | putconnFailsLate (s : State) (e : Raised) : Answers max .putconn s (.error e) { s with out := s.out - 1 }
  | release {s : State} (h : s.slots < max) : Answers max .release s (.ok ())
      { s with slots := s.slots + 1, released := s.released + 1 }
  /-- the semaphore is bounded -/
  | overRelease {s : State} (h : max ≤ s.slots) : Answers max .release s (.error .valueError) s

/-! ### Threads -/

/-- The threads and what is left of the `conn` each is in. -/
structure System (ι : Type) where
  state : State
  threads : ι → Program Unit

/-- Nothing is left. -/
def Idle {α : Type} : Program α → Prop
  | .call _ _ => False
  | _ => True

variable {ι : Type} [DecidableEq ι]

/-- One step of one thread: it enters `conn`, or its next call is answered as `answers` has it. -/
inductive Step (answers : (c : Call) → State → Except Raised c.Answer → State → Prop) :
    System ι → System ι → Prop
  | enter {s : System ι} (i : ι) (h : Idle (s.threads i)) :
      Step answers s { s with threads := Function.update s.threads i conn }
  | call {s : System ι} {i : ι} {c : Call} {k : Except Raised c.Answer → Program Unit}
      {r : Except Raised c.Answer} {state' : State} (h : s.threads i = .call c k)
      (hanswer : answers c s.state r state') :
      Step answers s ⟨state', Function.update s.threads i (k r)⟩

/-- The systems the threads can come to. -/
def Reached (answers : (c : Call) → State → Except Raised c.Answer → State → Prop) (max : ℕ)
    (s : System ι) : Prop :=
  Relation.ReflTransGen (Step answers) ⟨.start max, fun _ => .ret ()⟩ s

end FacesService.Pool
