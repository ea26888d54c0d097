import FacesService.Model.App

/-!
`POST /infer` while it runs. The handler waits for a worker thread that runs the
engine; beside it `_watch_disconnect` looks whether the caller has hung up, and if
so sets the event that the worker polls between frames. When the worker is done the
handler sets the event itself and cancels the watcher. The event loop runs one of
the two coroutines at a time, up to its next `await`; the worker and the caller run
beside them.
-/

namespace FacesService

open Prog

variable {K : Type}

/-- Where `_watch_disconnect` stands: before `stop.is_set()`, in
`request.is_disconnected()`, in `asyncio.sleep`, or at its end. -/
inductive Watcher
  | looking
  | asking
  | sleeping
  | finished
  deriving DecidableEq

/-- One request past its checks: the world, whether the caller has hung up, the
event `stop`, the watcher, what is left of the worker, the frames it has asked for,
and the reply. -/
structure Desk (K : Type) where
  world : World K
  hungUp : Bool
  stop : Bool
  watcher : Watcher
  worker : Program K RunResult
  frames : ℕ
  reply : Option (Except PyError InferAnswer)

/-- Whether the call fetches a frame. -/
def Call.fetches : Call K → Bool
  | getFrame .. => true
  | _ => false

/-- What the handler makes of a worker that has come to its end. -/
def Desk.response : Program K RunResult → Option (Except PyError InferAnswer)
  | .ret r => some (.ok (.result r))
  | .raise (.inferenceAborted framesDone) => some (.ok (.clientGone framesDone))
  | .raise e => some (.error e)
  | .call .. => none

variable [Arithmetic K]

/-- The watcher is a task and the worker is started. -/
def Desk.opened (app : App K) (body : InferRequest) (w : World K) : Desk K where
  world := w
  hungUp := false
  stop := false
  watcher := .looking
  worker := run app.service (body.args app.maxFrames)
  frames := 0
  reply := none

omit [Arithmetic K] in
/-- What can happen next, where the calls of the worker are answered as `answers`
has it and others change the world as `env` has it. The caller may be seen to be
gone only once it is, and may be gone for a while before that is seen. -/
inductive Desk.Step (answers : (op : Call K) → World K → Except PyError op.Answer → World K → Prop)
    (env : World K → World K → Prop) : Desk K → Desk K → Prop
  | hangUp (d : Desk K) : Step answers env d { d with hungUp := true }
  | look {d : Desk K} (h : d.watcher = .looking) :
      Step answers env d { d with watcher := if d.stop then .finished else .asking }
  | gone {d : Desk K} (h : d.watcher = .asking) (hgone : d.hungUp = true) :
      Step answers env d { d with stop := true, watcher := .finished }
  | there {d : Desk K} (h : d.watcher = .asking) : Step answers env d { d with watcher := .sleeping }
  | wake {d : Desk K} (h : d.watcher = .sleeping) : Step answers env d { d with watcher := .looking }
  | call {d : Desk K} {op : Call K} {k : Except PyError op.Answer → Program K RunResult}
      {r : Except PyError op.Answer} {w : World K} (h : d.worker = .call op k) (hop : op ≠ .poll)
      (hr : answers op d.world r w) :
      Step answers env d { d with
        world := w
        worker := k r
        frames := d.frames + if op.fetches then 1 else 0 }
  | poll {d : Desk K} {k : Except PyError Bool → Program K RunResult} (h : d.worker = .call .poll k) :
      Step answers env d { d with
        world := { d.world with calls := d.world.calls + 1, polls := d.world.polls + 1 }
        worker := k (.ok d.stop) }
  | respond {d : Desk K} {r : Except PyError InferAnswer} (h : d.reply = none)
      (hr : Desk.response d.worker = some r) :
      Step answers env d { d with reply := some r, stop := true, watcher := .finished }
  | others {d : Desk K} {w : World K} (h : env d.world w) : Step answers env d { d with world := w }

end FacesService
