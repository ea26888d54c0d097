import FacesService.Base.Crew
import FacesService.Model.Assist
import FacesService.Model.Auth
import FacesService.Model.Cascade

/-!
The whole service: its three kinds of requests, each of them authorized before
anything else, and any number of threads that take them up, in one process or in
several. A call may fail, with or without its effect, the cache may be that of
another process, and a poll answers as it likes: what is proved of the service is
proved under all of that.
-/

namespace FacesService

open Prog

variable {K : Type} [Arithmetic K]

/-- A deployment with its `_token_service`, `FACES_INTERNAL_TOKEN` and `FACES_MAX_FRAMES`. -/
structure App (K : Type) where
  service : Service K
  identity : Auth.Identity
  tokens : Option Auth.TokenService
  internalToken : String
  maxFrames : ℤ

/-! ### The endpoints -/

structure InferRequest where
  streamId : String
  ownerId : String
  framesPrefix : String
  count : ℤ

/-- The arguments the route hands to the engine. -/
def InferRequest.args (maxFrames : ℤ) (body : InferRequest) : RunArgs where
  streamId := body.streamId
  ownerId := body.ownerId
  framesPrefix := body.framesPrefix
  count := body.count
  maxFrames := maxFrames
  cancel := true
  cancelEvery := 10

/-- The answer of `POST /infer`: the result, or status 499. -/
inductive InferAnswer
  | result (r : RunResult)
  | clientGone (framesDone : ℕ)
  deriving DecidableEq

/-- `except InferenceAborted`. -/
def answerAborted : PyError → Program K InferAnswer
  | .inferenceAborted framesDone => pure (.clientGone framesDone)
  | e => raise e

/-- The checks of `POST /infer`. -/
def admitInfer (app : App K) (token : Option String) (body : InferRequest) : Except PyError Unit := do
  (Auth.internalToken app.internalToken token).mapError Reader.asHttp
  if body.count ≤ 0 then .error (.http 400 "count must be positive")
  Reader.engineOr503 app.service

/-- `POST /infer`. -/
def infer (app : App K) (token : Option String) (body : InferRequest) : Program K InferAnswer := do
  lift (admitInfer app token body)
  (InferAnswer.result <$> run app.service (body.args app.maxFrames)).tryCatch answerAborted

/-- A request of the reader, as it comes in: `_auth`, then the endpoint. -/
def read (app : App K) (authorization : Option String) (r : Reader.Request K) : Program K r.Body := do
  let auth ← lift (Auth.authorized app.identity app.tokens authorization)
  Reader.serve app.service auth r

def App.routeArgs (app : App K) (token : Option String) (streamId : String) : RouteArgs where
  storeReady := app.service.storeReady
  expected := app.internalToken
  token := token
  streamId := streamId

/-! ### Threads -/

inductive Incoming (K : Type)
  | read (authorization : Option String) (r : Reader.Request K)
  | infer (token : Option String) (body : InferRequest)
  | cascade (token : Option String) (streamId : String)

/-- What is left of the request a thread has taken up; its response is not kept. -/
inductive Thread (K : Type)
  | program (p : Program K Unit)
  | route (p : RouteProgram Unit)

def Thread.Finished : Thread K → Prop
  | .program (.call ..) => False
  | .route (.call ..) => False
  | _ => True

def Incoming.start (app : App K) : Incoming K → Thread K
  | .read authorization r => .program (FacesService.read app authorization r >>= fun _ => pure ())
  | .infer token body => .program (FacesService.infer app token body >>= fun _ => pure ())
  | .cascade token streamId =>
      .route (cascadeStreamRoute (app.routeArgs token streamId) >>= fun _ => pure ())

/-- What a call may answer and do. A write that committed bumps nothing if the
commit is not acknowledged. -/
inductive Outcome (pf : Platform K) (oracle : Oracle) :
    (op : Call K) → World K → Except PyError op.Answer → World K → Prop
  | works (op : Call K) (w : World K) :
      Outcome pf oracle op w (answer pf oracle op w).1 (answer pf oracle op w).2
  | fails (op : Call K) (w : World K) (e : PyError) : Outcome pf oracle op w (.error e) w
  | unacknowledged (op : Call K) (w : World K) (e : PyError) :
      Outcome pf oracle op w (.error e)
        { (answer pf oracle op w).2 with epoch := w.epoch, entries := w.entries }
  | cached (ownerId : String) (w : World K) (a : ℕ × Option (SuggestionIndex K)) :
      Outcome pf oracle (.cacheLookup ownerId) w (.ok a) w
  | polled (w : World K) (gone : Bool) : Outcome pf oracle .poll w (.ok gone) w

/-- What a call of the cascade route may answer and do: its transaction as any
write, a listing whatever lies in the folder. -/
inductive RouteOutcome (pf : Platform K) (oracle : Oracle) :
    (op : RouteCall) → World K → Except RouteError op.Answer → World K → Prop
  | cascaded (streamId : String) {w w' : World K} {r : Except PyError Db.CascadeResult}
      (h : Outcome pf oracle (.write (.cascadeStream streamId)) w r w') :
      RouteOutcome pf oracle (.cascadeStream streamId) w (r.mapError .db) w'
  | listed (pre : String) (w : World K) (names : List String) (h : ∀ name ∈ names, inFolder pre name) :
      RouteOutcome pf oracle (.listObjects pre) w (.ok names) w
  | next (w : World K) : RouteOutcome pf oracle .nextObject w (.ok ()) w
  | removed (name : String) (w : World K) (r : Except RouteError Unit) :
      RouteOutcome pf oracle (.removeObject name) w r (w.setObject name none)
  | fails (op : RouteCall) (w : World K) (code : Option String) :
      RouteOutcome pf oracle op w (.error (.store code)) w

/-- A move of a thread: it takes up a request, or its next call is answered. Meanwhile
frames are uploaded and taken away by others. -/
inductive Thread.Move (app : App K) (oracle : Oracle) (accepts : Incoming K → Prop) :
    Thread K → World K → Thread K → World K → Prop
  | accept {t : Thread K} {w : World K} {request : Incoming K} (ht : t.Finished) (h : accepts request) :
      Move app oracle accepts t w (request.start app) w
  | call {op : Call K} {k : Except PyError op.Answer → Program K Unit} {r : Except PyError op.Answer}
      {w w' : World K} (h : Outcome app.service.pf oracle op w r w') :
      Move app oracle accepts (.program (.call op k)) w (.program (k r)) w'
  | route {op : RouteCall} {k : Except RouteError op.Answer → RouteProgram Unit}
      {r : Except RouteError op.Answer} {w w' : World K} (h : RouteOutcome app.service.pf oracle op w r w') :
      Move app oracle accepts (.route (.call op k)) w (.route (k r)) w'
  | frame {t : Thread K} {w : World K} (pre : String) (index : ℕ) (blob : Option Blob) :
      Move app oracle accepts t w t (w.setObject (frameKey pre index) blob)

/-- The service at one moment. -/
abbrev Running (ι K : Type) := Crew ι (Thread K) (World K)

/-- All threads are idle. -/
def Running.start (ι : Type) (w : World K) : Running ι K := ⟨w, fun _ => .program (.ret ())⟩

/-- The service comes from one moment to another, the requests being such as `accepts` has them. -/
abbrev Running.Leads {ι : Type} [DecidableEq ι] (app : App K) (oracle : Oracle)
    (accepts : Incoming K → Prop) : Running ι K → Running ι K → Prop :=
  Relation.ReflTransGen (Crew.Step (Thread.Move app oracle accepts))

end FacesService
