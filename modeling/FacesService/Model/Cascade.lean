import FacesService.Model.Service

/-!
The cascade route of `app/routes/infer.py`, and what it uses of
`app/minio_client.py`. Its calls to the object store fail on their own, one by
one, so the route has calls of its own: the transaction of `cascade_stream`, the
steps of a listing, and the removal of an object. Of an object only its name
matters here.
-/

namespace FacesService

open Prog

variable {K : Type}

/-- What the route can meet: an error of `db.py`, an error of the store with its
`code`, or its own answer to the caller. -/
inductive RouteError
  | db (e : PyError)
  | store (code : Option String)
  | http (status : ℕ) (detail : String)
  deriving DecidableEq

inductive RouteCall
  | cascadeStream (streamId : String)
  /-- `client.list_objects`: a generator, which asks for nothing yet -/
  | listObjects (pre : String)
  /-- a step of the generator, its last one included -/
  | nextObject
  | removeObject (name : String)

@[reducible] def RouteCall.Answer : RouteCall → Type
  | cascadeStream _ => Db.CascadeResult
  | listObjects _ => List String
  | nextObject => Unit
  | removeObject _ => Unit

abbrev RouteProgram (α : Type) := Prog RouteCall RouteCall.Answer RouteError α

/-- One call, as a program. -/
abbrev routeCall (c : RouteCall) : RouteProgram c.Answer := perform c

/-- `getattr(e, "code", None) in ("NoSuchKey", "NotFound")`. -/
def isMissing (code : Option String) : Bool :=
  code = some "NoSuchKey" || code = some "NotFound"

/-- The `except` clause around `remove_object`. -/
def ignoreMissing (e : RouteError) : RouteProgram Unit :=
  match e with
  | .store code => if isMissing code then pure () else raise e
  | _ => raise e

/-- `remove_object`, where a missing object is fine. -/
def removeQuietly (name : String) : RouteProgram Unit :=
  (routeCall (.removeObject name)).tryCatch ignoreMissing

/-- `prefix.rstrip("/") + "/"`. -/
def folder (pre : String) : String :=
  String.ofList (pre.toList.rdropWhile (· = '/')) ++ "/"

/-- `FrameStore.delete_prefix`. -/
def deletePrefix (pre : String) : RouteProgram Unit := do
  let names ← routeCall (.listObjects (folder pre))
  names.forM fun name => do
    routeCall .nextObject
    removeQuietly name
  routeCall .nextObject

/-- `FrameStore.delete_stream_frames`. -/
def deleteStreamFrames (streamId : String) : RouteProgram Unit :=
  deletePrefix ("faces/" ++ streamId)

/-- `FrameStore.delete_crop`. -/
def deleteCrop (ownerId clusterId : String) : RouteProgram Unit :=
  removeQuietly (cropKey ownerId clusterId)

/-- What the route does at the store. -/
def purgeObjects (streamId : String) (deleted : List (String × Uuid)) : RouteProgram Unit := do
  deleteStreamFrames streamId
  deleted.forM fun c => deleteCrop c.1 c.2.text

structure CascadeResponse where
  streamId : String
  result : Db.CascadeResult

/-- `internal_token`: `expected` is `FACES_INTERNAL_TOKEN`. -/
def internalToken (expected : String) (token : Option String) : RouteProgram Unit :=
  if expected = "" then raise (.http 503 "internal token not configured")
  else if token ≠ some expected then raise (.http 401 "invalid internal token")
  else pure ()

/-- The settings of the route and what its caller sends. -/
structure RouteArgs where
  storeReady : Bool
  expected : String
  token : Option String
  streamId : String

/-- `POST /streams/{stream_id}/faces/delete`. -/
def cascadeStreamRoute (args : RouteArgs) : RouteProgram CascadeResponse := do
  internalToken args.expected args.token
  let result ← (routeCall (.cascadeStream args.streamId)).tryCatch
    fun _ => raise (.http 500 "cascade delete failed")
  if args.storeReady then
    (purgeObjects args.streamId result.deletedClusters).tryCatch
      fun _ => raise (.http 500 "cascade storage delete failed")
  return ⟨args.streamId, result⟩

/-! ### A store that fails -/

/-- An error of the store; the object may have gone all the same. -/
structure Fault where
  code : Option String
  done : Bool
  deriving DecidableEq

/-- What the store does at each call made of it, and the clock. -/
structure Weather where
  faults : ℕ → Option Fault
  clock : ℕ → ℕ

/-- The tables, the names in the bucket, and the calls made of the store so far. -/
structure Shelves (K : Type) where
  db : Database K
  names : List String
  calls : ℕ

/-- The name lies in the folder. -/
def inFolder (pre name : String) : Bool := pre.toList.isPrefixOf name.toList

def Shelves.remove (w : Shelves K) (name : String) : Shelves K :=
  { w with names := w.names.filter (· ≠ name) }

def Shelves.tick (w : Shelves K) : Shelves K := { w with calls := w.calls + 1 }

/-- A call of the store: it works, or it raises, with or without its effect. -/
def Shelves.ask (weather : Weather) (w : Shelves K) (effect : Shelves K → Shelves K) :
    Except RouteError Unit × Shelves K :=
  match weather.faults w.calls with
  | none => (.ok (), (effect w).tick)
  | some fault => (.error (.store fault.code), (if fault.done then effect w else w).tick)

/-- The handler of the route, nothing else going on. -/
def shelve (weather : Weather) : Handler RouteCall RouteCall.Answer RouteError (Shelves K)
  | .cascadeStream streamId, w =>
      match Db.cascadeStream (weather.clock w.calls) w.db streamId with
      | .error e => (.error (.db e), w)
      | .ok c => (.ok c.result, { w with db := c.db })
  | .listObjects pre, w => (.ok (w.names.filter (inFolder pre)), w)
  | .nextObject, w => w.ask weather id
  | .removeObject name, w => w.ask weather (·.remove name)

/-- The status of an answer. -/
def statusOf {α : Type} : Except RouteError α → ℕ
  | .ok _ => 200
  | .error (.http status _) => status
  | .error _ => 500

/-- One request. -/
def attempt (weather : Weather) (args : RouteArgs) (w : Shelves K) :
    Except RouteError CascadeResponse × Shelves K :=
  (cascadeStreamRoute args).exec (shelve weather) w

/-- The request is repeated until it answers 200. -/
inductive Retried (weather : Weather) (args : RouteArgs) : Shelves K → Shelves K → Prop
  | done {w : Shelves K} (h : statusOf (attempt weather args w).1 = 200) :
      Retried weather args w (attempt weather args w).2
  | again {w w' : Shelves K} (h : statusOf (attempt weather args w).1 ≠ 200)
      (hrest : Retried weather args (attempt weather args w).2 w') : Retried weather args w w'

end FacesService
