import FacesService.Store.Tenants
import Mathlib.Logic.Function.Basic

/-!
`rename_cluster`, statement by statement, with any number of calls under way at a
time. A statement sees what is committed; nothing holds a row between the check of
the name and the update, so what the check has found may be past when the update
runs. The tables have the unique index on `(owner_id, lower(name))`: an update waits
for another one that is not committed and has the same row or one of its names, and
raises if another row has the name by then.
-/

namespace FacesService.RenameTx

open Db

variable {ι K : Type}

/-- The arguments of a call. -/
structure Args where
  clusterId : String
  ownerId : String
  name : Option String
  deriving DecidableEq

/-- The value of the call, or what it raises. -/
abbrev Reply := Except PyError (Option (String × String))

/-- How far a call has come. -/
inductive Phase
  | called
  /-- the cluster is there, and the owner's -/
  | owned (id owner : Uuid)
  /-- no other cluster of the owner has the name -/
  | cleared (id : Uuid)
  /-- the row is written and not committed -/
  | written (id : Uuid)
  | done (reply : Reply)
  deriving DecidableEq

/-- The committed tables, and the calls. -/
structure Renames (ι K : Type) where
  db : Database K
  phases : ι → Phase

/-- The reply of a call, once there is one. -/
def Phase.reply : Phase → Option Reply
  | done r => some r
  | _ => none

/-! ### The statements -/

/-- `SELECT owner_id, name FROM clusters WHERE id = …`, and what follows from it. -/
def select (db : Database K) (call : Args) : Phase :=
  match castUuid call.clusterId with
  | .error e => .done (.error e)
  | .ok id =>
      match db.clusterById id with
      | none => .done (.ok (some ("not_found", "cluster not found")))
      | some row =>
          if row.ownerId.text ≠ call.ownerId then .done (.ok (some ("not_found", "cluster not found")))
          else .owned id row.ownerId

/-- `SELECT id FROM clusters WHERE … lower(name) = lower(…)`; a call without a name skips it. -/
def check (pf : Platform K) (db : Database K) (call : Args) (id owner : Uuid) : Phase :=
  if nameTaken pf db owner id (storedName call.name) then .done (.ok (some ("conflict", "name already in use")))
  else .cleared id

/-- `UPDATE clusters SET name = …, is_named = …`, as far as the index lets it. -/
def update (pf : Platform K) (db : Database K) (call : Args) (id : Uuid) : Phase :=
  match db.clusterById id with
  | none => .done (.ok none)
  | some row =>
      if nameTaken pf db row.ownerId id (storedName call.name) then .done (.error .integrity)
      else .written id

/-- The tables once the update is committed. -/
def renamed (now : ℕ) (db : Database K) (call : Args) (id : Uuid) : Database K :=
  db.updateClusters (fun c => c.id = id) fun c =>
    { c with name := storedName call.name, isNamed := (storedName call.name).isSome, updatedAt := now }

/-- The update of `call` waits for `other`, which has written the row `id'`: it is the
same row, or one of the two names of that row, the committed and the new one, is the
name to be set. -/
def Awaits (pf : Platform K) (db : Database K) (call : Args) (id : Uuid) (other : Args) (id' : Uuid) : Prop :=
  id' = id ∨ ∃ row row', db.clusterById id = some row ∧ db.clusterById id' = some row' ∧
    row'.ownerId = row.ownerId ∧ storedName call.name ≠ none ∧
    (row'.name.map pf.lower = (storedName call.name).map pf.lower ∨
      (storedName other.name).map pf.lower = (storedName call.name).map pf.lower)

/-! ### Steps -/

def Renames.goto [DecidableEq ι] (s : Renames ι K) (i : ι) (p : Phase) : Renames ι K :=
  { s with phases := Function.update s.phases i p }

variable [DecidableEq ι] [DecidableEq K]

/-- A statement of one call, or the commit of another transaction. That one waits for
the calls whose rows it would change; the ids Postgres draws are new. -/
inductive Step (pf : Platform K) (calls : ι → Args) : Renames ι K → Renames ι K → Prop
  | select {s : Renames ι K} (i : ι) (h : s.phases i = .called) :
      Step pf calls s (s.goto i (select s.db (calls i)))
  | check {s : Renames ι K} (i : ι) {id owner : Uuid} (h : s.phases i = .owned id owner) :
      Step pf calls s (s.goto i (check pf s.db (calls i) id owner))
  | update {s : Renames ι K} (i : ι) {id : Uuid} (h : s.phases i = .cleared id)
      (hfree : ∀ j id', s.phases j = .written id' → ¬ Awaits pf s.db (calls i) id (calls j) id') :
      Step pf calls s (s.goto i (update pf s.db (calls i) id))
  | commit {s : Renames ι K} (i : ι) {id : Uuid} (h : s.phases i = .written id) (now : ℕ) :
      Step pf calls s ({ s with db := renamed now s.db (calls i) id }.goto i (.done (.ok none)))
  | others {s : Renames ι K} {w : Write K} {fresh : Uuid} {now : ℕ} {c : Commit K w.Answer}
      (hw : w.isRename = false) (hsound : w.Sound s.db) (h : w.run pf fresh now s.db = .ok c)
      (hlocks : ∀ i id, s.phases i = .written id → c.db.clusterById id = s.db.clusterById id)
      (hfresh : ∀ i, castUuid (calls i).clusterId ≠ .ok fresh) :
      Step pf calls s { s with db := c.db }

/-- Before the first statement. -/
def Renames.start (ι : Type) (db : Database K) : Renames ι K := ⟨db, fun _ => .called⟩

abbrev Leads (pf : Platform K) (calls : ι → Args) : Renames ι K → Renames ι K → Prop :=
  Relation.ReflTransGen (Step pf calls)

end FacesService.RenameTx
