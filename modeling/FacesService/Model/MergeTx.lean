import FacesService.Base.Prog
import FacesService.Model.Writes

/-!
`merge_clusters`, statement by statement. The transaction runs under READ
COMMITTED: each statement sees what it has written itself and everything that
others have committed before the statement starts. No row is locked before the
deletes at the end.
-/

namespace FacesService

open Prog

variable {K : Type} [DecidableEq K]

/-! ### The transaction -/

/-- The tables while a merge is under way: as the other transactions see them,
and as its next statement does. -/
structure Tx (K : Type) where
  committed : Database K
  view : Database K
  /-- the clusters whose rows the merge has read; no statement depends on it -/
  read : List Uuid

def Tx.start (db : Database K) : Tx K := ⟨db, db, []⟩

/-- The statements of the merge. -/
inductive Sql (K : Type)
  /-- `SELECT owner_id … FROM clusters WHERE id = …` -/
  | ownerOf (id : String)
  /-- `SELECT DISTINCT stream_id FROM face_occurrences WHERE cluster_id = …` -/
  | streamsOf (id : String)
  /-- `SELECT t_seconds … WHERE cluster_id = … AND stream_id = …` -/
  | timesOf (id : String) (stream : Uuid)
  /-- `SELECT stream_id, embedding, t_seconds, confidence … WHERE cluster_id = …` -/
  | rowsOf (id : String)
  /-- `INSERT INTO face_occurrences …`: a row at another time, for the target -/
  | insertRow (ownerId targetId : String) (r : Occurrence K) (t : K)
  /-- `DELETE FROM face_occurrences WHERE cluster_id = …` -/
  | deleteRows (id : String)
  /-- `DELETE FROM clusters WHERE id = …` -/
  | deleteCluster (id : String)
  /-- `UPDATE clusters SET sample_count = …` -/
  | recount (id : String)

@[reducible] def Sql.Answer : Sql K → Type
  | .ownerOf _ => Option Uuid
  | .streamsOf _ => List Uuid
  | .timesOf _ _ => List K
  | .rowsOf _ => List (Occurrence K)
  | _ => Unit

/-- What a statement answers and does. -/
def Sql.run (pf : Platform K) (now : ℕ) (t : Tx K) : (q : Sql K) → Except PyError (q.Answer × Tx K)
  | .ownerOf id => do
      let id ← castUuid id
      .ok ((t.view.clusterById id).map (·.ownerId), t)
  | .streamsOf id => do
      let id ← castUuid id
      .ok (((t.view.occurrences.filter fun o => o.clusterId = id).map (·.streamId)).dedup, t)
  | .timesOf id stream => do
      let id ← castUuid id
      .ok (Db.occupied t.view id stream, t)
  | .rowsOf id => do
      let id ← castUuid id
      .ok (pf.scan id (t.view.occurrences.filter fun o => o.clusterId = id),
        { t with read := id :: t.read })
  | .insertRow ownerId targetId r time => do
      let owner ← castUuid ownerId
      let target ← castUuid targetId
      let db ← t.view.insertOccurrence
        { ownerId := owner, streamId := r.streamId, clusterId := target,
          embedding := Db.toListArray pf r.embedding, tSeconds := time, confidence := r.confidence,
          createdAt := now }
      .ok ((), { t with view := db })
  | .deleteRows id => do
      let id ← castUuid id
      .ok ((), { t with view := t.view.deleteOccurrences fun o => o.clusterId = id })
  | .deleteCluster id => do
      let id ← castUuid id
      .ok ((), { t with view := t.view.deleteClusters fun c => c.id = id })
  | .recount id => do
      let id ← castUuid id
      .ok ((), { t with view := t.view.recount now fun c => c.id = id })

/-- A failing statement aborts the transaction. -/
def Sql.answer (pf : Platform K) (now : ℕ) (q : Sql K) (t : Tx K) : Except PyError q.Answer × Tx K :=
  match q.run pf now t with
  | .ok (a, t') => (.ok a, t')
  | .error e => (.error e, t)

abbrev TxProgram (K : Type) (α : Type) : Type :=
  Prog (Sql K) Sql.Answer PyError α

abbrev sql (q : Sql K) : TxProgram K q.Answer := perform q

/-! ### The statements of `merge_clusters` -/

namespace Db

/-- The check of the sources. -/
def verifySourcesTx (ownerId : String) : List String → TxProgram K Bool
  | [] => return true
  | cid :: rest => do
      match ← sql (.ownerOf cid) with
      | none => return false
      | some owner => if owner.text ≠ ownerId then return false else verifySourcesTx ownerId rest

/-- `affected` and `occ_cache`. -/
structure MergeLocals (K : Type) where
  affected : List Uuid
  occCache : List (Uuid × List K)

/-- `occ_cache[stream_id]`, filled on first use. -/
def timesTx (targetId : String) (st : MergeLocals K) (stream : Uuid) : TxProgram K (List K) :=
  match st.occCache.lookup stream with
  | some times => return times
  | none => sql (.timesOf targetId stream)

def moveRowTx (pf : Platform K) (ownerId targetId : String) (st : MergeLocals K) (r : Occurrence K) :
    TxProgram K (MergeLocals K) := do
  let times ← timesTx targetId st r.streamId
  match Probe.probe pf.nudge times r.tSeconds with
  | none => raise .hangs
  | some t => do
      sql (.insertRow ownerId targetId r t)
      return {
        affected := st.affected.insert r.streamId
        occCache := (r.streamId, t :: times) ::
          st.occCache.filter fun entry => entry.1 ≠ r.streamId }

def mergeSourceTx (pf : Platform K) (ownerId targetId : String) (st : MergeLocals K) (cid : String) :
    TxProgram K (MergeLocals K) := do
  let rows ← sql (.rowsOf cid)
  let st ← rows.foldlM (moveRowTx pf ownerId targetId) st
  sql (.deleteRows cid)
  sql (.deleteCluster cid)
  return st

def mergeClustersTx (pf : Platform K) (ownerId targetId : String) (sourceIds : List String) :
    TxProgram K (Option Merged) := do
  match ← sql (.ownerOf targetId) with
  | none => return none
  | some owner =>
      if owner.text ≠ ownerId then return none
      else if ← verifySourcesTx ownerId sourceIds then
        let affected ← sql (.streamsOf targetId)
        let st ← sourceIds.foldlM (mergeSourceTx pf ownerId targetId) ⟨affected, []⟩
        sql (.recount targetId)
        return some ⟨orderBy (· ≤ ·) (st.affected.map (·.text)), sourceIds⟩
      else return none

end Db

/-! ### Other transactions -/

/-- The rows a commit added. -/
def Database.addedBy (before after : Database K) : List (Occurrence K) :=
  after.occurrences.drop before.occurrences.length

/-- A transaction under way sees what another one has committed. -/
def Database.catchUp (view before after : Database K) : Database K where
  clusters := view.clusters.map fun r =>
    if before.clusterById r.id = after.clusterById r.id then r
    else (after.clusterById r.id).getD r
  occurrences := view.occurrences ++ before.addedBy after

/-- `append_stream_occurrences` commits between two statements of the merge. It
would wait for the merge where one of its rows is for a cluster that the merge
has deleted, or has the key of a row that the merge has written. -/
def AppendCommits (pf : Platform K) (t t' : Tx K) : Prop :=
  ∃ now ownerId streamId items c,
    Db.appendStreamOccurrences pf now t.committed ownerId streamId items = .ok c ∧
    (∀ o ∈ t.committed.addedBy c.db, t.view.clusterById o.clusterId ≠ none ∧
      ∀ o' ∈ t.view.occurrences, o'.key ≠ o.key) ∧
    t' = { t with committed := c.db, view := t.view.catchUp t.committed c.db }

end FacesService
