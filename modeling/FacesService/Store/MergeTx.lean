import FacesService.Model.MergeTx
import FacesService.Store.Slots

/-!
The statements of a merge with nothing in between. Run alone they compute what
`mergeClusters` commits, so what is known of the one holds of the other.
-/

namespace FacesService

open Prog Database Db Fallible

variable {K : Type} [DecidableEq K] {pf : Platform K} {now : ℕ}

/-! ### A merge alone -/

/-- Run alone from `t`, the program comes to what `r` says. -/
def Computes {α : Type} (pf : Platform K) (now : ℕ) (p : TxProgram K α) (t : Tx K)
    (r : Except PyError (α × Database K)) : Prop :=
  match r with
  | .ok (a, view) => ∃ read, p.exec (Sql.answer pf now) t = (.ok a, ⟨t.committed, view, read⟩)
  | .error e => (p.exec (Sql.answer pf now) t).1 = .error e

section Alone

variable {α β : Type} {t : Tx K} {owner target : Uuid} {ownerId targetId : String}

theorem Computes.bind {p : TxProgram K α} {f : α → TxProgram K β}
    {r : Except PyError (α × Database K)} {g : α × Database K → Except PyError (β × Database K)}
    (hp : Computes pf now p t r)
    (hf : ∀ a view read, Computes pf now (f a) ⟨t.committed, view, read⟩ (g (a, view))) :
    Computes pf now (p >>= f) t (r >>= g) := by
  cases r with
  | error e =>
      cases hexec : p.exec (Sql.answer pf now) t with
      | mk res t₁ =>
          have hres : res = .error e := by
            rw [← show (p.exec (Sql.answer pf now) t).1 = .error e from hp, hexec]
          subst hres
          change ((p >>= f).exec (Sql.answer pf now) t).1 = .error e
          rw [exec_bind_error hexec]
  | ok v =>
      obtain ⟨a, view⟩ := v
      obtain ⟨read, hexec⟩ := hp
      have hrest := hf a view read
      rw [ok_bind]
      unfold Computes at hrest ⊢
      cases hg : g (a, view) with
      | error e =>
          rw [hg] at hrest
          rw [exec_bind_ok hexec]
          exact hrest
      | ok v' =>
          rw [hg] at hrest
          rw [exec_bind_ok hexec]
          exact hrest

/-- A statement on its own. -/
theorem exec_sql {q : Sql K} {a : q.Answer} {t' : Tx K} (h : q.run pf now t = .ok (a, t')) :
    (sql q).exec (Sql.answer pf now) t = (.ok a, t') := by
  rw [exec_perform, Sql.answer, h]

theorem exec_sql_error {q : Sql K} {e : PyError} (h : q.run pf now t = .error e) :
    (sql q).exec (Sql.answer pf now) t = (.error e, t) := by
  rw [exec_perform, Sql.answer, h]

/-- The loop variables of the merge, and the tables. -/
def Db.MergeState.split (st : MergeState K) : MergeLocals K × Database K :=
  (⟨st.affected, st.occCache⟩, st.db)

theorem timesTx_alone (htarget : castUuid targetId = .ok target) (st : MergeState K)
    (committed : Database K) (read : List Uuid) (stream : Uuid) :
    (timesTx targetId st.split.1 stream).exec (Sql.answer pf now) ⟨committed, st.db, read⟩ =
      (.ok (st.timesIn target stream), ⟨committed, st.db, read⟩) := by
  unfold timesTx MergeState.timesIn MergeState.split
  cases st.occCache.lookup stream with
  | some times => rfl
  | none =>
      dsimp only
      rw [exec_perform, Sql.answer, Sql.run, htarget]
      rfl

theorem moveRowTx_alone (howner : castUuid ownerId = .ok owner)
    (htarget : castUuid targetId = .ok target) (st : MergeState K) (committed : Database K)
    (read : List Uuid) (r : Occurrence K) :
    Computes pf now (moveRowTx pf ownerId targetId st.split.1 r) ⟨committed, st.db, read⟩
      ((moveRow pf now owner target st r).map MergeState.split) := by
  unfold Computes moveRowTx moveRow
  rw [exec_bind_ok (timesTx_alone htarget st committed read r.streamId)]
  dsimp only
  cases Probe.probe pf.nudge (st.timesIn target r.streamId) r.tSeconds with
  | none => rfl
  | some time =>
      have hinsert : (sql (.insertRow ownerId targetId r time)).exec (Sql.answer pf now)
          ⟨committed, st.db, read⟩ = Sql.answer pf now (.insertRow ownerId targetId r time)
            ⟨committed, st.db, read⟩ := exec_perform _ _ _
      cases hins : st.db.insertOccurrence
          { ownerId := owner, streamId := r.streamId, clusterId := target,
            embedding := toListArray pf r.embedding, tSeconds := time, confidence := r.confidence,
            createdAt := now } with
      | error e =>
          rw [Sql.answer, Sql.run, howner, ok_bind, htarget, ok_bind, hins] at hinsert
          simp only [hins, error_bind, Except.map]
          exact congrArg Prod.fst (exec_bind_error hinsert)
      | ok db =>
          rw [Sql.answer, Sql.run, howner, ok_bind, htarget, ok_bind, hins] at hinsert
          simp only [hins, ok_bind, Except.map]
          exact ⟨read, exec_bind_ok hinsert⟩

/-- A loop over such steps. -/
theorem foldlM_alone {γ : Type} {fTx : MergeLocals K → γ → TxProgram K (MergeLocals K)}
    {f : MergeState K → γ → Except PyError (MergeState K)}
    (hf : ∀ st committed read c, Computes pf now (fTx st.split.1 c) ⟨committed, st.db, read⟩
      ((f st c).map MergeState.split)) (l : List γ) (st : MergeState K) (committed : Database K)
    (read : List Uuid) : Computes pf now (l.foldlM fTx st.split.1) ⟨committed, st.db, read⟩
      ((l.foldlM f st).map MergeState.split) := by
  induction l generalizing st read with
  | nil => exact ⟨read, rfl⟩
  | cons c l ih =>
      have hbind : ((c :: l).foldlM f st).map MergeState.split =
          (f st c).map MergeState.split >>= fun v =>
            (l.foldlM f ⟨v.2, v.1.affected, v.1.occCache⟩).map MergeState.split := by
        rw [List.foldlM_cons]
        cases f st c <;> rfl
      rw [hbind, List.foldlM_cons]
      exact (hf st committed read c).bind fun a view read =>
        ih ⟨view, a.affected, a.occCache⟩ read

theorem mergeSourceTx_alone (howner : castUuid ownerId = .ok owner)
    (htarget : castUuid targetId = .ok target) (st : MergeState K) (committed : Database K)
    (read : List Uuid) (cid : String) :
    Computes pf now (mergeSourceTx pf ownerId targetId st.split.1 cid) ⟨committed, st.db, read⟩
      ((mergeSource pf now owner target st cid).map MergeState.split) := by
  unfold mergeSourceTx mergeSource
  cases hid : castUuid cid with
  | error e =>
      have hrows : (sql (.rowsOf cid)).exec (Sql.answer pf now) ⟨committed, st.db, read⟩ =
          (.error e, ⟨committed, st.db, read⟩) :=
        exec_sql_error (by rw [Sql.run, hid]; rfl)
      exact congrArg Prod.fst (exec_bind_error hrows)
  | ok id =>
      have hrows : (sql (.rowsOf cid)).exec (Sql.answer pf now) ⟨committed, st.db, read⟩ =
          (.ok (pf.scan id (st.db.occurrences.filter fun o => o.clusterId = id)),
            ⟨committed, st.db, id :: read⟩) :=
        exec_sql (by rw [Sql.run, hid]; rfl)
      have hmoves := foldlM_alone (fun st committed read r =>
        @moveRowTx_alone K _ pf now _ _ _ _ howner htarget st committed read r)
        (pf.scan id (st.db.occurrences.filter fun o => o.clusterId = id)) st committed (id :: read)
      have hdelete : ∀ st₁ view read, Computes pf now
          (do
            sql (.deleteRows cid)
            sql (.deleteCluster cid)
            return st₁ : TxProgram K (MergeLocals K)) ⟨committed, view, read⟩
          (.ok (st₁, (view.deleteOccurrences fun o => o.clusterId = id).deleteClusters
            fun c => c.id = id)) := by
        intro st₁ view read
        refine ⟨read, ?_⟩
        have hrun₁ : (sql (.deleteRows cid)).exec (Sql.answer pf now)
            ⟨committed, view, read⟩ = (.ok (), ⟨committed,
              view.deleteOccurrences fun o => o.clusterId = id, read⟩) :=
          exec_sql (by rw [Sql.run, hid]; rfl)
        have hrun₂ : (sql (.deleteCluster cid)).exec (Sql.answer pf now)
            ⟨committed, view.deleteOccurrences fun o => o.clusterId = id, read⟩ = (.ok (), ⟨committed,
              (view.deleteOccurrences fun o => o.clusterId = id).deleteClusters fun c => c.id = id,
              read⟩) :=
          exec_sql (by rw [Sql.run, hid]; rfl)
        rw [exec_bind_ok hrun₁, exec_bind_ok hrun₂]
        rfl
      have hrest := hmoves.bind (g := fun v => .ok (v.1, (v.2.deleteOccurrences fun o =>
        o.clusterId = id).deleteClusters fun c => c.id = id)) hdelete
      unfold Computes at hrest ⊢
      rw [exec_bind_ok hrows]
      cases hfold : (pf.scan id (st.db.occurrences.filter fun o => o.clusterId = id)).foldlM
          (moveRow pf now owner target) st <;>
        rw [hfold] at hrest <;> simp only [ok_bind, hfold] <;> exact hrest

theorem verifySourcesTx_alone (committed view : Database K) (read : List Uuid)
    (sourceIds : List String) :
    (verifySourcesTx ownerId sourceIds).exec (Sql.answer pf now) ⟨committed, view, read⟩ =
      (verifySources view ownerId sourceIds, ⟨committed, view, read⟩) := by
  induction sourceIds with
  | nil => rfl
  | cons cid sourceIds ih =>
      unfold verifySourcesTx verifySources
      cases hid : castUuid cid with
      | error e =>
          have hread : (sql (.ownerOf cid)).exec (Sql.answer pf now)
              ⟨committed, view, read⟩ = (.error e, ⟨committed, view, read⟩) :=
            exec_sql_error (by rw [Sql.run, hid]; rfl)
          rw [exec_bind_error hread, error_bind]
      | ok id =>
          have hread : (sql (.ownerOf cid)).exec (Sql.answer pf now)
              ⟨committed, view, read⟩ = (.ok ((view.clusterById id).map (·.ownerId)),
                ⟨committed, view, read⟩) :=
            exec_sql (by rw [Sql.run, hid]; rfl)
          rw [exec_bind_ok hread, ok_bind]
          cases view.clusterById id with
          | none => rfl
          | some row =>
              simp only [Option.map_some]
              split
              · rfl
              · exact ih

/-- The merge of sources that have been verified. -/
theorem mergeVerifiedTx_alone (howner : castUuid ownerId = .ok owner)
    (htarget : castUuid targetId = .ok target) (db : Database K) (sourceIds : List String) :
    Computes pf now
      (do
        let affected ← sql (.streamsOf targetId)
        let st ← sourceIds.foldlM (mergeSourceTx pf ownerId targetId) ⟨affected, []⟩
        sql (.recount targetId)
        return some (Merged.mk (orderBy (· ≤ ·) (st.affected.map (·.text))) sourceIds))
      (Tx.start db)
      ((sourceIds.foldlM (mergeSource pf now owner target) ⟨db, ((db.occurrences.filter fun o =>
          o.clusterId = target).map (·.streamId)).dedup, []⟩).map fun st =>
        (some (Merged.mk (orderBy (· ≤ ·) (st.affected.map (·.text))) sourceIds),
          st.db.recount now fun c => c.id = target)) := by
  set affected := ((db.occurrences.filter fun o => o.clusterId = target).map (·.streamId)).dedup
    with haffected
  have hstreams : (sql (.streamsOf targetId)).exec (Sql.answer pf now) (Tx.start db) =
      (.ok affected, Tx.start db) :=
    exec_sql (by rw [Sql.run, htarget]; rfl)
  have hmerge := foldlM_alone (fun st committed read cid =>
    @mergeSourceTx_alone K _ pf now _ _ _ _ howner htarget st committed read cid)
    sourceIds ⟨db, affected, []⟩ db []
  have hrecount : ∀ (st : MergeLocals K) view read, Computes pf now
      (do
        sql (.recount targetId)
        return some (Merged.mk (orderBy (· ≤ ·) (st.affected.map (·.text))) sourceIds) :
        TxProgram K (Option Merged)) ⟨db, view, read⟩
      (.ok (some ⟨orderBy (· ≤ ·) (st.affected.map (·.text)), sourceIds⟩,
        view.recount now fun c => c.id = target)) := by
    intro st view read
    have hrun : (sql (.recount targetId)).exec (Sql.answer pf now) ⟨db, view, read⟩ =
        (.ok (), ⟨db, view.recount now fun c => c.id = target, read⟩) :=
      exec_sql (by rw [Sql.run, htarget]; rfl)
    refine ⟨read, ?_⟩
    rw [exec_bind_ok hrun]
    rfl
  have hrest := hmerge.bind (g := fun v =>
    .ok (some (Merged.mk (orderBy (· ≤ ·) (v.1.affected.map (·.text))) sourceIds),
      v.2.recount now fun c => c.id = target)) hrecount
  unfold Computes at hrest ⊢
  rw [exec_bind_ok hstreams]
  cases hfold : sourceIds.foldlM (mergeSource pf now owner target) ⟨db, affected, []⟩ <;>
    rw [hfold] at hrest <;> exact hrest

/-- **Alone, the statements are the transaction**: with nothing committed in
between they come to what `mergeClusters` says. -/
theorem mergeClustersTx_alone (pf : Platform K) (now : ℕ) (db : Database K)
    (ownerId targetId : String) (sourceIds : List String) :
    Computes pf now (mergeClustersTx pf ownerId targetId sourceIds) (Tx.start db)
      ((mergeClusters pf now db ownerId targetId sourceIds).map fun c => (c.result, c.db)) := by
  unfold mergeClustersTx mergeClusters
  cases htarget : castUuid targetId with
  | error e =>
      have hread : (sql (.ownerOf targetId)).exec (Sql.answer pf now) (Tx.start db) =
          (.error e, Tx.start db) :=
        exec_sql_error (by rw [Sql.run, htarget]; rfl)
      exact congrArg Prod.fst (exec_bind_error hread)
  | ok target =>
      have hread : (sql (.ownerOf targetId)).exec (Sql.answer pf now) (Tx.start db) =
          (.ok ((db.clusterById target).map (·.ownerId)), Tx.start db) :=
        exec_sql (by rw [Sql.run, htarget]; rfl)
      rw [ok_bind]
      unfold Computes
      rw [exec_bind_ok hread]
      cases hrow : db.clusterById target with
      | none => exact ⟨[], rfl⟩
      | some row =>
          simp only [Option.map_some]
          by_cases hsame : row.ownerId.text = ownerId
          · have howner : castUuid ownerId = .ok row.ownerId := by
              rw [← hsame, Uuid.castUuid_text]
            have hverify : (verifySourcesTx ownerId sourceIds).exec (Sql.answer pf now)
                (Tx.start db) = (verifySources db ownerId sourceIds, Tx.start db) :=
              verifySourcesTx_alone db db [] sourceIds
            rw [if_neg (not_not.mpr hsame), if_neg (not_not.mpr hsame)]
            cases hverified : verifySources db ownerId sourceIds with
            | error e =>
                rw [hverified] at hverify
                rw [error_bind]
                exact congrArg Prod.fst (exec_bind_error hverify)
            | ok verified =>
                rw [hverified] at hverify
                rw [ok_bind, exec_bind_ok hverify]
                cases verified with
                | false => exact ⟨[], rfl⟩
                | true =>
                    rw [if_pos rfl, if_pos rfl, howner, ok_bind]
                    have hrest := @mergeVerifiedTx_alone K _ pf now row.ownerId target ownerId
                      targetId howner htarget db sourceIds
                    unfold Computes at hrest
                    cases hfold : sourceIds.foldlM (mergeSource pf now row.ownerId target)
                        ⟨db, ((db.occurrences.filter fun o => o.clusterId = target).map
                          (·.streamId)).dedup, []⟩ <;>
                      rw [hfold] at hrest <;> exact hrest
          · rw [if_pos hsame, if_pos hsame]
            exact ⟨[], rfl⟩

end Alone

end FacesService
