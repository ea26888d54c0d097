import FacesService.Infer.Loop
import FacesService.Reader.DeleteEmpty

/-!
A run while its owner curates. The clusters a run creates have no rows before
its end, so an endpoint that looks for empty clusters takes them for orphans. The
append at the end is one transaction: a single item whose cluster is gone makes
it fail, and the items of all other clusters are lost with it.
-/

namespace FacesService

open Prog Database Db Fallible Reader

variable {K : Type} [Arithmetic K] {svc : Service K} {pf : Platform K} {oracle : Oracle}

/-! ### What else goes on -/

/-- What the endpoints of the owner's curation call: `delete_faces`,
`delete_empty_faces`, `delete_faces_batch`, `detach` and the merges. -/
inductive CurationCall (ownerId : String) : Call K → Prop
  | query (q : Query K) : CurationCall ownerId (.query q)
  | delete {owner : String} (howner : castUuid owner = castUuid ownerId) (clusterId : String) :
      CurationCall ownerId (.write (.deleteCluster clusterId owner))
  | detach {owner : String} (howner : castUuid owner = castUuid ownerId) (clusterId streamId : String) :
      CurationCall ownerId (.write (.detachClusterFromStream clusterId streamId owner))
  | merge {owner : String} (howner : castUuid owner = castUuid ownerId) (targetId : String)
      (sourceIds : List String) : CurationCall ownerId (.write (.mergeClusters owner targetId sourceIds))
  | purge (cropOwner clusterId : String) : CurationCall ownerId (.deleteCrop cropOwner clusterId)

def Curates (pf : Platform K) (oracle : Oracle) (ownerId : String) (w w' : World K) : Prop :=
  ∃ c, CurationCall ownerId c ∧ w' = (answer pf oracle c w).2

/-! ### The append -/

/-- The cluster of the item is there. -/
def ClusterExists (it : Db.Item K) (db : Database K) : Prop :=
  ∃ id, castUuid it.clusterId = .ok id ∧ ∃ c ∈ db.clusters, c.id = id

/-- The item has its row in the stream. -/
def Persisted (streamId : String) (it : Db.Item K) (db : Database K) : Prop :=
  ∃ stream, castUuid streamId = .ok stream ∧ ∃ id, castUuid it.clusterId = .ok id ∧
    ∃ o ∈ db.occurrences, o.streamId = stream ∧ o.clusterId = id ∧ o.tSeconds = it.tSeconds

instance (it : Db.Item K) (db : Database K) : Decidable (ClusterExists it db) :=
  inferInstanceAs (Decidable (∃ id, castUuid it.clusterId = .ok id ∧ ∃ c ∈ db.clusters, c.id = id))

instance (streamId : String) (it : Db.Item K) (db : Database K) :
    Decidable (Persisted streamId it db) :=
  inferInstanceAs (Decidable (∃ stream, castUuid streamId = .ok stream ∧
    ∃ id, castUuid it.clusterId = .ok id ∧
      ∃ o ∈ db.occurrences, o.streamId = stream ∧ o.clusterId = id ∧ o.tSeconds = it.tSeconds))

omit [Arithmetic K] in
theorem Persisted.mono {streamId : String} {it : Db.Item K} {db db' : Database K}
    (h : Persisted streamId it db) (hdb : db.occurrences ⊆ db'.occurrences) :
    Persisted streamId it db' := by
  obtain ⟨stream, hstream, id, hid, o, ho, hkey⟩ := h
  exact ⟨stream, hstream, id, hid, o, hdb ho, hkey⟩

theorem insertOccurrenceIfNew_succeeds {db : Database K} {o : Occurrence K}
    (h : (∃ c ∈ db.clusters, c.id = o.clusterId) ∨ ∃ o' ∈ db.occurrences, o'.key = o.key) :
    ∃ r, db.insertOccurrenceIfNew o = .ok r := by
  unfold insertOccurrenceIfNew
  split
  · exact ⟨_, rfl⟩
  · rename_i hkey
    split
    · rename_i hnone
      rcases h with ⟨c, hc, hid⟩ | ⟨o', ho', heq⟩
      · exact absurd hid (clusterById_eq_none.mp hnone c hc)
      · exact absurd (List.any_eq_true.mpr ⟨o', ho', by simpa using heq⟩) hkey
    · exact ⟨_, rfl⟩

/-- The loop gets through exactly if each item has its cluster, or its row already. -/
theorem insertItems_succeeds_iff {now : ℕ} {ownerId streamId : String} {owner stream : Uuid}
    (howner : castUuid ownerId = .ok owner) (hstream : castUuid streamId = .ok stream)
    {items : List (Db.Item K)} {n : ℕ} {db : Database K} :
    (∃ r, insertItems pf now ownerId streamId items n db = .ok r) ↔
      ∀ it ∈ items, ClusterExists it db ∨ Persisted streamId it db := by
  induction items generalizing n db with
  | nil => exact ⟨fun _ it hit => by simp at hit, fun _ => ⟨_, rfl⟩⟩
  | cons it items ih =>
      -- an item that got in leaves the question for the others as it was
      have hothers : ∀ {k : ℕ} {id : Uuid} {db₁ : Database K}, castUuid it.clusterId = .ok id →
          db.insertOccurrenceIfNew (it.row pf now owner stream id) = .ok (k, db₁) → ∀ it' : Db.Item K,
          (ClusterExists it' db₁ ∨ Persisted streamId it' db₁ ↔
            ClusterExists it' db ∨ Persisted streamId it' db) := by
        intro k id db₁ hid hins it'
        rcases insertOccurrenceIfNew_eq_ok hins with ⟨-, rfl, -⟩ | ⟨-, hins⟩
        · rfl
        · obtain ⟨-, hcluster, rfl⟩ := insertOccurrence_eq_ok hins
          constructor
          · rintro (hexists | ⟨stream', hstream', id', hid', o, ho, hkey⟩)
            · exact .inl hexists
            · rcases List.mem_append.mp ho with ho | ho
              · exact .inr ⟨stream', hstream', id', hid', o, ho, hkey⟩
              · cases List.mem_singleton.mp ho
                exact .inl ⟨id', hid', hkey.2.1 ▸ hcluster⟩
          · rintro (hexists | hrow)
            · exact .inl hexists
            · exact .inr (hrow.mono (List.subset_append_left _ _))
      constructor
      · rintro ⟨⟨m, db'⟩, h⟩
        obtain ⟨owner', stream', id, k, db₁, howner', hstream', hid, hins, hrest⟩ := insertItems_cons h
        cases howner.symm.trans howner'
        cases hstream.symm.trans hstream'
        intro it' hit'
        rcases List.mem_cons.mp hit' with rfl | hit'
        · rcases insertOccurrenceIfNew_eq_ok hins with ⟨-, -, o, ho, hkey⟩ | ⟨-, hins⟩
          · simp only [Occurrence.key, Item.row, Prod.mk.injEq] at hkey
            exact .inr ⟨stream, hstream, id, hid, o, ho, hkey⟩
          · exact .inl ⟨id, hid, (insertOccurrence_eq_ok hins).2.1⟩
        · exact (hothers hid hins it').mp (ih.mp ⟨_, hrest⟩ it' hit')
      · intro h
        have hid : ∃ id, castUuid it.clusterId = .ok id := by
          rcases h it List.mem_cons_self with ⟨id, hid, -⟩ | ⟨_, -, id, hid, -⟩
          · exact ⟨id, hid⟩
          · exact ⟨id, hid⟩
        obtain ⟨id, hid⟩ := hid
        have hins : ∃ r, db.insertOccurrenceIfNew (it.row pf now owner stream id) = .ok r := by
          refine insertOccurrenceIfNew_succeeds ?_
          rcases h it List.mem_cons_self with
            ⟨id', hid', hcluster⟩ | ⟨stream', hstream', id', hid', o, ho, hkey⟩
          · cases hid.symm.trans hid'
            exact .inl hcluster
          · cases hid.symm.trans hid'
            cases hstream.symm.trans hstream'
            exact .inr ⟨o, ho, by simpa [Occurrence.key, Item.row] using hkey⟩
        obtain ⟨⟨k, db₁⟩, hins⟩ := hins
        obtain ⟨r, hrest⟩ := (@ih (n + k) db₁).mpr fun it' hit' =>
          (hothers hid hins it').mpr (h it' (List.mem_cons_of_mem _ hit'))
        refine ⟨r, ?_⟩
        unfold insertItems
        rw [howner, ok_bind, hstream, ok_bind, hid, ok_bind, hins]
        exact hrest

/-! ### The run among others -/

/-- The moment of the append: a collected detection whose cluster exists has its
row afterwards. -/
def KeepsCollected (st : Event K) : Prop :=
  match st.op with
  | .write (.appendStreamOccurrences _ streamId items) =>
      ∀ it ∈ items, ClusterExists it st.before.db → Persisted streamId it st.after.db
  | _ => True

instance (st : Event K) : Decidable (KeepsCollected st) := by
  unfold KeepsCollected
  split <;> infer_instance

/-- The append starts with the cluster of every item in place, or with nothing to
add for the clusters that are. -/
def NothingToLose (st : Event K) : Prop :=
  match st.op with
  | .write (.appendStreamOccurrences _ streamId items) =>
      (∃ stream, castUuid streamId = .ok stream ∧
          ∀ it ∈ items, ClusterExists it st.before.db ∨ Persisted streamId it st.before.db) ∨
        ∀ it ∈ items, ClusterExists it st.before.db → Persisted streamId it st.before.db
  | _ => True

instance (st : Event K) : Decidable (NothingToLose st) := by
  unfold NothingToLose
  split <;> infer_instance

variable {args : RunArgs}

/-- One append: it commits as a whole or leaves everything as it was. -/
theorem append_keeps_iff (howner : ∃ owner, castUuid args.ownerId = .ok owner)
    {items : List (Db.Item K)} {w w' : World K} {r : Except PyError ℕ}
    (h : Answered pf oracle (.write (.appendStreamOccurrences args.ownerId args.streamId items)) w r w') :
    (∀ it ∈ items, ClusterExists it w.db → Persisted args.streamId it w'.db) ↔
      (∃ stream, castUuid args.streamId = .ok stream ∧
          ∀ it ∈ items, ClusterExists it w.db ∨ Persisted args.streamId it w.db) ∨
        ∀ it ∈ items, ClusterExists it w.db → Persisted args.streamId it w.db := by
  obtain ⟨owner, howner⟩ := howner
  have hdb : w'.db = (answer pf oracle
      (.write (.appendStreamOccurrences args.ownerId args.streamId items)) w).2.db := by
    have hanswer : answer pf oracle
        (.write (.appendStreamOccurrences args.ownerId args.streamId items)) w = (r, w') := h
    rw [hanswer]
  rw [answer_write_db] at hdb
  cases hrun : Write.run pf (oracle.fresh w.draws) (oracle.clock w.calls) w.db
      (.appendStreamOccurrences args.ownerId args.streamId items) with
  | error e =>
      rw [hrun] at hdb
      rw [hdb]
      refine ⟨.inr, fun hcase => ?_⟩
      rcases hcase with ⟨stream, hstream, hall⟩ | hall
      · -- then the transaction would have gone through
        obtain ⟨⟨m, db₁⟩, hins⟩ := (insertItems_succeeds_iff howner hstream).mpr hall
        have hcommits : ∃ c, Db.appendStreamOccurrences pf (oracle.clock w.calls) w.db args.ownerId
            args.streamId items = .ok c := by
          rw [Db.appendStreamOccurrences, hins, howner, hstream]
          exact ⟨_, rfl⟩
        obtain ⟨c, hc⟩ := hcommits
        exact absurd (hrun.symm.trans hc) (by simp)
      · exact hall
  | ok c =>
      rw [hrun] at hdb
      obtain ⟨db₁, owner', stream, hins, -, hstream, -, hcommit⟩ := Db.appendStreamOccurrences_ok hrun
      have hall := (insertItems_succeeds_iff howner hstream).mp ⟨_, hins⟩
      refine ⟨fun _ => .inl ⟨stream, hstream, hall⟩, fun _ it hit _ => ?_⟩
      obtain ⟨id, hid, o, ho, hkey⟩ := insertItems_row hstream hins it hit
      refine ⟨stream, hstream, id, hid, o, ?_, hkey⟩
      rw [hdb]
      change o ∈ c.db.occurrences
      rw [hcommit]
      exact ho

/-- A run that has come beyond its first read has an owner. -/
theorem run_owner {env : World K → World K → Prop} {log : List (Event K)} {r : Except PyError RunResult}
    {w w' : World K} (h : Runs env (Answered pf oracle) (run svc args) w log r w') {st : Event K}
    (hst : st ∈ log) {wr : Write K} (hop : st.op = .write wr) :
    ∃ owner, castUuid args.ownerId = .ok owner := by
  unfold run at h
  rcases h.bind_inv with ⟨e, hquery, -⟩ | ⟨rows, w₁, log₁, log₂, hquery, -, -⟩
  · obtain ⟨w₁, -, -, rfl⟩ := hquery.perform_inv
    cases List.mem_singleton.mp hst
    cases hop
  · obtain ⟨w₀, -, hanswer, -⟩ := hquery.perform_inv
    have hrows : Db.getClustersForOwner w₀.db args.ownerId = .ok rows :=
      congrArg Prod.fst (show answer pf oracle _ w₀ = _ from hanswer)
    obtain ⟨owner, howner, -⟩ := getClustersForOwner_ok hrows
    exact ⟨owner, howner⟩

/-- **Curation costs only the curated clusters** exactly if the append finds
everything it needs. -/
theorem collected_kept_iff {log : List (Event K)} {r : Except PyError RunResult} {w w' : World K}
    (h : Runs (Curates pf oracle args.ownerId) (Answered pf oracle) (run svc args) w log r w') :
    (∀ st ∈ log, KeepsCollected st) ↔ ∀ st ∈ log, NothingToLose st := by
  have hstep : ∀ st ∈ log, (KeepsCollected st ↔ NothingToLose st) := by
    intro st hst
    obtain ⟨hop, hanswer⟩ := h.within (run_within svc args) st hst
    obtain ⟨op, res, before, after⟩ := st
    cases hop with
    | clusters => exact .rfl
    | loop hloop => cases hloop <;> exact .rfl
    | centroid clusterId centroid => exact .rfl
    | append items => exact append_keeps_iff (run_owner h hst rfl) hanswer
  exact forall₂_congr hstep

/-- A run that sees one face on each of two frames, the owner deleting the empty
clusters before call `n` of it. -/
def curatedRun (w : World ℚ) (n : ℕ) : List (Event ℚ) × Except PyError RunResult × World ℚ :=
  (run (sceneService [[(1, 0)], [(0, 1)]]) sceneArgs).interrupted
    (answer Platform.exact (sceneOracle 9))
    (fun w => ((deleteEmptyFaces (sceneService []) emptyAuth).exec
      (answer Platform.exact (sceneOracle 9)) w).2) n w

theorem curatedRun_runs (w : World ℚ) (n : ℕ) :
    Runs (Curates Platform.exact (sceneOracle 9) sceneArgs.ownerId)
      (Answered Platform.exact (sceneOracle 9)) (run (sceneService [[(1, 0)], [(0, 1)]]) sceneArgs)
      w (curatedRun w n).1 (curatedRun w n).2.1 (curatedRun w n).2.2 := by
  refine Runs.of_interrupted _ (fun _ _ => rfl) (fun w => ?_) n _ _
  refine exec_moves (fun op s hop => ⟨op, ?_, rfl⟩) deleteEmptyFaces_within w
  cases hop with
  | list => exact .query _
  | delete h => exact .delete rfl _
  | purge cropOwner clusterId => exact .purge cropOwner clusterId

/-- An orphan of the owner who looks like neither face. -/
def orphanWorld : World ℚ :=
  { sceneWorld with db := ⟨[Cluster.anonymous (Uuid.fill 9) (Uuid.fill 1) [-1, 0] 0], []⟩ }

/-- The orphan is deleted when the run has read it, and no detection is lost. -/
theorem collected_kept_iff_orphan :
    Uuid.fill 9 ∉ (curatedRun orphanWorld 1).2.2.db.clusters.map (·.id) ∧
      (curatedRun orphanWorld 1).2.2.db.occurrences.length = 2 ∧
      ∀ st ∈ (curatedRun orphanWorld 1).1, KeepsCollected st :=
  ⟨by decide +kernel, by decide +kernel,
    (collected_kept_iff (curatedRun_runs orphanWorld 1)).mpr (by decide +kernel)⟩

/-- Between the two frames the cluster of the first is taken for an orphan, and the
append loses the detection on the second. -/
theorem curation_loses_detection :
    ¬ ∀ log r w', Runs (Curates Platform.exact (sceneOracle 9) sceneArgs.ownerId)
      (Answered Platform.exact (sceneOracle 9)) (run (sceneService [[(1, 0)], [(0, 1)]]) sceneArgs)
      sceneWorld log r w' → ∀ st ∈ log, KeepsCollected st := by
  intro h
  have hkept := h _ _ _ (curatedRun_runs sceneWorld 6)
  have hlost : ¬ ∀ st ∈ (curatedRun sceneWorld 6).1, KeepsCollected st := by decide +kernel
  exact hlost hkept

end FacesService
