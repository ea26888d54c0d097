import FacesService.Reader.Steps

/-!
`delete_empty_faces` among other transactions of the owner. The endpoint reads
the list of empty clusters once and then deletes them one by one. Each deletion
is a transaction of its own, so an append or a merge may come in between and
give a listed cluster a sighting.

`delete_cluster` looks at the owner and at nothing else. Whether a run is safe
is therefore a condition on the states its deletions start from.
-/

namespace FacesService.Reader

open Prog Database Db

variable {K : Type} [Arithmetic K] {svc : Service K} {auth : AuthContext} {pf : Platform K}
  {oracle : Oracle}

/-! ### The other transactions -/

/-- What else the owner has going on. -/
inductive OtherWrite (ownerId : String) : Write K → Prop
  | append {owner : String} (howner : castUuid owner = castUuid ownerId) (streamId : String)
      (items : List (Db.Item K)) :
      OtherWrite ownerId (.appendStreamOccurrences owner streamId items)
  | merge {owner : String} (howner : castUuid owner = castUuid ownerId) (targetId : String)
      (sourceIds : List String) : OtherWrite ownerId (.mergeClusters owner targetId sourceIds)

/-- One of them runs. -/
def Moves (pf : Platform K) (oracle : Oracle) (ownerId : String) (w w' : World K) : Prop :=
  ∃ wr, OtherWrite ownerId wr ∧ w' = (answer pf oracle (.write wr) w).2

/-- A call is answered as the service answers it. -/
def Answered (pf : Platform K) (oracle : Oracle) (op : Call K) (w : World K)
    (r : Except PyError op.Answer) (w' : World K) : Prop :=
  answer pf oracle op w = (r, w')

/-- A run of a program of the service among them. -/
abbrev RunsAmong {α : Type} (pf : Platform K) (oracle : Oracle) (ownerId : String)
    (p : Program K α) : World K → List (Event K) → Except PyError α → World K → Prop :=
  Runs (Moves pf oracle ownerId) (Answered pf oracle) p

/-! ### The calls of the endpoint -/

/-- The list, and for each listed cluster a deletion and the purge of its crop. -/
inductive DeleteCall (ownerId : String) (listed : String → Prop) : Call K → Prop
  | list : DeleteCall ownerId listed (.query (.getClustersWithoutOccurrences ownerId))
  | delete {clusterId : String} (h : listed clusterId) :
      DeleteCall ownerId listed (.write (.deleteCluster clusterId ownerId))
  | purge (cropOwner clusterId : String) :
      DeleteCall ownerId listed (.deleteCrop cropOwner clusterId)

section

variable {listed : String → Prop}

omit [Arithmetic K] in
theorem deleteListed_within (deleted : ℕ) {clusterId : String} (h : listed clusterId) :
    (deleteListed svc auth deleted clusterId).Within (DeleteCall auth.userId listed)
      fun _ => True := by
  refine within_bind (within_perform (.delete h)) fun result => ?_
  cases result with
  | none => exact within_pure deleted
  | some result =>
      refine within_bind (purgeCrop_within svc (fun c hc => ?_) trivial _ _ _) fun _ => within_pure _
      cases hc with
      | crop ownerId cropId => exact .purge ownerId cropId

end

omit [Arithmetic K] in
theorem deleteEmptyFaces_within : (deleteEmptyFaces svc auth).Within
    (DeleteCall auth.userId fun _ => True) fun _ => True :=
  within_bind (within_perform .list) fun _ =>
    within_foldlM (fun deleted _ _ => deleteListed_within deleted trivial) _

/-! ### One deletion -/

/-- `delete_cluster` leaves the tables alone, or the cluster is the owner's and
goes with its rows. -/
theorem deleteCluster_db (pf : Platform K) (oracle : Oracle) (clusterId ownerId : String)
    (w : World K) :
    (answer pf oracle (.write (.deleteCluster clusterId ownerId)) w).2.db = w.db ∧
        (∀ id row, ¬ Owned w.db clusterId ownerId id row) ∨
      ∃ id row, Owned w.db clusterId ownerId id row ∧
        (answer pf oracle (.write (.deleteCluster clusterId ownerId)) w).2.db =
          (w.db.deleteOccurrences fun o => o.clusterId = id).deleteClusters fun c => c.id = id := by
  rw [answer_write_db, Write.run]
  by_cases howned : ∃ id row, Owned w.db clusterId ownerId id row
  · obtain ⟨id, row, hown⟩ := howned
    obtain ⟨c, hc, -, hdb⟩ := deleteCluster_of_owned hown
    rw [hc]
    exact .inr ⟨id, row, hown, hdb⟩
  · refine .inl ⟨?_, fun id row hown => howned ⟨id, row, hown⟩⟩
    split
    · rename_i c hc
      rcases deleteCluster_ok hc with rfl | ⟨id, row, _, hown, -⟩
      · rfl
      · exact absurd ⟨id, row, hown⟩ howned
    · rfl

omit [Arithmetic K] in
/-- The rows a deletion takes are those of its cluster. -/
theorem mem_occurrences_delete {db : Database K} {id : Uuid} {o : Occurrence K}
    (ho : o ∈ db.occurrences) :
    o ∈ ((db.deleteOccurrences fun o => o.clusterId = id).deleteClusters
      fun c => c.id = id).occurrences ↔ o.clusterId ≠ id := by
  rw [mem_occurrences_deleteClusters, mem_deleteOccurrences]
  constructor
  · intro h
    simpa using h.1.2
  · refine fun h => ⟨⟨ho, by simpa using h⟩, fun c _ hc hid => h ?_⟩
    rw [← hid]
    simpa using hc

/-! ### Whole runs -/

/-- No step of the endpoint removes a sighting, and a cluster that has one when
its turn comes is still there afterwards. -/
def SightingsKept (ownerId : String) (log : List (Event K)) : Prop :=
  ∀ st ∈ log, st.before.db.occurrences ⊆ st.after.db.occurrences ∧
    ∀ clusterId id row, st.op = .write (.deleteCluster clusterId ownerId) →
      castUuid clusterId = .ok id → st.before.db.clusterById id = some row →
        0 < st.before.db.countFor id → row ∈ st.after.db.clusters

/-- Each cluster of the owner has no sighting at the moment it is deleted. -/
def EmptyWhenDeleted (ownerId : String) (log : List (Event K)) : Prop :=
  ∀ st ∈ log, ∀ clusterId id row, st.op = .write (.deleteCluster clusterId ownerId) →
    Owned st.before.db clusterId ownerId id row → st.before.db.countFor id = 0

/-- **One step**: what a call of the endpoint does to sightings. -/
theorem step_keeps_iff {ownerId : String} {op : Call K} {w w' : World K}
    {r : Except PyError op.Answer} (hop : DeleteCall ownerId (fun _ => True) op)
    (h : Answered pf oracle op w r w') :
    (w.db.occurrences ⊆ w'.db.occurrences ∧
      ∀ clusterId id row, op = .write (.deleteCluster clusterId ownerId) →
        castUuid clusterId = .ok id → w.db.clusterById id = some row → 0 < w.db.countFor id →
          row ∈ w'.db.clusters) ↔
      ∀ clusterId id row, op = .write (.deleteCluster clusterId ownerId) →
        Owned w.db clusterId ownerId id row → w.db.countFor id = 0 := by
  obtain rfl : (answer pf oracle op w).2 = w' := congrArg Prod.snd h
  cases hop with
  | list =>
      constructor
      · rintro - _ _ _ ⟨⟩
      · exact fun _ => ⟨fun _ ho => ho, by rintro _ _ _ ⟨⟩⟩
  | purge cropOwner clusterId =>
      constructor
      · rintro - _ _ _ ⟨⟩
      · exact fun _ => ⟨fun _ ho => ho, by rintro _ _ _ ⟨⟩⟩
  | @delete clusterId _ =>
      constructor
      · rintro ⟨hkept, -⟩ _ id row ⟨⟩ hown
        rcases deleteCluster_db pf oracle clusterId ownerId w with
          ⟨-, hnone⟩ | ⟨id', row', hown', hdb⟩
        · exact absurd hown (hnone id row)
        · cases hown.cast.symm.trans hown'.cast
          by_contra hcount
          obtain ⟨o, ho, hid⟩ := List.countP_pos_iff.mp (Nat.pos_of_ne_zero hcount)
          have hin := hkept ho
          rw [hdb, mem_occurrences_delete ho] at hin
          exact hin (by simpa using hid)
      · intro hempty
        rcases deleteCluster_db pf oracle clusterId ownerId w with
          ⟨hdb, -⟩ | ⟨id, row, hown, hdb⟩
        · rw [hdb]
          exact ⟨fun _ ho => ho, fun _ _ _ _ _ hrow _ => (mem_of_clusterById hrow).1⟩
        · have hcount := hempty clusterId id row rfl hown
          rw [hdb]
          constructor
          · intro o ho
            rw [mem_occurrences_delete ho]
            intro hid
            exact absurd (decide_eq_true hid) (List.countP_eq_zero.mp hcount o ho)
          · rintro _ id' row' ⟨⟩ hid' - hpos
            cases hown.cast.symm.trans hid'
            omega

/-! ### Undisturbed runs -/

omit [Arithmetic K] in
/-- A deletion gives no cluster a sighting. -/
theorem countFor_delete_le (db : Database K) (id id' : Uuid) :
    ((db.deleteOccurrences fun o => o.clusterId = id).deleteClusters fun c => c.id = id).countFor
      id' ≤ db.countFor id' :=
  ((List.filter_sublist).trans List.filter_sublist).countP_le

theorem deleteCall_keeps_empty {ownerId : String} {listed : String → Prop} {op : Call K}
    {w w' : World K} {r : Except PyError op.Answer} (hop : DeleteCall ownerId listed op)
    (h : Answered pf oracle op w r w') {id : Uuid} (hempty : w.db.countFor id = 0) :
    w'.db.countFor id = 0 := by
  obtain rfl : (answer pf oracle op w).2 = w' := congrArg Prod.snd h
  cases hop with
  | list => exact hempty
  | purge cropOwner clusterId => exact hempty
  | @delete clusterId _ =>
      rcases deleteCluster_db pf oracle clusterId ownerId w with
        ⟨hdb, -⟩ | ⟨_, _, -, hdb⟩
      · rw [hdb]
        exact hempty
      · rw [hdb]
        exact Nat.le_zero.mp ((countFor_delete_le _ _ _).trans_eq hempty)

theorem getClustersWithoutOccurrences_ok {ownerId : String} {w w' : World K}
    {rows : List (Cluster K)}
    (h : Answered pf oracle (.query (.getClustersWithoutOccurrences ownerId)) w (.ok rows) w') :
    w'.db = w.db ∧ ∀ r ∈ rows, w.db.countFor r.id = 0 := by
  refine ⟨(congrArg (fun x => x.2.db) h).symm, fun r hr => ?_⟩
  have hrows : Db.getClustersWithoutOccurrences w.db ownerId = .ok rows := congrArg Prod.fst h
  obtain ⟨owner, -, hrows⟩ := Fallible.bind_eq_ok.mp hrows
  cases hrows
  have hmem := (List.mem_filter.mp hr).2
  simp only [Bool.and_eq_true, decide_eq_true_eq] at hmem
  exact hmem.2

/-- No transaction gives an empty cluster its first sighting. -/
def Undisturbed (pf : Platform K) (oracle : Oracle) (ownerId : String) (w w' : World K) : Prop :=
  Moves pf oracle ownerId w w' ∧ ∀ id, w.db.countFor id = 0 → w'.db.countFor id = 0

/-- The rows of the list stay empty until they are deleted, as long as the
other transactions leave empty clusters empty. -/
theorem empty_when_undisturbed {w w' : World K} {res : Except PyError ℕ}
    {log : List (Event K)}
    (h : Runs (Undisturbed pf oracle auth.userId) (Answered pf oracle) (deleteEmptyFaces svc auth)
      w log res w') : EmptyWhenDeleted auth.userId log := by
  rcases h.bind_inv with ⟨e, hlist, rfl⟩ | ⟨rows, w₁, log₁, log₂, hlist, hloop, rfl⟩
  · obtain ⟨w₀, -, -, rfl⟩ := hlist.perform_inv
    rintro st hst _ _ _ hop -
    rw [List.mem_singleton.mp hst] at hop
    cases hop
  · obtain ⟨w₀, -, hanswer, rfl⟩ := hlist.perform_inv
    obtain ⟨hdb, hempty⟩ := getClustersWithoutOccurrences_ok hanswer
    have hwithin : (((rows.map (·.id.text)).foldlM (deleteListed svc auth) 0).Within
        (DeleteCall auth.userId (· ∈ rows.map (·.id.text))) fun _ => True) :=
      within_foldlM (fun deleted _ hid => deleteListed_within deleted hid) _
    -- the invariant is that every row of the list is still empty
    obtain ⟨-, hlog⟩ := hloop.preserves (I := fun w => ∀ r ∈ rows, w.db.countFor r.id = 0)
      (fun _ _ hmove hI r hr => hmove.2 _ (hI r hr))
      (fun _ _ _ _ hop hans hI r hr => deleteCall_keeps_empty hop hans (hI r hr))
      hwithin (hdb ▸ hempty)
    intro st hst clusterId id row hop hown
    rcases List.mem_append.mp hst with hst | hst
    · rw [List.mem_singleton.mp hst] at hop
      cases hop
    · obtain ⟨hcall, hI, -⟩ := hlog st hst
      rw [hop] at hcall
      cases hcall with
      | delete hlisted =>
          obtain ⟨r, hr, rfl⟩ := List.mem_map.mp hlisted
          have hid := hown.cast
          rw [Uuid.castUuid_text] at hid
          cases hid
          exact hI r hr

/-! ### The endpoint among other transactions -/

/-- **A run among other transactions.** `delete_empty_faces` keeps every
sighting exactly when none of its deletions comes after a transaction that gave
the cluster one. Appends and merges that leave empty clusters empty give none. -/
theorem sightings_kept_iff {w w' : World K} {res : Except PyError ℕ}
    {log : List (Event K)}
    (h : RunsAmong pf oracle auth.userId (deleteEmptyFaces svc auth) w log res w') :
    (SightingsKept auth.userId log ↔ EmptyWhenDeleted auth.userId log) ∧
      (Runs (Undisturbed pf oracle auth.userId) (Answered pf oracle) (deleteEmptyFaces svc auth)
        w log res w' → SightingsKept auth.userId log) := by
  have hsteps := h.within deleteEmptyFaces_within
  have hiff : SightingsKept auth.userId log ↔ EmptyWhenDeleted auth.userId log := by
    constructor
    · intro hkept st hst
      obtain ⟨hop, hanswered⟩ := hsteps st hst
      exact (step_keeps_iff hop hanswered).mp (hkept st hst)
    · intro hempty st hst
      obtain ⟨hop, hanswered⟩ := hsteps st hst
      exact (step_keeps_iff hop hanswered).mpr (hempty st hst)
  exact ⟨hiff, fun hundisturbed => hiff.mpr (empty_when_undisturbed hundisturbed)⟩

/-- One anonymous cluster without sightings. -/
def emptyWorld : World ℚ :=
  { sceneWorld with db := ⟨[Cluster.anonymous (Uuid.fill 3) (Uuid.fill 1) [1] 0], []⟩ }

/-- Its owner. -/
def emptyAuth : AuthContext := ⟨(Uuid.fill 1).text, none⟩

/-- The list has been read. -/
def listedWorld : World ℚ :=
  (answer Platform.exact (sceneOracle 9)
    (.query (.getClustersWithoutOccurrences emptyAuth.userId)) emptyWorld).2

/-- An append comes between the list and the deletion. -/
def appendedWorld (items : List (Db.Item ℚ)) : World ℚ :=
  (answer Platform.exact (sceneOracle 9) (.write (.appendStreamOccurrences emptyAuth.userId
    (Uuid.fill 2).text items)) listedWorld).2

/-- It gives the cluster a sighting. -/
def overtakenWorld : World ℚ := appendedWorld [⟨(Uuid.fill 3).text, [1], 5 / 2, 1⟩]

/-- The deletion of the cluster in a world. -/
def deletionIn (w : World ℚ) : Event ℚ where
  op := .write (.deleteCluster (Uuid.fill 3).text emptyAuth.userId)
  result := (answer Platform.exact (sceneOracle 9)
    (.write (.deleteCluster (Uuid.fill 3).text emptyAuth.userId)) w).1
  before := w
  after := (answer Platform.exact (sceneOracle 9)
    (.write (.deleteCluster (Uuid.fill 3).text emptyAuth.userId)) w).2

/-- The run in which the other transactions come between the list and the deletion. -/
theorem run_between {env : World ℚ → World ℚ → Prop} {w₁ : World ℚ} (hmove : env listedWorld w₁) :
    ∃ log res w', Runs env (Answered Platform.exact (sceneOracle 9))
      (deleteEmptyFaces (sceneService []) emptyAuth) emptyWorld log res w' ∧ deletionIn w₁ ∈ log := by
  have hanswers : ∀ (op : Call ℚ) w, Answered Platform.exact (sceneOracle 9) op w
      (answer Platform.exact (sceneOracle 9) op w).1
      (answer Platform.exact (sceneOracle 9) op w).2 := fun _ _ => rfl
  have hrows : (answer Platform.exact (sceneOracle 9)
      (.query (.getClustersWithoutOccurrences emptyAuth.userId)) emptyWorld).1 =
      .ok [Cluster.anonymous (Uuid.fill 3) (Uuid.fill 1) [1] 0] := by decide +kernel
  have hlist : Runs env (Answered Platform.exact (sceneOracle 9))
      (query (.getClustersWithoutOccurrences emptyAuth.userId)) emptyWorld _
      (.ok [Cluster.anonymous (Uuid.fill 3) (Uuid.fill 1) [1] 0]) listedWorld :=
    .performed .refl (Prod.ext hrows rfl)
  have hdelete : Runs env (Answered Platform.exact (sceneOracle 9))
      (write (.deleteCluster (Uuid.fill 3).text emptyAuth.userId)) listedWorld [deletionIn w₁] _ _ :=
    .performed (.single hmove) (hanswers _ w₁)
  have hround : ∃ log r w, Runs env (Answered Platform.exact (sceneOracle 9))
      (deleteListed (sceneService []) emptyAuth 0 (Uuid.fill 3).text) listedWorld
      ([deletionIn w₁] ++ log) r w := hdelete.extend _ hanswers _
  obtain ⟨log₁, _, _, hround⟩ := hround
  have hloop : ∃ log r w, Runs env (Answered Platform.exact (sceneOracle 9))
      (List.foldlM (deleteListed (sceneService []) emptyAuth) 0 [(Uuid.fill 3).text]) listedWorld
      ([deletionIn w₁] ++ log₁ ++ log) r w := by
    rw [List.foldlM_cons]
    exact hround.extend _ hanswers _
  obtain ⟨log₂, res, w', hloop⟩ := hloop
  exact ⟨_, res, w', hlist.followed hloop, by simp⟩

/-- An append that gives the cluster a sighting loses it again; that of a run which
has found nobody does no harm. -/
theorem sightings_kept_iff_between :
    (∃ log res w', RunsAmong Platform.exact (sceneOracle 9) emptyAuth.userId
      (deleteEmptyFaces (sceneService []) emptyAuth) emptyWorld log res w' ∧
        deletionIn overtakenWorld ∈ log ∧ ¬ SightingsKept emptyAuth.userId log) ∧
    ∃ log res w', RunsAmong Platform.exact (sceneOracle 9) emptyAuth.userId
      (deleteEmptyFaces (sceneService []) emptyAuth) emptyWorld log res w' ∧
        deletionIn (appendedWorld []) ∈ log ∧ SightingsKept emptyAuth.userId log := by
  constructor
  · obtain ⟨log, res, w', hrun, hlate⟩ := @run_between
      (Moves Platform.exact (sceneOracle 9) emptyAuth.userId) overtakenWorld ⟨_, .append rfl _ _, rfl⟩
    refine ⟨log, res, w', hrun, hlate, fun hkept => ?_⟩
    have hempty := (sightings_kept_iff hrun).1.mp hkept _ hlate (Uuid.fill 3).text (Uuid.fill 3) _ rfl
      ⟨Uuid.castUuid_text _, rfl, rfl⟩
    exact absurd hempty (by decide +kernel)
  · have hsame : (appendedWorld []).db.occurrences = listedWorld.db.occurrences := by decide +kernel
    have hundisturbed : Undisturbed Platform.exact (sceneOracle 9) emptyAuth.userId listedWorld
        (appendedWorld []) := by
      refine ⟨⟨_, .append rfl _ _, rfl⟩, fun id hempty => ?_⟩
      rw [countFor, hsame]
      exact hempty
    obtain ⟨log, res, w', hrun, hlate⟩ := run_between hundisturbed
    have hamong : RunsAmong Platform.exact (sceneOracle 9) emptyAuth.userId
        (deleteEmptyFaces (sceneService []) emptyAuth) emptyWorld log res w' :=
      hrun.mono fun _ _ hmove => hmove.1
    exact ⟨log, res, w', hamong, hlate, (sightings_kept_iff hamong).2 hrun⟩

/-- Where the cluster has been given a sighting, that is lost: `delete_cluster` does
not look again whether the cluster is empty. -/
theorem overtaken_run_loses_sighting :
    ¬ ∀ log res w', RunsAmong Platform.exact (sceneOracle 9) emptyAuth.userId
      (deleteEmptyFaces (sceneService []) emptyAuth) emptyWorld log res w' →
        SightingsKept emptyAuth.userId log := by
  intro h
  obtain ⟨log, res, w', hrun, hlate⟩ := @run_between
    (Moves Platform.exact (sceneOracle 9) emptyAuth.userId) overtakenWorld ⟨_, .append rfl _ _, rfl⟩
  have hkept := (h log res w' hrun _ hlate).1
  have hlost : ¬ ∀ o ∈ (deletionIn overtakenWorld).before.db.occurrences,
      o ∈ (deletionIn overtakenWorld).after.db.occurrences := by
    decide +kernel
  exact hlost fun o ho => hkept ho

end FacesService.Reader
