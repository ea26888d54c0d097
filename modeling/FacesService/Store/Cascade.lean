import FacesService.Store.Purge
import FacesService.Store.Merge

/-!
`cascade_stream` against `detach_cluster_from_stream`: a cascade does to the
tables what detaching every cluster of the stream does, in whatever order.
-/

namespace FacesService

open Database Fallible Db

variable {K : Type}

/-! ### The clusters of a cascade -/

/-- The primary key, and every row belonging to the owner of its cluster. -/
structure Rooted (db : Database K) : Prop where
  ids : (db.clusters.map (·.id)).Nodup
  owned : ∀ o ∈ db.occurrences, ∃ c ∈ db.clusters, c.id = o.clusterId ∧ c.ownerId = o.ownerId

theorem Rooted.eq_of_id {db : Database K} (h : Rooted db) {c c' : Cluster K} (hc : c ∈ db.clusters)
    (hc' : c' ∈ db.clusters) (hid : c.id = c'.id) : c = c' :=
  List.inj_on_of_nodup_map h.ids hc hc' hid

theorem settle_ids_sublist (now : ℕ) (ids : List Uuid) (db : Database K) :
    ((settle now ids db).clusters.map (·.id)).Sublist (db.clusters.map (·.id)) := by
  unfold settle
  simp only
  generalize db.clusters = rows
  induction rows with
  | nil => exact .refl _
  | cons c rows ih =>
      rw [List.filterMap_cons]
      cases hc : settleCluster now db ids c with
      | none => exact ih.cons _
      | some c' =>
          rw [List.map_cons, List.map_cons, (settleCluster_keeps hc).1]
          exact ih.cons_cons _

theorem Rooted.purge {db : Database K} (h : Rooted db) (now : ℕ) (p : Occurrence K → Bool) :
    Rooted (FacesService.purge now p db) where
  ids := h.ids.sublist (settle_ids_sublist now _ _)
  owned := by
    intro o ho
    obtain ⟨c, hc, hid, howner⟩ := h.owned o (List.mem_filter.mp ho).1
    have hleft : (db.deleteOccurrences p).countFor c.id ≠ 0 :=
      Nat.pos_iff_ne_zero.mp (List.countP_pos_iff.mpr ⟨o, ho, by simpa using hid.symm⟩)
    cases hsettle : settleCluster now (db.deleteOccurrences p) (hit p db) c with
    | none => exact absurd (settleCluster_eq_none.mp hsettle).2 hleft
    | some c' =>
        obtain ⟨hid', howner'⟩ := settleCluster_keeps hsettle
        exact ⟨c', List.mem_filterMap.mpr ⟨c, hc, hsettle⟩, hid'.trans hid, howner'.trans howner⟩

/-- A cluster without a row in `p` is not touched. -/
theorem mem_purge_of_not_hit {db : Database K} {now : ℕ} {p : Occurrence K → Bool} {c : Cluster K}
    (hc : c ∈ db.clusters) (hnot : c.id ∉ hit p db) : c ∈ (purge now p db).clusters :=
  List.mem_filterMap.mpr ⟨c, hc, by rw [settleCluster, if_neg hnot]⟩

theorem settle_clusterById {ids : List Uuid} {id : Uuid} (h : id ∉ ids) (now : ℕ) (db : Database K) :
    (settle now ids db).clusterById id = db.clusterById id := by
  have hsame : ∀ c : Cluster K, c.id = id → settleCluster now db ids c = some c := fun c hc => by
    rw [settleCluster, if_neg (hc ▸ h)]
  unfold clusterById settle
  simp only
  have hcongr : ∀ q : Cluster K → Bool, (∀ c ∈ db.clusters, q c = decide (c.id = id)) →
      db.clusters.find? q = db.clusters.find? fun c => c.id = id := fun q hq => List.find?_congr hq
  rw [List.find?_filterMap, hcongr]
  · cases hfind : db.clusters.find? fun c => decide (c.id = id) with
    | none => rfl
    | some c => exact hsame c (by simpa using List.find?_some hfind)
  · intro c _
    cases hc : settleCluster now db ids c with
    | none =>
        have hne : c.id ≠ id := fun hid => by simp [hsame c hid] at hc
        simpa using hne
    | some c' => simp [(settleCluster_keeps hc).1]

/-! ### `cascade_stream` -/

theorem cascadeCluster_settles (now : ℕ) (acc : CascadeResult × List String × Database K) (cid : Uuid) :
    (cascadeCluster now acc cid).2.2 = settle now [cid] acc.2.2 := by
  refine settle_of_recount (p := fun c => decide (c.id = cid)) ?_ ?_
  · exact fun c _ => by simp
  · exact fun _ _ _ => rfl

theorem cascadeClusters_settles (now : ℕ) (ids : List Uuid)
    (acc : CascadeResult × List String × Database K) :
    (ids.foldl (cascadeCluster now) acc).2.2 = settle now ids acc.2.2 := by
  induction ids generalizing acc with
  | nil => exact (settle_nil now _).symm
  | cons cid ids ih =>
      rw [List.foldl_cons, ih, cascadeCluster_settles, settle_settle]
      rfl

/-- The clusters of the list without a row, with their owners. -/
def emptyOnes (db : Database K) (ids : List Uuid) : List (String × Uuid) :=
  ids.filterMap fun id =>
    if db.countFor id = 0 then (db.clusterById id).map fun r => (r.ownerId.text, id) else none

theorem mem_emptyOnes {db : Database K} (hids : (db.clusters.map (·.id)).Nodup) {ids : List Uuid}
    {owner : String} {id : Uuid} : (owner, id) ∈ emptyOnes db ids ↔
      id ∈ ids ∧ db.countFor id = 0 ∧ ∃ c ∈ db.clusters, c.id = id ∧ c.ownerId.text = owner := by
  simp only [emptyOnes, List.mem_filterMap]
  constructor
  · rintro ⟨id', hid', hsome⟩
    split at hsome
    · rename_i hzero
      obtain ⟨c, hc, heq⟩ := Option.map_eq_some_iff.mp hsome
      cases heq
      obtain ⟨hmem, hcid⟩ := mem_of_clusterById hc
      exact ⟨hid', hzero, c, hmem, hcid, rfl⟩
    · cases hsome
  · rintro ⟨hid, hzero, c, hc, rfl, rfl⟩
    refine ⟨c.id, hid, ?_⟩
    rw [if_pos hzero]
    cases hfind : db.clusterById c.id with
    | none => exact absurd rfl (clusterById_eq_none.mp hfind c hc)
    | some c' =>
        obtain ⟨hc', hid'⟩ := mem_of_clusterById hfind
        rw [List.inj_on_of_nodup_map hids hc' hc hid']
        rfl

theorem countP_id_eq_one {rows : List (Cluster K)} (h : (rows.map (·.id)).Nodup) {c : Cluster K}
    (hc : c ∈ rows) : (rows.countP fun r => r.id = c.id) = 1 := by
  have hcount := List.count_eq_one_of_mem h (List.mem_map_of_mem hc)
  rw [List.count_eq_countP, List.countP_map] at hcount
  rw [← hcount]
  exact List.countP_congr fun r _ => by simp

/-- One round reports its cluster if nothing is left of it. -/
theorem cascadeCluster_reports (now : ℕ) {acc : CascadeResult × List String × Database K}
    (hids : (acc.2.2.clusters.map (·.id)).Nodup) (cid : Uuid) :
    (cascadeCluster now acc cid).1 =
      { acc.1 with
        clustersDeleted := acc.1.clustersDeleted + (emptyOnes acc.2.2 [cid]).length
        deletedClusters := acc.1.deletedClusters ++ emptyOnes acc.2.2 [cid] } := by
  obtain ⟨res, touched, db⟩ := acc
  have hn : ((db.recount now fun c => c.id = cid).clusters.countP fun c => c.id = cid && c.sampleCount = 0) =
      if db.countFor cid = 0 then db.clusters.countP fun c => c.id = cid else 0 := by
    rw [recount, updateClusters, List.countP_map]
    split
    · rename_i hzero
      refine List.countP_congr fun c _ => ?_
      by_cases hc : c.id = cid <;> simp [hc, hzero]
    · rename_i hleft
      refine List.countP_eq_zero.mpr fun c _ => ?_
      by_cases hc : c.id = cid <;> simp [hc, hleft]
  unfold cascadeCluster
  simp only at hids ⊢
  rw [hn]
  by_cases hzero : db.countFor cid = 0
  · cases hrow : db.clusterById cid with
    | none =>
        have hcount : (db.clusters.countP fun c => c.id = cid) = 0 :=
          List.countP_eq_zero.mpr fun c hc => by simpa using clusterById_eq_none.mp hrow c hc
        simp [emptyOnes, hzero, hrow, hcount]
    | some row =>
        obtain ⟨hmem, rfl⟩ := mem_of_clusterById hrow
        simp [emptyOnes, hzero, hrow, countP_id_eq_one hids hmem]
  · simp [emptyOnes, hzero]

theorem cascadeClusters_reports (now : ℕ) {ids : List Uuid} (hnodup : ids.Nodup)
    {acc : CascadeResult × List String × Database K}
    (hids : (acc.2.2.clusters.map (·.id)).Nodup) :
    (ids.foldl (cascadeCluster now) acc).1 =
      { acc.1 with
        clustersDeleted := acc.1.clustersDeleted + (emptyOnes acc.2.2 ids).length
        deletedClusters := acc.1.deletedClusters ++ emptyOnes acc.2.2 ids } := by
  induction ids generalizing acc with
  | nil => simp [emptyOnes]
  | cons cid ids ih =>
      obtain ⟨hcid, hnodup⟩ := List.nodup_cons.mp hnodup
      have hids' : ((cascadeCluster now acc cid).2.2.clusters.map (·.id)).Nodup := by
        rw [cascadeCluster_settles]
        exact hids.sublist (settle_ids_sublist now _ _)
      -- the later rounds see the clusters they are about as they were
      have hlater : emptyOnes (cascadeCluster now acc cid).2.2 ids = emptyOnes acc.2.2 ids := by
        rw [cascadeCluster_settles]
        refine List.filterMap_congr fun id hid => ?_
        have hne : id ∉ [cid] := fun hmem => hcid (List.mem_singleton.mp hmem ▸ hid)
        rw [settle_countFor, settle_clusterById hne]
      have hcons : emptyOnes acc.2.2 (cid :: ids) = emptyOnes acc.2.2 [cid] ++ emptyOnes acc.2.2 ids := by
        rw [emptyOnes, ← List.singleton_append, List.filterMap_append]
        rfl
      rw [List.foldl_cons, ih hnodup hids', cascadeCluster_reports now hids, hlater, hcons]
      simp [Nat.add_assoc]

/-- The clusters of a stream, as the cascade reads them. -/
def clustersIn (db : Database K) (stream : Uuid) : List Uuid :=
  ((db.occurrences.filter fun o => o.streamId = stream).map (·.clusterId)).dedup

theorem mem_clustersIn {db : Database K} {stream id : Uuid} :
    id ∈ clustersIn db stream ↔ ∃ o ∈ db.occurrences, o.streamId = stream ∧ o.clusterId = id := by
  simp [clustersIn, and_assoc]

/-- A row of the stream. -/
def inStream (stream : Uuid) (o : Occurrence K) : Bool := o.streamId = stream

/-- The clusters that lose their last row with the stream, with their owners. -/
def orphaned (db : Database K) (stream : Uuid) : List (String × Uuid) :=
  emptyOnes (db.deleteOccurrences (inStream stream)) (clustersIn db stream)

/-- **What a cascade does.** -/
theorem cascadeStream_db {db : Database K} {streamId : String} {now : ℕ} {c : Commit K CascadeResult}
    (h : cascadeStream now db streamId = .ok c) :
    ∃ stream, castUuid streamId = .ok stream ∧ c.db = purge now (inStream stream) db := by
  obtain ⟨stream, hstream, hc⟩ := cascadeStream_ok h
  refine ⟨stream, hstream, (congrArg (·.2.2) hc).trans ((cascadeClusters_settles now _ _).trans ?_)⟩
  rw [purge]
  refine settle_congr (fun id => ?_) now _
  rw [List.mem_dedup]
  rfl

/-- What it reports. -/
theorem cascadeStream_purges {db : Database K} (hids : (db.clusters.map (·.id)).Nodup) {streamId : String}
    {stream : Uuid} (hstream : castUuid streamId = .ok stream) (now : ℕ) :
    ∃ c, cascadeStream now db streamId = .ok c ∧ c.db = purge now (inStream stream) db ∧
      c.result.occurrencesDeleted = db.occurrences.countP (inStream stream) ∧
      c.result.deletedClusters = orphaned db stream ∧
      c.result.clustersDeleted = c.result.deletedClusters.length := by
  obtain ⟨c, hc⟩ : ∃ c, cascadeStream now db streamId = .ok c := by
    rw [cascadeStream, hstream]
    exact ⟨_, rfl⟩
  obtain ⟨stream', hstream', hdb⟩ := cascadeStream_db hc
  cases hstream.symm.trans hstream'
  obtain ⟨stream', hstream', hfold⟩ := cascadeStream_ok hc
  cases hstream.symm.trans hstream'
  have hnodup : (clustersIn db stream).Nodup := List.nodup_dedup _
  have hresult : c.result = ((clustersIn db stream).foldl (cascadeCluster now)
      (⟨db.occurrences.countP (inStream stream), 0, []⟩, [], db.deleteOccurrences (inStream stream))).1 :=
    congrArg (·.1) hfold
  rw [cascadeClusters_reports now hnodup hids] at hresult
  refine ⟨c, hc, hdb, ?_, ?_, ?_⟩
  · rw [hresult]
  · rw [hresult]
    simp [orphaned]
  · rw [hresult]
    simp

theorem countFor_deleteOccurrences_eq_zero {db : Database K} {p : Occurrence K → Bool} {id : Uuid} :
    (db.deleteOccurrences p).countFor id = 0 ↔ ∀ o ∈ db.occurrences, o.clusterId = id → p o = true := by
  simp only [countFor, List.countP_eq_zero, mem_deleteOccurrences, decide_eq_true_eq]
  constructor
  · intro h o ho hid
    by_contra hne
    exact h o ⟨ho, by simpa using hne⟩ hid
  · rintro h o ⟨ho, hout⟩ hid
    rw [h o ho hid] at hout
    cases hout

/-- They are the clusters with some row, and all of them in the stream. -/
theorem mem_orphaned {db : Database K} (hids : (db.clusters.map (·.id)).Nodup) {stream : Uuid}
    {owner : String} {id : Uuid} : (owner, id) ∈ orphaned db stream ↔
      ∃ row ∈ db.clusters, row.id = id ∧ row.ownerId.text = owner ∧
        (∃ o ∈ db.occurrences, o.clusterId = id) ∧
        ∀ o ∈ db.occurrences, o.clusterId = id → o.streamId = stream := by
  have hids' : ((db.deleteOccurrences (inStream stream)).clusters.map (·.id)).Nodup := hids
  rw [orphaned, mem_emptyOnes hids', mem_clustersIn, countFor_deleteOccurrences_eq_zero]
  simp only [inStream, decide_eq_true_eq, clusters_deleteOccurrences]
  constructor
  · rintro ⟨⟨o, ho, -, hid⟩, hall, row, hrow, hrid, howner⟩
    exact ⟨row, hrow, hrid, howner, ⟨o, ho, hid⟩, hall⟩
  · rintro ⟨row, hrow, hrid, howner, ⟨o, ho, hid⟩, hall⟩
    exact ⟨⟨o, ho, hall o ho hid, hid⟩, hall, row, hrow, hrid, howner⟩

/-! ### `detach_cluster_from_stream` -/

/-- A row of the cluster in the stream. -/
def inClusterAndStream (id stream : Uuid) (o : Occurrence K) : Bool :=
  o.clusterId = id && o.streamId = stream

theorem detach_of_owned {db : Database K} {clusterId streamId ownerId : String} {id stream : Uuid}
    {row : Cluster K} (hown : Owned db clusterId ownerId id row)
    (hstream : castUuid streamId = .ok stream) (now : ℕ) :
    ∃ m, detachClusterFromStream now db clusterId streamId ownerId =
        .ok ⟨some m, ((db.deleteOccurrences (detached id stream row.ownerId)).recount now fun c =>
          c.id = id && c.ownerId = row.ownerId).deleteClusters (emptied id row.ownerId), [ownerId]⟩ ∧
      m.removed = db.occurrences.countP (detached id stream row.ownerId) ∧
      m.clusterDeleted = ((db.deleteOccurrences (detached id stream row.ownerId)).recount now fun c =>
          c.id = id && c.ownerId = row.ownerId).clusters.any (emptied id row.ownerId) := by
  unfold detachClusterFromStream
  rw [hown.cast, ok_bind, hown.found]
  simp only [hown.owner, ne_eq, not_true_eq_false, if_false]
  rw [hstream, ok_bind, hown.castOwner, ok_bind]
  exact ⟨_, rfl, rfl, rfl⟩

/-- Detaching a cluster from a stream it occurs in purges its rows there. -/
theorem detach_purges {db : Database K} (hr : Rooted db) {clusterId streamId ownerId : String}
    {id stream : Uuid} {row : Cluster K} (hown : Owned db clusterId ownerId id row)
    (hstream : castUuid streamId = .ok stream)
    (hseen : ∃ o ∈ db.occurrences, inClusterAndStream id stream o = true) (now : ℕ) :
    ∃ m, detachClusterFromStream now db clusterId streamId ownerId =
        .ok ⟨some m, purge now (inClusterAndStream id stream) db, [ownerId]⟩ ∧
      m.removed = db.occurrences.countP (inClusterAndStream id stream) ∧
      (m.clusterDeleted = true ↔ ∀ o ∈ db.occurrences, o.clusterId = id → o.streamId = stream) := by
  have hmine : ∀ c ∈ db.clusters, (c.id = id && c.ownerId = row.ownerId : Bool) = decide (c.id = id) := by
    intro c hc
    by_cases hid : c.id = id
    · rw [hr.eq_of_id hc hown.mem.1 (hid.trans hown.mem.2.symm)]
      simp
    · simp [hid]
  have hgone : ∀ o ∈ db.occurrences, detached id stream row.ownerId o = inClusterAndStream id stream o := by
    intro o ho
    by_cases hid : o.clusterId = id
    · obtain ⟨c, hc, hcid, howner⟩ := hr.owned o ho
      rw [hr.eq_of_id hc hown.mem.1 (hcid.trans (hid.trans hown.mem.2.symm))] at howner
      simp [detached, inClusterAndStream, howner]
    · simp [detached, inClusterAndStream, hid]
  obtain ⟨m, hrun, hremoved, hdeleted⟩ := detach_of_owned hown hstream now
  rw [deleteOccurrences_congr hgone] at hrun hdeleted
  have hsettles : (((db.deleteOccurrences (inClusterAndStream id stream)).recount now fun c =>
      c.id = id && c.ownerId = row.ownerId).deleteClusters (emptied id row.ownerId)) =
      purge now (inClusterAndStream id stream) db := by
    have hsettle : _ = settle now [id] (db.deleteOccurrences (inClusterAndStream id stream)) :=
      settle_of_recount (p := fun c => c.id = id && c.ownerId = row.ownerId)
        (fun c hc => by rw [hmine c hc]; simp) fun _ _ _ => rfl
    refine hsettle.trans (settle_congr (fun id' => ?_) now _)
    obtain ⟨o, ho, hin⟩ := hseen
    rw [List.mem_singleton, mem_hit]
    constructor
    · rintro rfl
      refine ⟨o, ho, hin, ?_⟩
      simp only [inClusterAndStream, Bool.and_eq_true, decide_eq_true_eq] at hin
      exact hin.1
    · rintro ⟨o', -, hin, rfl⟩
      simp only [inClusterAndStream, Bool.and_eq_true, decide_eq_true_eq] at hin
      exact hin.1
  refine ⟨m, hsettles ▸ hrun, ?_, ?_⟩
  · rw [hremoved]
    exact List.countP_congr fun o ho => by rw [hgone o ho]
  · have hleft : (db.deleteOccurrences (inClusterAndStream id stream)).countFor id = 0 ↔
        ∀ o ∈ db.occurrences, o.clusterId = id → o.streamId = stream := by
      rw [countFor_deleteOccurrences_eq_zero]
      refine forall_congr' fun o => forall_congr' fun _ => forall_congr' fun hid => ?_
      simp [inClusterAndStream, hid]
    rw [hdeleted, ← hleft, List.any_eq_true]
    constructor
    · rintro ⟨c, hc, hempty⟩
      obtain ⟨c₀, hc₀, rfl⟩ := mem_updateClusters hc
      simp only [emptied, Bool.and_eq_true, decide_eq_true_eq] at hempty
      split at hempty
      · exact hempty.1.1 ▸ hempty.2
      · rename_i hnot
        exact absurd (by simpa using hempty.1) hnot
    · intro hzero
      refine ⟨_, recount_mem now hown.mem.1 (by simp [hown.mem.2]), ?_⟩
      simp [emptied, hown.mem.2, hzero]

/-! ### Sequences of calls -/

/-- Detaching one cluster after the other, each call at its own time: what the
calls answer, and the tables in the end. -/
def detachEach (streamId : String) (owner : Uuid → Uuid) : List (Uuid × ℕ) → Database K →
    Except PyError (List (Option DetachSummary) × Database K)
  | [], db => .ok ([], db)
  | (id, now) :: calls, db => do
      let c ← detachClusterFromStream now db id.text streamId (owner id).text
      let (answers, db) ← detachEach streamId owner calls c.db
      .ok (c.result :: answers, db)

/-- What the detach call of a cluster says of the tables as they were at first. -/
def DetachAnswer (db : Database K) (stream : Uuid) (call : Uuid × ℕ) (answer : Option DetachSummary) :
    Prop :=
  ∃ m, answer = some m ∧ m.removed = db.occurrences.countP (inClusterAndStream call.1 stream) ∧
    (m.clusterDeleted = true ↔ ∀ o ∈ db.occurrences, o.clusterId = call.1 → o.streamId = stream)

/-- To purge the rows of one cluster is nothing to the rows of another. -/
theorem DetachAnswer.of_purge {db : Database K} {now : ℕ} {id stream : Uuid} {call : Uuid × ℕ}
    {answer : Option DetachSummary} (hne : call.1 ≠ id)
    (h : DetachAnswer (purge now (inClusterAndStream id stream) db) stream call answer) :
    DetachAnswer db stream call answer := by
  obtain ⟨m, rfl, hremoved, hdeleted⟩ := h
  refine ⟨m, rfl, hremoved.trans ?_, hdeleted.trans ?_⟩
  · rw [purge_occurrences, List.countP_filter]
    refine List.countP_congr fun o _ => ?_
    by_cases ho : o.clusterId = call.1
    · simp [inClusterAndStream, ho, hne]
    · simp [inClusterAndStream, ho]
  · constructor
    · intro h o ho hid
      refine h o ?_ hid
      rw [purge_occurrences, List.mem_filter]
      exact ⟨ho, by simp [inClusterAndStream, hid, hne]⟩
    · exact fun h o ho hid => h o (List.mem_of_mem_filter ho) hid

/-- The rows of some clusters in the stream. -/
def inClustersAndStream (ids : List Uuid) (stream : Uuid) (o : Occurrence K) : Bool :=
  o.clusterId ∈ ids && o.streamId = stream

theorem inClustersAndStream_cons (id : Uuid) (ids : List Uuid) (stream : Uuid) (o : Occurrence K) :
    inClustersAndStream (id :: ids) stream o =
      (inClusterAndStream id stream o || inClustersAndStream ids stream o) := by
  by_cases ho : o.clusterId = id <;> simp [inClusterAndStream, inClustersAndStream, ho]

theorem detachEach_purges {db : Database K} (hr : Rooted db) {streamId : String} {stream : Uuid}
    (hstream : castUuid streamId = .ok stream) {owner : Uuid → Uuid} {calls : List (Uuid × ℕ)}
    (hnodup : (calls.map Prod.fst).Nodup)
    (hcalls : ∀ id ∈ calls.map Prod.fst, (∃ c ∈ db.clusters, c.id = id ∧ c.ownerId = owner id) ∧
      ∃ o ∈ db.occurrences, inClusterAndStream id stream o = true) :
    ∃ answers db', detachEach streamId owner calls db = .ok (answers, db') ∧
      db'.timeless = (purge 0 (inClustersAndStream (calls.map Prod.fst) stream) db).timeless ∧
      List.Forall₂ (DetachAnswer db stream) calls answers := by
  induction calls generalizing db with
  | nil => exact ⟨[], db, rfl, by rw [purge_none fun _ _ => by simp [inClustersAndStream]], .nil⟩
  | cons call calls ih =>
      obtain ⟨id, now⟩ := call
      obtain ⟨hid, hnodup⟩ := List.nodup_cons.mp hnodup
      obtain ⟨⟨⟨c, hc, hcid, howner⟩, hseen⟩, hcalls⟩ := List.forall_mem_cons.mp hcalls
      have hown : Owned db id.text (owner id).text id c := by
        refine ⟨Uuid.castUuid_text id, ?_, by rw [howner]⟩
        cases hfind : db.clusterById id with
        | none => exact absurd hcid (clusterById_eq_none.mp hfind c hc)
        | some c' =>
            obtain ⟨hc', hid'⟩ := mem_of_clusterById hfind
            rw [hr.eq_of_id hc' hc (hid'.trans hcid.symm)]
      obtain ⟨m, hrun, hm⟩ := detach_purges hr hown hstream hseen now
      have hcalls' : ∀ id' ∈ calls.map Prod.fst,
          (∃ c ∈ (purge now (inClusterAndStream id stream) db).clusters, c.id = id' ∧ c.ownerId = owner id') ∧
            ∃ o ∈ (purge now (inClusterAndStream id stream) db).occurrences,
              inClusterAndStream id' stream o = true := by
        intro id' hid'
        have hne : id' ≠ id := fun heq => hid (heq ▸ hid')
        obtain ⟨⟨c', hc', hcid', howner'⟩, o, ho, hin⟩ := hcalls id' hid'
        refine ⟨⟨c', mem_purge_of_not_hit hc' ?_, hcid', howner'⟩, o, ?_, hin⟩
        · intro hhit
          obtain ⟨o, -, hin, hoid⟩ := mem_hit.mp hhit
          simp only [inClusterAndStream, Bool.and_eq_true, decide_eq_true_eq] at hin
          exact hne (hcid'.symm.trans (hoid.symm.trans hin.1))
        · simp only [inClusterAndStream, Bool.and_eq_true, decide_eq_true_eq] at hin
          exact List.mem_filter.mpr ⟨ho, by simp [inClusterAndStream, hin.1, hne]⟩
      obtain ⟨answers, db', hrest, hdb', hanswers⟩ := ih (hr.purge now _) hnodup hcalls'
      refine ⟨some m :: answers, db', ?_, ?_, .cons ⟨m, rfl, hm⟩ ?_⟩
      · rw [detachEach, hrun, ok_bind]
        change (detachEach streamId owner calls (purge now _ db) >>= _) = _
        rw [hrest]
        rfl
      · rw [hdb', purge_purge now 0 0, purge_congr]
        exact fun o _ => (inClustersAndStream_cons id _ stream o).symm
      · have hne : ∀ call ∈ calls, call.1 ≠ id := fun call hcall heq =>
          hid (List.mem_map.mpr ⟨call, hcall, heq⟩)
        refine List.Forall₂.imp ?_ ((List.forall₂_and_left _ _).mpr ⟨hne, hanswers⟩)
        exact fun call answer h => h.2.of_purge h.1

/-- Cascades of several streams, each at its own time. -/
def cascadeEach : List (String × ℕ) → Database K → Except PyError (Database K)
  | [], db => .ok db
  | (streamId, now) :: calls, db => do
      let c ← cascadeStream now db streamId
      cascadeEach calls c.db

theorem cascadeEach_purges {calls : List (String × ℕ)} (db : Database K)
    (hids : (db.clusters.map (·.id)).Nodup)
    (hcast : ∀ s ∈ calls.map Prod.fst, ∃ stream, castUuid s = .ok stream) :
    ∃ db', cascadeEach calls db = .ok db' ∧
      db'.timeless = (purge 0 (fun o => o.streamId ∈ denoted (calls.map Prod.fst)) db).timeless := by
  induction calls generalizing db with
  | nil => exact ⟨db, rfl, by rw [purge_none fun _ _ => by simp [denoted]]⟩
  | cons call calls ih =>
      obtain ⟨streamId, now⟩ := call
      obtain ⟨⟨stream, hstream⟩, hcast⟩ := List.forall_mem_cons.mp hcast
      obtain ⟨c, hrun, hdb, -⟩ := cascadeStream_purges hids hstream now
      have hids' : (c.db.clusters.map (·.id)).Nodup := by
        rw [hdb]
        exact hids.sublist (settle_ids_sublist now _ _)
      obtain ⟨db', hrest, hdb'⟩ := ih c.db hids' hcast
      refine ⟨db', ?_, ?_⟩
      · rw [cascadeEach, hrun]
        exact hrest
      · rw [hdb', hdb, purge_purge now 0 0, purge_congr]
        intro o _
        rw [List.map_cons, denoted_cons hstream]
        by_cases ho : o.streamId = stream <;> simp [inStream, ho]

/-! ### The cascade is detaching everyone -/

/-- A cascade of a stream and the detaching of its clusters, call by call. -/
structure CascadeDetaches (db : Database K) (stream : Uuid) (calls : List (Uuid × ℕ))
    (c : Commit K CascadeResult) (answers : List (Option DetachSummary)) (db' : Database K) : Prop where
  tables : c.db.timeless = db'.timeless
  deleted : ∀ owner id, (owner, id) ∈ c.result.deletedClusters ↔
    ∃ row ∈ db.clusters, row.id = id ∧ row.ownerId.text = owner ∧
      (∃ o ∈ db.occurrences, o.clusterId = id) ∧
      ∀ o ∈ db.occurrences, o.clusterId = id → o.streamId = stream
  answered : List.Forall₂ (fun call answer => ∃ m, answer = some m ∧
    (m.clusterDeleted = true ↔ ∃ owner, (owner, call.1) ∈ c.result.deletedClusters)) calls answers
  clustersDeleted : c.result.clustersDeleted = c.result.deletedClusters.length
  occurrencesDeleted : c.result.occurrencesDeleted =
    (answers.map fun answer => (answer.map (·.removed)).getD 0).sum
  rows : c.db.occurrences = db.occurrences.filter fun o => o.streamId ≠ stream
  kept : ∀ row ∈ db.clusters, (∀ o ∈ db.occurrences, o.clusterId = row.id → o.streamId ≠ stream) →
    row ∈ c.db.clusters

/-- The answers add up to the rows of the stream. -/
theorem sum_removed {db : Database K} {stream : Uuid} {calls : List (Uuid × ℕ)}
    {answers : List (Option DetachSummary)} (h : List.Forall₂ (DetachAnswer db stream) calls answers) :
    (answers.map fun answer => (answer.map (·.removed)).getD 0).sum =
      ((calls.map Prod.fst).map fun id => db.occurrences.countP (inClusterAndStream id stream)).sum := by
  induction h with
  | nil => rfl
  | cons hone _ ih =>
      obtain ⟨m, rfl, hremoved, -⟩ := hone
      rw [List.map_cons, List.sum_cons, ih, List.map_cons, List.map_cons, List.sum_cons]
      simp [hremoved]

theorem cascade_detaches {db : Database K} (hr : Rooted db) {streamId : String} {stream : Uuid}
    (hstream : castUuid streamId = .ok stream) (now : ℕ) {owner : Uuid → Uuid}
    (howner : ∀ row ∈ db.clusters, row.ownerId = owner row.id) {calls : List (Uuid × ℕ)}
    (hcalls : (calls.map Prod.fst).Perm (clustersIn db stream)) :
    ∃ c answers db', cascadeStream now db streamId = .ok c ∧
      detachEach streamId owner calls db = .ok (answers, db') ∧
      CascadeDetaches db stream calls c answers db' := by
  have hnodup : (calls.map Prod.fst).Nodup := hcalls.nodup_iff.mpr (List.nodup_dedup _)
  have hmem : ∀ id, id ∈ calls.map Prod.fst ↔
      ∃ o ∈ db.occurrences, o.streamId = stream ∧ o.clusterId = id := fun id =>
    hcalls.mem_iff.trans mem_clustersIn
  have hseen : ∀ id ∈ calls.map Prod.fst, (∃ c ∈ db.clusters, c.id = id ∧ c.ownerId = owner id) ∧
      ∃ o ∈ db.occurrences, inClusterAndStream id stream o = true := by
    intro id hid
    obtain ⟨o, ho, hin, rfl⟩ := (hmem id).mp hid
    obtain ⟨row, hrow, hrid, -⟩ := hr.owned o ho
    exact ⟨⟨row, hrow, hrid, hrid ▸ howner row hrow⟩, o, ho, by simp [inClusterAndStream, hin]⟩
  obtain ⟨c, hrun, hdb, hcount, hdeleted, hlength⟩ := cascadeStream_purges hr.ids hstream now
  obtain ⟨answers, db', hrun', hdb', hanswers⟩ :=
    detachEach_purges hr hstream hnodup hseen
  have hreport : ∀ owner id, (owner, id) ∈ c.result.deletedClusters ↔
      ∃ row ∈ db.clusters, row.id = id ∧ row.ownerId.text = owner ∧
        (∃ o ∈ db.occurrences, o.clusterId = id) ∧
        ∀ o ∈ db.occurrences, o.clusterId = id → o.streamId = stream := by
    intro owner id
    rw [hdeleted]
    exact mem_orphaned hr.ids
  refine ⟨c, answers, db', hrun, hrun', ?_, hreport, ?_, hlength, ?_, ?_, ?_⟩
  · rw [hdb, hdb', purge_timeless, purge_timeless]
    refine purge_congr (fun o ho => ?_) 0
    by_cases hin : o.streamId = stream
    · have hid : o.clusterId ∈ calls.map Prod.fst := (hmem _).mpr ⟨o, ho, hin, rfl⟩
      simp only [inStream, inClustersAndStream, hin, hid, decide_true, Bool.and_self]
    · simp [inStream, inClustersAndStream, hin]
  · have hcall : ∀ call ∈ calls, call.1 ∈ calls.map Prod.fst := fun call hcall =>
      List.mem_map_of_mem hcall
    refine List.Forall₂.imp ?_ ((List.forall₂_and_left _ _).mpr ⟨hcall, hanswers⟩)
    rintro call answer ⟨hin, m, rfl, -, hall⟩
    refine ⟨m, rfl, hall.trans ⟨fun hall => ?_, fun ⟨owner, hdel⟩ => ?_⟩⟩
    · obtain ⟨o, ho, -, hid⟩ := (hmem _).mp hin
      obtain ⟨row, hrow, hrid, -⟩ := hr.owned o ho
      exact ⟨_, (hreport _ _).mpr ⟨row, hrow, hrid.trans hid, rfl, ⟨o, ho, hid⟩, hall⟩⟩
    · obtain ⟨_, -, -, -, -, hall⟩ := (hreport _ _).mp hdel
      exact hall
  · have hsum := sum_countP_eq (fun o : Occurrence K => o.clusterId)
      (db.occurrences.filter (inStream stream)) hnodup
    simp only [List.countP_filter] at hsum
    rw [hcount, sum_removed hanswers]
    refine Eq.trans (List.countP_congr fun o ho => ?_) hsum.symm
    by_cases hin : o.streamId = stream
    · have hid : o.clusterId ∈ calls.map Prod.fst := (hmem _).mpr ⟨o, ho, hin, rfl⟩
      simp only [inStream, hin, hid, decide_true, Bool.and_self]
    · simp [inStream, hin]
  · rw [hdb, purge_occurrences]
    exact List.filter_congr fun o _ => by simp [inStream]
  · intro row hrow hnone
    rw [hdb]
    refine mem_purge_of_not_hit hrow fun hhit => ?_
    obtain ⟨o, ho, hin, hid⟩ := mem_hit.mp hhit
    exact hnone o ho hid (by simpa [inStream] using hin)

/-- In every state with its keys and owners in order: cascading a stream is
detaching every cluster that occurs in it, in any order, and streams may be
cascaded in any order. -/
theorem cascade_is_detaching {db : Database K} (hr : Rooted db) :
    (∀ (streamId : String) (stream : Uuid) (now : ℕ) (owner : Uuid → Uuid) (calls : List (Uuid × ℕ)),
      castUuid streamId = .ok stream → (∀ row ∈ db.clusters, row.ownerId = owner row.id) →
      (calls.map Prod.fst).Perm (clustersIn db stream) →
      ∃ c answers db', cascadeStream now db streamId = .ok c ∧
        detachEach streamId owner calls db = .ok (answers, db') ∧
        CascadeDetaches db stream calls c answers db') ∧
    ∀ calls calls' : List (String × ℕ), (∀ s ∈ calls.map Prod.fst, ∃ stream, castUuid s = .ok stream) →
      (calls.map Prod.fst).Perm (calls'.map Prod.fst) →
      ∃ db₁ db₂, cascadeEach calls db = .ok db₁ ∧ cascadeEach calls' db = .ok db₂ ∧
        db₁.timeless = db₂.timeless := by
  refine ⟨fun _ _ now _ _ hstream howner hcalls => cascade_detaches hr hstream now howner hcalls,
    fun calls calls' hcast hsame => ?_⟩
  obtain ⟨db₁, hrun, hdb₁⟩ := cascadeEach_purges db hr.ids hcast
  obtain ⟨db₂, hrun', hdb₂⟩ := cascadeEach_purges db hr.ids
    fun s hs => hcast s (hsame.mem_iff.mpr hs)
  refine ⟨db₁, db₂, hrun, hrun', ?_⟩
  rw [hdb₁, hdb₂]
  congr 1
  exact purge_congr (fun o _ => by simp [(denoted_perm hsame).mem_iff]) 0

/-- Two clusters in a stream, of which one is in another stream too, and one
cluster that was empty before. -/
def twoStreams : Database ℚ where
  clusters := [.anonymous (.fill 3) (.fill 1) [1] 1, .anonymous (.fill 4) (.fill 2) [1] 2,
    .anonymous (.fill 5) (.fill 1) [1] 0]
  occurrences := [⟨.fill 1, .fill 8, .fill 3, [1], 5 / 2, 1, 0⟩,
    ⟨.fill 2, .fill 8, .fill 4, [1], 5 / 2, 1, 0⟩, ⟨.fill 2, .fill 9, .fill 4, [1], 5 / 2, 1, 0⟩]

theorem cascade_is_detaching_twoStreams : ∃ c answers db',
    cascadeStream 7 twoStreams (Uuid.fill 8).text = .ok c ∧
      detachEach (Uuid.fill 8).text (fun id => if id = .fill 4 then .fill 2 else .fill 1)
        [(.fill 4, 5), (.fill 3, 6)] twoStreams = .ok (answers, db') ∧
      CascadeDetaches twoStreams (.fill 8) [(.fill 4, 5), (.fill 3, 6)] c answers db' := by
  have hr : Rooted twoStreams := ⟨by decide, by decide⟩
  exact (cascade_is_detaching hr).1 _ _ 7 _ _ (Uuid.castUuid_text _) (by decide) (by decide)

end FacesService
