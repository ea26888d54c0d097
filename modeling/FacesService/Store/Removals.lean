import FacesService.Store.Cascade
import FacesService.Store.Invariant

/-!
The removals, `delete_cluster`, `detach_cluster_from_stream` and `cascade_stream`,
in any order. Each has an aim, some rows and perhaps a cluster, that does not
depend on what other removals have taken away; and to reap twice is to reap
once with both aims. So what is left in the end is what no call aimed at.
-/

namespace FacesService

open Database Fallible Db

variable {K : Type}

/-! ### Reaping -/

/-- What a removal takes away: rows, and clusters if nothing is left of them. -/
structure Aim (K : Type) where
  rows : Occurrence K → Bool
  ids : List Uuid

namespace Aim

def nothing : Aim K := ⟨fun _ => false, []⟩

def cluster (id : Uuid) : Aim K := ⟨fun o => o.clusterId = id, [id]⟩

def clusterIn (id stream : Uuid) : Aim K := ⟨inClusterAndStream id stream, [id]⟩

def stream (stream : Uuid) : Aim K := ⟨inStream stream, []⟩

def both (a b : Aim K) : Aim K := ⟨fun o => a.rows o || b.rows o, a.ids ++ b.ids⟩

/-- The aim of several removals. -/
def all (aims : List (Aim K)) : Aim K := aims.foldr both nothing

theorem all_rows (aims : List (Aim K)) (o : Occurrence K) :
    (all aims).rows o = true ↔ ∃ a ∈ aims, a.rows o = true := by
  induction aims with
  | nil => simp [all, nothing]
  | cons a aims ih =>
      change (a.rows o || (all aims).rows o) = true ↔ _
      simp [ih]

theorem mem_all_ids (aims : List (Aim K)) (id : Uuid) :
    id ∈ (all aims).ids ↔ ∃ a ∈ aims, id ∈ a.ids := by
  induction aims with
  | nil => simp [all, nothing]
  | cons a aims ih =>
      change id ∈ a.ids ++ (all aims).ids ↔ _
      simp [ih]

/-- It aims at one cluster. -/
def Within (id : Uuid) (a : Aim K) : Prop :=
  (∀ o, a.rows o = true → o.clusterId = id) ∧ ∀ i ∈ a.ids, i = id

theorem cluster_within (id : Uuid) : (cluster id : Aim K).Within id :=
  ⟨fun _ h => by simpa [cluster] using h, fun _ h => by simpa [cluster] using h⟩

theorem clusterIn_within (id stream : Uuid) : (clusterIn id stream : Aim K).Within id := by
  refine ⟨fun o ho => ?_, fun _ h => by simpa [clusterIn] using h⟩
  simp only [clusterIn, inClusterAndStream, Bool.and_eq_true, decide_eq_true_eq] at ho
  exact ho.1

end Aim

/-- The rows gone, the clusters they were of and those aimed at settled. -/
def reap (now : ℕ) (a : Aim K) (db : Database K) : Database K :=
  settle now a.ids (purge now a.rows db)

variable {db : Database K}

theorem mem_settle {now : ℕ} {ids : List Uuid} {c' : Cluster K} :
    c' ∈ (settle now ids db).clusters ↔ ∃ c ∈ db.clusters, settleCluster now db ids c = some c' :=
  List.mem_filterMap

/-- What is not there need not be settled. -/
theorem settle_congr_on {ids ids' : List Uuid}
    (h : ∀ c ∈ db.clusters, c.id ∈ ids ↔ c.id ∈ ids') (now : ℕ) :
    settle now ids db = settle now ids' db := by
  unfold settle
  congr 1
  exact List.filterMap_congr fun c hc => by simp only [settleCluster, h c hc]

theorem mem_ids_of_purge {now : ℕ} {p : Occurrence K → Bool} {c' : Cluster K}
    (h : c' ∈ (purge now p db).clusters) :
    ∃ c ∈ db.clusters, c.id = c'.id ∧ c.ownerId = c'.ownerId := by
  obtain ⟨c, hc, hsettle⟩ := mem_settle.mp h
  obtain ⟨hid, howner⟩ := settleCluster_keeps hsettle
  exact ⟨c, hc, hid.symm, howner.symm⟩

theorem reap_congr {a b : Aim K} (hrows : ∀ o ∈ db.occurrences, a.rows o = b.rows o)
    (hids : ∀ c ∈ db.clusters, c.id ∈ a.ids ↔ c.id ∈ b.ids) (now : ℕ) :
    reap now a db = reap now b db := by
  rw [reap, reap, purge_congr hrows]
  apply settle_congr_on
  intro c' hc'
  obtain ⟨c, hc, hid, -⟩ := mem_ids_of_purge hc'
  rw [← hid]
  exact hids c hc

theorem reap_nothing (now : ℕ) : reap now .nothing db = db := by
  rw [reap, Aim.nothing, settle_nil, purge_none fun _ _ => rfl]

/-- Clusters may be settled before more rows go, or afterwards. -/
theorem purge_settle (now now' : ℕ) (q : Occurrence K → Bool) (ids : List Uuid) :
    (purge now' q (settle now ids db)).timeless = (settle now ids (purge now' q db)).timeless := by
  unfold purge
  have hhit : hit q (settle now ids db) = hit q db := rfl
  refine congrArg₂ Database.mk ?_ rfl
  rw [hhit]
  change (List.filterMap (settleCluster now' (db.deleteOccurrences q) (hit q db))
      (List.filterMap (settleCluster now db ids) db.clusters)).map _ =
    (List.filterMap (settleCluster now (db.deleteOccurrences q) ids)
      (List.filterMap (settleCluster now' (db.deleteOccurrences q) (hit q db)) db.clusters)).map _
  rw [List.filterMap_filterMap, List.filterMap_filterMap, List.map_filterMap, List.map_filterMap]
  apply List.filterMap_congr
  intro c _
  by_cases hq : c.id ∈ hit q db
  · -- it had rows, so the first settling only counted them
    have hpos : db.countFor c.id ≠ 0 := by
      obtain ⟨o, ho, -, hid⟩ := mem_hit.mp hq
      exact Nat.pos_iff_ne_zero.mp (List.countP_pos_iff.mpr ⟨o, ho, by simpa using hid⟩)
    by_cases hid : c.id ∈ ids <;> by_cases hzero : (db.deleteOccurrences q).countFor c.id = 0 <;>
      simp [settleCluster, hq, hid, hpos, hzero]
  · have hsame := countFor_deleteOccurrences_of_not_hit hq
    by_cases hid : c.id ∈ ids <;> by_cases hzero : db.countFor c.id = 0 <;>
      simp [settleCluster, hq, hid, hzero, hsame]

theorem settle_eq_of_timeless {db db' : Database K} (h : db.timeless = db'.timeless) (now : ℕ)
    (ids : List Uuid) :
    (settle now ids db).timeless = (settle now ids db').timeless := by
  rw [settle_timeless, settle_timeless, h]

/-- To reap twice is to reap once with both aims. -/
theorem reap_reap (now now' now'' : ℕ) (a b : Aim K) :
    (reap now' b (reap now a db)).timeless = (reap now'' (a.both b) db).timeless := by
  have hpurges : (purge now' b.rows (settle now a.ids (purge now a.rows db))).timeless =
      (settle now a.ids (purge now'' (a.both b).rows db)).timeless :=
    (purge_settle now now' b.rows a.ids).trans
      (settle_eq_of_timeless (purge_purge now now' now'' _ _ db) now _)
  calc (reap now' b (reap now a db)).timeless
      = (settle now' b.ids (settle now a.ids (purge now'' (a.both b).rows db))).timeless :=
        settle_eq_of_timeless hpurges now' b.ids
    _ = settle 0 b.ids (settle 0 a.ids (purge now'' (a.both b).rows db).timeless) := by
        rw [settle_timeless, settle_timeless]
    _ = (reap now'' (a.both b) db).timeless := by
        rw [settle_settle, reap, settle_timeless]
        rfl

theorem Rooted.settle (h : Rooted db) (now : ℕ) (ids : List Uuid) :
    Rooted (FacesService.settle now ids db) where
  ids := h.ids.sublist (settle_ids_sublist now ids db)
  owned := by
    intro o ho
    obtain ⟨c, hc, hid, howner⟩ := h.owned o ho
    have hleft : db.countFor c.id ≠ 0 :=
      Nat.pos_iff_ne_zero.mp (List.countP_pos_iff.mpr ⟨o, ho, by simpa using hid.symm⟩)
    cases hsettle : settleCluster now db ids c with
    | none => exact absurd (settleCluster_eq_none.mp hsettle).2 hleft
    | some c' =>
        obtain ⟨hid', howner'⟩ := settleCluster_keeps hsettle
        exact ⟨c', mem_settle.mpr ⟨c, hc, hsettle⟩, hid'.trans hid, howner'.trans howner⟩

theorem Rooted.reap (h : Rooted db) (now : ℕ) (a : Aim K) : Rooted (FacesService.reap now a db) :=
  (h.purge now a.rows).settle now a.ids

/-! ### What the calls aim at -/

/-- The call is one of the three. -/
def Write.Removes : Write K → Prop
  | .deleteCluster .. | .detachClusterFromStream .. | .cascadeStream .. => True
  | _ => False

/-- The cluster of the given owner that a string denotes. -/
def ownedId (db : Database K) (clusterId ownerId : String) : Option Uuid :=
  (castUuid clusterId).toOption.bind fun id =>
    (db.clusterById id).bind fun row => if row.ownerId.text = ownerId then some id else none

/-- The aim of a call; it is nothing when the call refuses or raises. -/
def Write.aim (db : Database K) : Write K → Aim K
  | .deleteCluster clusterId ownerId => (ownedId db clusterId ownerId).elim .nothing .cluster
  | .detachClusterFromStream clusterId streamId ownerId =>
      (ownedId db clusterId ownerId).elim .nothing fun id =>
        (castUuid streamId).toOption.elim .nothing (.clusterIn id)
  | .cascadeStream streamId => (castUuid streamId).toOption.elim .nothing .stream
  | _ => .nothing

theorem ownedId_eq_some {clusterId ownerId : String} {id : Uuid} :
    ownedId db clusterId ownerId = some id ↔ ∃ row, Owned db clusterId ownerId id row := by
  unfold ownedId
  cases hcast : castUuid clusterId with
  | error e =>
      constructor
      · intro h
        cases h
      · rintro ⟨row, hown⟩
        cases hcast.symm.trans hown.cast
  | ok id' =>
      change ((db.clusterById id').bind _) = some id ↔ _
      rw [Option.bind_eq_some_iff]
      constructor
      · rintro ⟨row, hrow, hif⟩
        split at hif
        · rename_i howner
          cases hif
          exact ⟨row, hcast, hrow, howner⟩
        · cases hif
      · rintro ⟨row, hown⟩
        cases hcast.symm.trans hown.cast
        exact ⟨row, hown.found, if_pos hown.owner⟩

/-- To reap in one cluster is to settle it after its rows are gone. -/
theorem reap_one {a : Aim K} {id : Uuid} (ha : a.Within id) (hid : id ∈ a.ids) (now : ℕ) :
    reap now a db = settle now [id] (db.deleteOccurrences a.rows) := by
  rw [reap, purge, settle_settle]
  apply settle_congr
  intro id'
  rw [List.mem_append, List.mem_singleton]
  constructor
  · rintro (hhit | hin)
    · obtain ⟨o, -, ho, rfl⟩ := mem_hit.mp hhit
      exact ha.1 o ho
    · exact ha.2 id' hin
  · rintro rfl
    exact .inr hid

theorem deleteCluster_reaps (id : Uuid) (now : ℕ) :
    (db.deleteOccurrences fun o => o.clusterId = id).deleteClusters (fun c => c.id = id) =
      reap now (.cluster id) db := by
  have hnone : (db.deleteOccurrences (Aim.cluster id).rows).countFor id = 0 :=
    countFor_deleteOccurrences_eq_zero.mpr fun o _ hid => by simpa [Aim.cluster] using hid
  rw [reap_one (Aim.cluster_within id) List.mem_cons_self]
  refine congrArg₂ Database.mk ?_ ?_
  · rw [clusters_deleteOccurrences, ← List.filterMap_eq_filter]
    apply List.filterMap_congr
    intro c _
    by_cases hid : c.id = id <;> simp [settleCluster, Option.guard, hid, hnone]
  · apply List.filter_eq_self.mpr
    intro o ho
    have hout := (List.mem_filter.mp ho).2
    simp only [Bool.not_eq_true', decide_eq_false_iff_not] at hout
    simp only [Bool.not_eq_true', List.any_eq_false, Bool.and_eq_true, decide_eq_true_eq, not_and]
    intro c _ hid heq
    exact hout (heq.symm.trans hid)

theorem detachClusterFromStream_reaps (hr : Rooted db) {clusterId ownerId : String} {id : Uuid}
    {row : Cluster K}
    (hown : Owned db clusterId ownerId id row) (stream : Uuid) (now : ℕ) :
    ((db.deleteOccurrences (detached id stream row.ownerId)).recount now fun c =>
        c.id = id && c.ownerId = row.ownerId).deleteClusters (emptied id row.ownerId) =
      reap now (.clusterIn id stream) db := by
  have hmine : ∀ c ∈ db.clusters, (c.id = id && c.ownerId = row.ownerId : Bool) =
      decide (c.id ∈ [id]) := by
    intro c hc
    by_cases hid : c.id = id
    · rw [hr.eq_of_id hc hown.mem.1 (hid.trans hown.mem.2.symm)]
      simp
    · simp [hid]
  have hrows : ∀ o ∈ db.occurrences, detached id stream row.ownerId o =
      inClusterAndStream id stream o := by
    intro o ho
    by_cases hid : o.clusterId = id
    · obtain ⟨c, hc, hcid, howner⟩ := hr.owned o ho
      rw [hr.eq_of_id hc hown.mem.1 (hcid.trans (hid.trans hown.mem.2.symm))] at howner
      simp [detached, inClusterAndStream, howner]
    · simp [detached, inClusterAndStream, hid]
  rw [deleteOccurrences_congr hrows, reap_one (Aim.clusterIn_within id stream) List.mem_cons_self]
  exact settle_of_recount (p := fun c => c.id = id && c.ownerId = row.ownerId) hmine fun _ _ _ =>
      rfl

/-- Without a cluster of the owner there is nothing to detach. -/
theorem ownedId_eq_none {clusterId ownerId : String} (h : ownedId db clusterId ownerId = none)
    {id : Uuid} {row : Cluster K} : ¬ Owned db clusterId ownerId id row := by
  intro hown
  cases h.symm.trans (ownedId_eq_some.mpr ⟨row, hown⟩)

variable [DecidableEq K] {pf : Platform K} {fresh : Uuid} {now : ℕ}

/-- A call that has done nothing when it answers leaves the tables as they are. -/
theorem Write.commit_of_idle {w : Write K} (h : ∀ c, w.run pf fresh now db = .ok c → c.db = db) :
    w.commit pf fresh now db = db := by
  unfold Write.commit
  split
  · exact h _ ‹_›
  · rfl

/-- **What a removal does.** -/
theorem Write.commit_reaps (hr : Rooted db) {w : Write K} (hw : w.Removes) :
    w.commit pf fresh now db = reap now (w.aim db) db := by
  cases w with
  | deleteCluster clusterId ownerId =>
      cases hid : ownedId db clusterId ownerId with
      | none =>
          rw [Write.aim, hid, Option.elim_none, reap_nothing]
          apply Write.commit_of_idle
          intro c hrun
          obtain rfl | ⟨id, row, streams, hown, -⟩ := deleteCluster_ok hrun
          · rfl
          · exact absurd hown (ownedId_eq_none hid)
      | some id =>
          obtain ⟨row, hown⟩ := ownedId_eq_some.mp hid
          obtain ⟨c, hrun, -, hdb⟩ := deleteCluster_of_owned hown
          rw [Write.aim, hid, Option.elim_some, ← deleteCluster_reaps, ← hdb]
          exact Write.commit_of_ok hrun
  | detachClusterFromStream clusterId streamId ownerId =>
      cases hid : ownedId db clusterId ownerId with
      | none =>
          rw [Write.aim, hid, Option.elim_none, reap_nothing]
          apply Write.commit_of_idle
          intro c hrun
          obtain rfl | ⟨id, row, stream, hown, -⟩ := detachClusterFromStream_ok hrun
          · rfl
          · exact absurd hown (ownedId_eq_none hid)
      | some id =>
          obtain ⟨row, hown⟩ := ownedId_eq_some.mp hid
          rw [Write.aim, hid, Option.elim_some]
          cases hstream : castUuid streamId with
          | error e =>
              rw [Except.toOption, Option.elim_none, reap_nothing]
              apply Write.commit_of_idle
              intro c hrun
              obtain rfl | ⟨id, row, stream, -, hstream', -⟩ := detachClusterFromStream_ok hrun
              · rfl
              · cases hstream.symm.trans hstream'
          | ok stream =>
              obtain ⟨m, hrun, -⟩ := detach_of_owned hown hstream now
              rw [Except.toOption, Option.elim_some, ← detachClusterFromStream_reaps hr hown]
              exact Write.commit_of_ok (w := .detachClusterFromStream clusterId streamId ownerId)
                  hrun
  | cascadeStream streamId =>
      cases hstream : castUuid streamId with
      | error e =>
          rw [Write.aim, hstream, Except.toOption, Option.elim_none, reap_nothing]
          apply Write.commit_of_idle
          intro c hrun
          obtain ⟨stream, hstream', -⟩ := cascadeStream_ok hrun
          cases hstream.symm.trans hstream'
      | ok stream =>
          obtain ⟨c, hrun, hdb, -⟩ := cascadeStream_purges hr.ids hstream now
          rw [Write.aim, hstream, Except.toOption, Option.elim_some, reap, Aim.stream,
              settle_nil, ← hdb]
          exact Write.commit_of_ok hrun
  | _ => cases hw

/-! ### Any order -/

/-- The clusters of `db` are some of those of `db₀`. -/
def SomeOf (db₀ db : Database K) : Prop :=
  ∀ c ∈ db.clusters, ∃ c₀ ∈ db₀.clusters, c₀.id = c.id ∧ c₀.ownerId = c.ownerId

omit [DecidableEq K] in
theorem SomeOf.refl (db : Database K) : SomeOf db db := fun c hc => ⟨c, hc, rfl, rfl⟩

omit [DecidableEq K] in
theorem SomeOf.reap {db₀ : Database K} (h : SomeOf db₀ db) (now : ℕ) (a : Aim K) :
    SomeOf db₀ (reap now a db) := by
  intro c' hc'
  obtain ⟨c, hc, hsettle⟩ := mem_settle.mp hc'
  obtain ⟨hid, howner⟩ := settleCluster_keeps hsettle
  obtain ⟨c₁, hc₁, hid₁, howner₁⟩ := mem_ids_of_purge hc
  obtain ⟨c₀, hc₀, hid₀, howner₀⟩ := h c₁ hc₁
  exact ⟨c₀, hc₀, hid₀.trans (hid₁.trans hid.symm), howner₀.trans (howner₁.trans howner.symm)⟩

omit [DecidableEq K] in
/-- What was the owner's and is still there is the owner's. -/
theorem ownedId_later {db₀ : Database K} (hr₀ : Rooted db₀) (hsome : SomeOf db₀ db)
    {clusterId : String} {id : Uuid}
    (hcast : castUuid clusterId = .ok id) {row : Cluster K} (hrow : db.clusterById id = some row)
    (ownerId : String) : ownedId db clusterId ownerId = ownedId db₀ clusterId ownerId := by
  obtain ⟨hmem, hid⟩ := mem_of_clusterById hrow
  obtain ⟨row₀, hmem₀, hid₀, howner₀⟩ := hsome row hmem
  have hrow₀ : db₀.clusterById id = some row₀ := by
    cases hfind : db₀.clusterById id with
    | none => exact absurd (hid₀.trans hid) (clusterById_eq_none.mp hfind row₀ hmem₀)
    | some row' =>
        obtain ⟨hmem', hid'⟩ := mem_of_clusterById hfind
        rw [hr₀.eq_of_id hmem' hmem₀ (hid'.trans (hid₀.trans hid).symm)]
  unfold ownedId
  rw [hcast, Except.toOption, Option.bind_some, Option.bind_some, hrow, hrow₀, Option.bind_some,
    Option.bind_some, howner₀]

omit [DecidableEq K] in
/-- Nothing is left to aim at in a cluster that is gone. -/
theorem reap_gone (hr : Rooted db) {id : Uuid} (hgone : db.clusterById id = none) {a : Aim K}
    (ha : a.Within id) (now : ℕ) : reap now a db = db := by
  have habsent := clusterById_eq_none.mp hgone
  refine (reap_congr (b := .nothing) (fun o ho => ?_) (fun c hc => ?_) now).trans (reap_nothing now)
  · obtain ⟨c, hc, hid, -⟩ := hr.owned o ho
    apply Bool.eq_false_iff.mpr
    exact fun haim => habsent c hc (hid.trans (ha.1 o haim))
  · simp only [Aim.nothing, List.not_mem_nil, iff_false]
    exact fun hin => habsent c hc (ha.2 _ hin)

omit [DecidableEq K] in
theorem reap_owned_later {db₀ : Database K} (hr₀ : Rooted db₀) (hr : Rooted db)
    (hsome : SomeOf db₀ db)
    (clusterId ownerId : String) {f : Uuid → Aim K} (hf : ∀ id, (f id).Within id) (now : ℕ) :
    reap now ((ownedId db clusterId ownerId).elim .nothing f) db =
      reap now ((ownedId db₀ clusterId ownerId).elim .nothing f) db := by
  cases hcast : castUuid clusterId with
  | error e =>
      have hnone : ∀ db : Database K, ownedId db clusterId ownerId = none := fun db => by
        rw [ownedId, hcast, Except.toOption, Option.bind_none]
      rw [hnone, hnone]
  | ok id =>
      cases hrow : db.clusterById id with
      | none =>
          have hnone : ownedId db clusterId ownerId = none := by
            rw [ownedId, hcast, Except.toOption, Option.bind_some, hrow, Option.bind_none]
          rw [hnone, Option.elim_none, reap_nothing]
          cases hid : ownedId db₀ clusterId ownerId with
          | none => rw [Option.elim_none, reap_nothing]
          | some id' =>
              obtain ⟨row, hown⟩ := ownedId_eq_some.mp hid
              cases hcast.symm.trans hown.cast
              rw [Option.elim_some, reap_gone hr hrow (hf id)]
      | some row => rw [ownedId_later hr₀ hsome hcast hrow]

omit [DecidableEq K] in
/-- Other removals do not change what a removal aims at. -/
theorem Write.aim_later {db₀ : Database K} (hr₀ : Rooted db₀) (hr : Rooted db)
    (hsome : SomeOf db₀ db)
    (w : Write K) (now : ℕ) : reap now (w.aim db) db = reap now (w.aim db₀) db := by
  cases w with
  | deleteCluster clusterId ownerId =>
      exact reap_owned_later hr₀ hr hsome clusterId ownerId (fun id => Aim.cluster_within id) now
  | detachClusterFromStream clusterId streamId ownerId =>
      apply reap_owned_later hr₀ hr hsome clusterId ownerId
      intro id
      cases (castUuid streamId).toOption with
      | none => exact ⟨fun _ h => absurd h Bool.false_ne_true, fun _ h => absurd h List.not_mem_nil⟩
      | some stream => exact Aim.clusterIn_within id stream
  | _ => rfl

/-- Calls one after the other, each with its own time. -/
def runEach (pf : Platform K) (fresh : Uuid) (calls : List (Write K × ℕ))
    (db : Database K) : Database K :=
  calls.foldl (fun db call => call.1.commit pf fresh call.2 db) db

/-- What all the calls aim at, taken together. -/
def aims (db : Database K) (calls : List (Write K × ℕ)) : Aim K :=
  .all (calls.map fun call => call.1.aim db)

theorem runEach_reaps {db₀ : Database K} (hr₀ : Rooted db₀) {calls : List (Write K × ℕ)}
    (hcalls : ∀ call ∈ calls, call.1.Removes) (hr : Rooted db) (hsome : SomeOf db₀ db) :
    (runEach pf fresh calls db).timeless = (reap 0 (aims db₀ calls) db).timeless := by
  induction calls generalizing db with
  | nil => exact congrArg timeless (reap_nothing 0).symm
  | cons call calls ih =>
      obtain ⟨hcall, hcalls⟩ := List.forall_mem_cons.mp hcalls
      have hstep : call.1.commit pf fresh call.2 db = reap call.2 (call.1.aim db₀) db :=
        (Write.commit_reaps hr hcall).trans (Write.aim_later hr₀ hr hsome call.1 call.2)
      change (runEach pf fresh calls (call.1.commit pf fresh call.2 db)).timeless = _
      rw [hstep, ih hcalls (hr.reap _ _) (hsome.reap _ _), reap_reap call.2 0 0]
      rfl

/-- What is left when the calls have run, in terms of the tables before any of them. -/
structure Remains (db : Database K) (ws : List (Write K)) (db' : Database K) : Prop where
  rows : ∀ o, o ∈ db'.occurrences ↔ o ∈ db.occurrences ∧ ∀ w ∈ ws, (w.aim db).rows o = false
  /-- A cluster goes if it has no row left and some call aimed at it or at a row of it. -/
  gone : ∀ c ∈ db.clusters, (∀ c' ∈ db'.clusters, c'.id ≠ c.id) ↔
    (∀ o ∈ db'.occurrences, o.clusterId ≠ c.id) ∧
      ∃ w ∈ ws, c.id ∈ (w.aim db).ids ∨ ∃ o ∈ db.occurrences, o.clusterId = c.id ∧
          (w.aim db).rows o = true
  kept : ∀ c' ∈ db'.clusters, ∃ c ∈ db.clusters,
    c' = { c with sampleCount := db'.countFor c.id, updatedAt := c'.updatedAt }

omit [DecidableEq K] in
theorem reap_eq_settle (now : ℕ) (a : Aim K) :
    reap now a db = settle now (hit a.rows db ++ a.ids) (db.deleteOccurrences a.rows) := by
  rw [reap, purge, settle_settle]

omit [DecidableEq K] in
/-- Who goes. -/
theorem reap_gone_iff {a : Aim K} {c : Cluster K} (hc : c ∈ db.clusters) :
    (∀ c' ∈ (reap now a db).clusters, c'.id ≠ c.id) ↔
      (∀ o ∈ db.occurrences, o.clusterId = c.id → a.rows o = true) ∧
        (c.id ∈ a.ids ∨ ∃ o ∈ db.occurrences, o.clusterId = c.id ∧ a.rows o = true) := by
  have hgone : (∀ c' ∈ (reap now a db).clusters, c'.id ≠ c.id) ↔
      settleCluster now (db.deleteOccurrences a.rows) (hit a.rows db ++ a.ids) c = none := by
    rw [reap_eq_settle]
    constructor
    · intro habsent
      cases hsettle : settleCluster now (db.deleteOccurrences a.rows)
          (hit a.rows db ++ a.ids) c with
      | none => rfl
      | some c' =>
          exact absurd (settleCluster_keeps hsettle).1
              (habsent c' (mem_settle.mpr ⟨c, hc, hsettle⟩))
    · intro hnone c' hc' hid
      obtain ⟨c₁, -, hsettle⟩ := mem_settle.mp hc'
      -- whether a cluster goes depends on its id alone
      have hid₁ : c₁.id = c.id := (settleCluster_keeps hsettle).1.symm.trans hid
      have hboth := settleCluster_eq_none.mp hnone
      rw [← hid₁] at hboth
      rw [settleCluster_eq_none.mpr hboth] at hsettle
      cases hsettle
  rw [hgone, settleCluster_eq_none, countFor_deleteOccurrences_eq_zero, List.mem_append, mem_hit]
  constructor
  · rintro ⟨hor, hall⟩
    refine ⟨hall, hor.symm.imp_right ?_⟩
    rintro ⟨o, ho, hrows, hid⟩
    exact ⟨o, ho, hid, hrows⟩
  · rintro ⟨hall, hor⟩
    refine ⟨hor.symm.imp_left ?_, hall⟩
    rintro ⟨o, ho, hid, hrows⟩
    exact ⟨o, ho, hrows, hid⟩

theorem Write.Removes.invariant (h : StoreInvariant db) {w : Write K} (hw : w.Removes) :
    StoreInvariant (w.commit pf fresh now db) := by
  have hadm : w.Admitted pf now db ∧ w.FlagAgrees := by cases w <;> trivial
  unfold Write.commit
  split
  · exact h.run hadm.1 hadm.2 ‹_›
  · exact h

theorem runEach_invariant {calls : List (Write K × ℕ)} (hcalls : ∀ call ∈ calls, call.1.Removes)
    (h : StoreInvariant db) : StoreInvariant (runEach pf fresh calls db) := by
  induction calls generalizing db with
  | nil => exact h
  | cons call calls ih =>
      obtain ⟨hcall, hcalls⟩ := List.forall_mem_cons.mp hcalls
      exact ih hcalls (hcall.invariant h)

omit [DecidableEq K] in
/-- Timeless tables have the same clusters, but for `updated_at`. -/
theorem mem_of_timeless {db db' : Database K} (h : db.timeless = db'.timeless) {c : Cluster K}
    (hc : c ∈ db.clusters) :
    ∃ c' ∈ db'.clusters, c'.id = c.id ∧ c = { c' with updatedAt := c.updatedAt } := by
  have hmem : { c with updatedAt := 0 } ∈ db'.timeless.clusters := by
    rw [← h]
    exact List.mem_map_of_mem hc
  obtain ⟨c', hc', heq⟩ := List.mem_map.mp hmem
  refine ⟨c', hc', congrArg (·.id) heq, ?_⟩
  cases c
  cases c'
  simp only [Cluster.mk.injEq] at heq ⊢
  tauto

theorem runEach_remains (h : StoreInvariant db) {calls : List (Write K × ℕ)}
    (hcalls : ∀ call ∈ calls, call.1.Removes) :
    Remains db (calls.map (·.1)) (runEach pf fresh calls db) := by
  have hr : Rooted db := ⟨h.ids, h.owned⟩
  have htimeless : (runEach pf fresh calls db).timeless = _ := runEach_reaps hr hcalls hr (.refl db)
  have hoccurrences : (runEach pf fresh calls db).occurrences =
      db.occurrences.filter fun o => !(aims db calls).rows o := congrArg (·.occurrences) htimeless
  have haims : ∀ o, (aims db calls).rows o = true ↔
      ∃ w ∈ calls.map (·.1), (w.aim db).rows o = true := by
    intro o
    simp [aims, Aim.all_rows]
  have hids : ∀ id, id ∈ (aims db calls).ids ↔ ∃ w ∈ calls.map (·.1), id ∈ (w.aim db).ids := by
    intro id
    simp [aims, Aim.mem_all_ids]
  refine ⟨fun o => ?_, fun c hc => ?_, fun c' hc' => ?_⟩
  · rw [hoccurrences, List.mem_filter, Bool.not_eq_true', ← Bool.not_eq_true, haims]
    simp
  · have hsame : (∀ c' ∈ (runEach pf fresh calls db).clusters, c'.id ≠ c.id) ↔
        ∀ c' ∈ (reap 0 (aims db calls) db).clusters, c'.id ≠ c.id := by
      constructor
      · intro habsent c' hc' hid
        obtain ⟨c₁, hc₁, hid₁, -⟩ := mem_of_timeless htimeless.symm hc'
        exact habsent c₁ hc₁ (hid₁.trans hid)
      · intro habsent c' hc' hid
        obtain ⟨c₁, hc₁, hid₁, -⟩ := mem_of_timeless htimeless hc'
        exact habsent c₁ hc₁ (hid₁.trans hid)
    have hleft : (∀ o ∈ db.occurrences, o.clusterId = c.id → (aims db calls).rows o = true) ↔
        ∀ o ∈ (runEach pf fresh calls db).occurrences, o.clusterId ≠ c.id := by
      simp only [hoccurrences, List.mem_filter, Bool.not_eq_true', ← Bool.not_eq_true]
      exact ⟨fun h o ho hid => ho.2 (h o ho.1 hid),
        fun h o ho hid => by_contra fun hrow => h o ⟨ho, hrow⟩ hid⟩
    rw [hsame, reap_gone_iff hc, hleft, hids]
    apply and_congr_right
    intro _
    constructor
    · rintro (⟨w, hw, hid⟩ | ⟨o, ho, hid, hrows⟩)
      · exact ⟨w, hw, .inl hid⟩
      · obtain ⟨w, hw, hrow⟩ := (haims o).mp hrows
        exact ⟨w, hw, .inr ⟨o, ho, hid, hrow⟩⟩
    · rintro ⟨w, hw, hid | ⟨o, ho, hid, hrow⟩⟩
      · exact .inl ⟨w, hw, hid⟩
      · exact .inr ⟨o, ho, hid, (haims o).mpr ⟨w, hw, hrow⟩⟩
  · obtain ⟨c₁, hc₁, hid₁, heq⟩ := mem_of_timeless htimeless hc'
    rw [reap_eq_settle] at hc₁
    obtain ⟨c, hc, hsettle⟩ := mem_settle.mp hc₁
    have hid : c'.id = c.id := hid₁.symm.trans (settleCluster_keeps hsettle).1
    have hcount : c'.sampleCount = (runEach pf fresh calls db).countFor c.id := by
      rw [← hid]
      exact (runEach_invariant hcalls h).counts c' hc' not_false
    refine ⟨c, hc, ?_⟩
    rw [← hcount, heq, settleCluster_some hsettle]

/-- **Removals may come in any order**, and some of them more than once: the
tables left by any two lists of the same calls differ in `updated_at` only, and
what is left is what none of the calls aimed at before the first of them. -/
theorem removals_in_any_order (h : StoreInvariant db) {calls calls' : List (Write K × ℕ)}
    (hcalls : ∀ call ∈ calls, call.1.Removes)
    (hsame : ∀ w, w ∈ calls.map (·.1) ↔ w ∈ calls'.map (·.1)) :
    (runEach pf fresh calls db).timeless = (runEach pf fresh calls' db).timeless ∧
      Remains db (calls.map (·.1)) (runEach pf fresh calls db) := by
  refine ⟨?_, runEach_remains h hcalls⟩
  have hr : Rooted db := ⟨h.ids, h.owned⟩
  have hcalls' : ∀ call ∈ calls', call.1.Removes := by
    intro call hcall
    obtain ⟨call₁, hcall₁, heq⟩ := List.mem_map.mp ((hsame call.1).mpr (List.mem_map_of_mem hcall))
    exact heq ▸ hcalls call₁ hcall₁
  rw [runEach_reaps hr hcalls hr (.refl db), runEach_reaps hr hcalls' hr (.refl db)]
  -- both lists aim at the same
  have hmem : ∀ a, a ∈ calls.map (fun call => call.1.aim db) ↔
      a ∈ calls'.map fun call => call.1.aim db := by
    intro a
    have himage : ∀ calls : List (Write K × ℕ), a ∈ calls.map (fun call => call.1.aim db) ↔
        ∃ w ∈ calls.map (·.1), w.aim db = a := fun calls => by simp
    simp only [himage, hsame]
  congr 1
  apply reap_congr
  · intro o _
    apply Bool.eq_iff_iff.mpr
    simp only [aims, Aim.all_rows, hmem]
  · intro c _
    simp only [aims, Aim.mem_all_ids, hmem]

theorem twoStreams_invariant : StoreInvariant twoStreams where
  ids := by decide
  owned := by decide
  keys := by decide
  named := by
    simp only [twoStreams, List.mem_cons, List.not_mem_nil, or_false]
    rintro c (rfl | rfl | rfl) <;> exact ⟨rfl, fun n hn => nomatch hn⟩
  counts := by
    simp only [twoStreams, CountsOutside, List.mem_cons, List.not_mem_nil, or_false]
    rintro c (rfl | rfl | rfl) _ <;> rfl

/-- A video cascaded and a cluster detached from the other one; or the cluster
first, the video twice, and a deletion by a stranger, which does nothing. -/
theorem removals_in_any_order_twoStreams :
    let cascade : Write ℚ := .cascadeStream (Uuid.fill 8).text
    let detach : Write ℚ := .detachClusterFromStream (Uuid.fill 4).text (Uuid.fill 9).text
        (Uuid.fill 2).text
    let delete : Write ℚ := .deleteCluster (Uuid.fill 5).text (Uuid.fill 2).text
    (runEach Platform.exact (.fill 6) [(cascade, 1), (detach, 2), (delete, 3)]
          twoStreams).timeless =
        (runEach Platform.exact (.fill 6) [(detach, 1), (cascade, 2), (delete, 3), (cascade, 4)]
          twoStreams).timeless ∧
      Remains twoStreams [cascade, detach, delete]
        (runEach Platform.exact (.fill 6) [(cascade, 1), (detach, 2), (delete, 3)] twoStreams) := by
  refine removals_in_any_order twoStreams_invariant (fun call hcall => ?_) fun w => ?_
  · simp only [List.mem_cons, List.not_mem_nil, or_false] at hcall
    rcases hcall with rfl | rfl | rfl <;> trivial
  · simp only [List.map_cons, List.map_nil, List.mem_cons, List.not_mem_nil, or_false]
    tauto

end FacesService
