import FacesService.Store.Private
import FacesService.Store.Specs
import FacesService.Model.Service

/-!
The store invariant: every state the nine write functions of `db.py` can
reach from the empty database keeps its counts, owners and names right.

The proof is one lemma for each write function and one induction over runs.
-/

namespace FacesService

open Database Fallible Db

variable {K : Type} [DecidableEq K]

structure StoreInvariant (db : Database K) : Prop extends db.Linked where
  counts : db.CountsOutside fun _ => False

namespace Write

/-- The state after the call. -/
def commit (pf : Platform K) (fresh : Uuid) (now : ℕ) (db : Database K) (w : Write K) :
    Database K :=
  match w.run pf fresh now db with
  | .ok c => c.db
  | .error _ => db

theorem commit_of_ok {pf : Platform K} {fresh : Uuid} {now : ℕ} {db : Database K} {w : Write K}
    {c : Commit K w.Answer} (h : w.run pf fresh now db = .ok c) : w.commit pf fresh now db = c.db := by
  rw [commit, h]

theorem commit_of_error {pf : Platform K} {fresh : Uuid} {now : ℕ} {db : Database K} {w : Write K}
    {e : PyError} (h : w.run pf fresh now db = .error e) : w.commit pf fresh now db = db := by
  rw [commit, h]

/-- Every item of an append names a cluster of the owner it is written for, in
whatever spelling. -/
def ItemsOwned (db : Database K) (ownerId : String) (items : List (Item K)) : Prop :=
  ∀ it ∈ items, ∃ id row, castUuid it.clusterId = .ok id ∧ db.clusterById id = some row ∧
    castUuid ownerId = .ok row.ownerId

omit [DecidableEq K] in
theorem ItemsOwned.onlyMine {db : Database K} {ownerId : String} {items : List (Item K)}
    (h : ItemsOwned db ownerId items) (hl : db.Linked) :
    ∀ it ∈ items, ∀ id, castUuid it.clusterId = .ok id → db.OnlyMine ownerId id := by
  intro it hit id hid
  obtain ⟨id', row, hid', hrow, howner⟩ := h it hit
  cases hid.symm.trans hid'
  exact hl.onlyMine_of_cast hrow howner

/-- The calls the service makes: a new cluster has no name, and an append is
for clusters of its owner, unless it fails. -/
def Admitted (pf : Platform K) (now : ℕ) (db : Database K) : Write K → Prop
  | upsertCluster _ name _ _ => name = none
  | appendStreamOccurrences ownerId streamId items =>
      (∃ e, Db.appendStreamOccurrences pf now db ownerId streamId items = .error e) ∨
        ItemsOwned db ownerId items
  | _ => True

/-- Both callers of `upsert_cluster` pass `None, False`. -/
def FlagAgrees : Write K → Prop
  | upsertCluster _ name isNamed _ => isNamed = name.isSome
  | _ => True

end Write

/-- The states some sequence of calls allowed by `ok` leads to. -/
inductive Reachable (pf : Platform K) (ok : ℕ → Database K → Write K → Prop) : Database K → Prop
  | empty : Reachable pf ok ⟨[], []⟩
  | step {db : Database K} (h : Reachable pf ok db) (fresh : Uuid) (now : ℕ) (w : Write K)
      (hw : ok now db w) : Reachable pf ok (w.commit pf fresh now db)

theorem Reachable.mono {pf : Platform K} {ok ok' : ℕ → Database K → Write K → Prop}
    (hok : ∀ now db w, ok now db w → ok' now db w) {db : Database K} (h : Reachable pf ok db) :
    Reachable pf ok' db := by
  induction h with
  | empty => exact .empty
  | step _ fresh now w hw ih => exact .step ih fresh now w (hok _ _ _ hw)

/-- The states of the service. -/
abbrev Reached (pf : Platform K) : Database K → Prop :=
  Reachable pf fun now db w => w.Admitted pf now db ∧ w.FlagAgrees

variable {pf : Platform K} {now : ℕ} {db : Database K}

namespace StoreInvariant

omit [DecidableEq K] in
theorem updateClusters (h : StoreInvariant db) {p : Cluster K → Bool} {f : Cluster K → Cluster K}
    (hid : ∀ c, (f c).id = c.id) (howner : ∀ c, (f c).ownerId = c.ownerId)
    (hcount : ∀ c, (f c).sampleCount = c.sampleCount)
    (hname : ∀ c ∈ db.clusters, (f c).WellNamed) : StoreInvariant (db.updateClusters p f) where
  toLinked := h.toLinked.updateClusters hid howner hname
  counts := h.counts.updateClusters hid hcount

omit [DecidableEq K] in
theorem renameCluster {clusterId ownerId : String} {name : Option String}
    {c : Commit K (Option (String × String))} (h : StoreInvariant db)
    (hc : Db.renameCluster pf now db clusterId ownerId name = .ok c) : StoreInvariant c.db := by
  rcases renameCluster_ok hc with ⟨hdb, -⟩ | ⟨id, row, -, rfl⟩
  · exact hdb ▸ h
  · exact h.updateClusters (fun _ => rfl) (fun _ => rfl) (fun _ => rfl)
      fun _ _ => ⟨rfl, fun n hn => storedName_trimmed hn⟩

omit [DecidableEq K] in
theorem upsertCluster {fresh : Uuid} {ownerId : String} {centroid : List K} {c : Commit K Uuid}
    (h : StoreInvariant db)
    (hc : Db.upsertCluster pf fresh now db ownerId none false centroid = .ok c) :
    StoreInvariant c.db := by
  obtain ⟨owner, -, -, -, hins⟩ := upsertCluster_ok hc
  exact ⟨h.toLinked.insertCluster ⟨rfl, by simp⟩ hins, h.counts.insertCluster h.toLinked rfl hins⟩

omit [DecidableEq K] in
theorem updateClusterCentroid {clusterId ownerId : String} {centroid : List K} {c : Commit K Unit}
    (h : StoreInvariant db)
    (hc : Db.updateClusterCentroid pf now db clusterId ownerId centroid = .ok c) :
    StoreInvariant c.db := by
  obtain ⟨id, owner, -, -, rfl⟩ := updateClusterCentroid_ok hc
  exact h.updateClusters (fun _ => rfl) (fun _ => rfl) (fun _ => rfl) fun c hc => h.named c hc

omit [DecidableEq K] in
theorem setClusterCrop {clusterId ownerId : String} {cropObject : Option String} {c : Commit K Unit}
    (h : StoreInvariant db) (hc : Db.setClusterCrop now db clusterId ownerId cropObject = .ok c) :
    StoreInvariant c.db := by
  obtain ⟨id, owner, -, -, rfl⟩ := setClusterCrop_ok hc
  exact h.updateClusters (fun _ => rfl) (fun _ => rfl) (fun _ => rfl) fun c hc => h.named c hc

omit [DecidableEq K] in
/-- Emptying a cluster and then deleting it leaves no count to mend. -/
theorem deleteCluster {clusterId ownerId : String} {c : Commit K (Option DeletedCluster)}
    (h : StoreInvariant db) (hc : Db.deleteCluster db clusterId ownerId = .ok c) :
    StoreInvariant c.db := by
  rcases deleteCluster_ok hc with rfl | ⟨id, row, streams, -, rfl⟩
  · exact h
  · have hl := h.toLinked.deleteOccurrences fun o => o.clusterId = id
    have hcounts : (db.deleteOccurrences fun o => o.clusterId = id).CountsOutside (· = id) := by
      refine CountsOutside.deleteOccurrences ?_ fun o _ ho => by simpa using ho
      exact fun c hc _ => h.counts c hc not_false
    exact ⟨hl.deleteClusters _, hcounts.deleteClusters hl fun c _ hc => .inr (by simpa using hc)⟩

/-- The insert loop: every row goes to a cluster of `s`, whose owner is the
one written into the row. -/
theorem insertItems_ok {ownerId streamId : String} {items : List (Item K)} {n m : ℕ}
    {db' : Database K} {s : Uuid → Prop} {owner : Uuid} (howner : castUuid ownerId = .ok owner)
    (hitems : ∀ it ∈ items, ∀ id, castUuid it.clusterId = .ok id →
      s id ∧ ∀ c ∈ db.clusters, c.id = id → c.ownerId = owner)
    (hl : db.Linked) (hcounts : db.CountsOutside s)
    (h : insertItems pf now ownerId streamId items n db = .ok (m, db')) :
    db'.Linked ∧ db'.CountsOutside s := by
  induction items generalizing n db with
  | nil =>
      cases h
      exact ⟨hl, hcounts⟩
  | cons it items ih =>
      obtain ⟨owner', stream, id, k, db₁, howner', -, hid, hins, hrest⟩ := insertItems_cons h
      rw [howner] at howner'
      cases howner'
      have hcl := (insertOccurrenceIfNew_keeps hins).1
      obtain ⟨hs, hown⟩ := hitems it (by simp) id hid
      have hitems₁ : ∀ it ∈ items, ∀ id, castUuid it.clusterId = .ok id →
          s id ∧ ∀ c ∈ db₁.clusters, c.id = id → c.ownerId = owner := by
        rw [hcl]
        exact fun it hit => hitems it (by simp [hit])
      rcases insertOccurrenceIfNew_eq_ok hins with ⟨-, rfl, -⟩ | ⟨-, hins⟩
      · exact ih hitems₁ hl hcounts hrest
      · exact ih hitems₁ (hl.insertOccurrence hown hins) (hcounts.insertOccurrence hs hins) hrest

/-- The recount of an append covers what its loop wrote because the owners
agree: a cluster of another owner would keep a stale count. -/
theorem append_of_onlyMine {ownerId streamId : String} {items : List (Item K)}
    {c : Commit K ℕ} (h : StoreInvariant db)
    (hitems : ∀ it ∈ items, ∀ id, castUuid it.clusterId = .ok id → db.OnlyMine ownerId id)
    (hc : Db.appendStreamOccurrences pf now db ownerId streamId items = .ok c) :
    StoreInvariant c.db := by
  obtain ⟨db₁, owner, stream, hins, howner, hstream, -, hdb⟩ := appendStreamOccurrences_ok hc
  rw [hdb]
  obtain ⟨hl₁, hcounts₁⟩ := insertItems_ok
    (s := fun id => ∃ it ∈ items, castUuid it.clusterId = .ok id) howner
    (fun it hit id hid => ⟨⟨it, hit, hid⟩, (hitems it hit id hid).owner_eq howner⟩) h.toLinked
    (fun c hc _ => h.counts c hc not_false) hins
  refine ⟨hl₁.recount _ _, hcounts₁.recount fun c hc hs => .inr ?_⟩
  obtain ⟨it, hit, hid⟩ := hs
  rw [(insertItems_keeps hins).1] at hc
  obtain ⟨id, hid', o, ho, hos, hoc, -⟩ := insertItems_row hstream hins it hit
  rw [hid] at hid'
  cases hid'
  simp only [Bool.and_eq_true, decide_eq_true_eq, List.any_eq_true]
  exact ⟨(hitems it hit _ hid).owner_eq howner c hc rfl, o, ho, hos, hoc⟩

theorem appendStreamOccurrences {ownerId streamId : String} {items : List (Item K)}
    {c : Commit K ℕ} (h : StoreInvariant db) (hitems : Write.ItemsOwned db ownerId items)
    (hc : Db.appendStreamOccurrences pf now db ownerId streamId items = .ok c) :
    StoreInvariant c.db :=
  h.append_of_onlyMine (hitems.onlyMine h.toLinked) hc

omit [DecidableEq K] in
theorem detachClusterFromStream {clusterId streamId ownerId : String}
    {c : Commit K (Option DetachSummary)} (h : StoreInvariant db)
    (hc : Db.detachClusterFromStream now db clusterId streamId ownerId = .ok c) :
    StoreInvariant c.db := by
  rcases detachClusterFromStream_ok hc with rfl | ⟨id, row, stream, hown, -, -, -, hdb⟩
  · exact h
  · rw [hdb]
    have hl := h.toLinked.deleteOccurrences (detached id stream row.ownerId)
    have hcounts : (db.deleteOccurrences (detached id stream row.ownerId)).CountsOutside (· = id) := by
      refine CountsOutside.deleteOccurrences ?_ fun o _ ho => ?_
      · exact fun c hc _ => h.counts c hc not_false
      · simp only [detached, Bool.and_eq_true, decide_eq_true_eq] at ho
        exact ho.1.1
    have hl' := hl.recount now fun c => c.id = id && c.ownerId = row.ownerId
    refine ⟨hl'.deleteClusters _, CountsOutside.deleteClusters (s := fun _ => False) hl' ?_
      fun _ _ hf => hf.elim⟩
    refine hcounts.recount fun c hc hcid => .inr ?_
    rw [h.toLinked.eq_of_id hc hown.mem.1 (hcid.trans hown.mem.2.symm)]
    simp [hown.mem.2]

/-- What the merge keeps at every point: only the target's count is open, and
the target, as long as it exists, belongs to the owner. -/
structure Merging (owner target : Uuid) (db : Database K) : Prop extends db.Linked where
  counts : db.CountsOutside (· = target)
  owner : ∀ c ∈ db.clusters, c.id = target → c.ownerId = owner

theorem Merging.moveRow {owner target : Uuid} {st st' : MergeState K} {r : Occurrence K}
    (h : Merging owner target st.db) (hst : Db.moveRow pf now owner target st r = .ok st') :
    Merging owner target st'.db := by
  obtain ⟨t, hins⟩ := moveRow_ok hst
  have hcl : st'.db.clusters = st.db.clusters := by
    obtain ⟨-, -, hdb⟩ := insertOccurrence_eq_ok hins
    rw [hdb]
  exact ⟨h.toLinked.insertOccurrence h.owner hins, h.counts.insertOccurrence rfl hins,
    hcl ▸ h.owner⟩

/-- The rows of a source are copied, so deleting them unsettles the source
only, and the source goes with its rows. -/
theorem Merging.mergeSource {owner target : Uuid} {st st' : MergeState K} {cid : String}
    (h : Merging owner target st.db) (hst : Db.mergeSource pf now owner target st cid = .ok st') :
    Merging owner target st'.db := by
  obtain ⟨id, st₁, -, hrows, rfl⟩ := mergeSource_ok hst
  have h₁ : Merging owner target st₁.db :=
    foldlM_ok (fun _ st => Merging owner target st.db)
      (fun _ _ _ _ hst hmove => hst.moveRow hmove) h hrows
  have hl := h₁.toLinked.deleteOccurrences fun o => o.clusterId = id
  refine ⟨hl.deleteClusters _, ?_, fun c hc => h₁.owner c (mem_deleteClusters.mp hc).1⟩
  refine CountsOutside.deleteClusters (s := fun x => x = target ∨ x = id) hl ?_ fun c _ hs => ?_
  · refine CountsOutside.deleteOccurrences ?_ fun o _ ho => .inr (by simpa using ho)
    exact fun c hc hs => h₁.counts c hc fun hid => hs (.inl hid)
  · simpa using hs

theorem mergeClusters {ownerId targetId : String} {sourceIds : List String}
    {c : Commit K (Option Merged)} (h : StoreInvariant db)
    (hc : Db.mergeClusters pf now db ownerId targetId sourceIds = .ok c) : StoreInvariant c.db := by
  rcases mergeClusters_ok hc with rfl | ⟨target, row, affected, st, hown, -, hst, rfl⟩
  · exact h
  · have hstart : Merging row.ownerId target db := by
      refine ⟨h.toLinked, fun c hc _ => h.counts c hc not_false, fun c hc hid => ?_⟩
      rw [h.toLinked.eq_of_id hc hown.mem.1 (hid.trans hown.mem.2.symm)]
    have hend : Merging row.ownerId target st.db :=
      foldlM_ok (fun _ st => Merging row.ownerId target st.db)
        (fun _ _ _ _ hst hmerge => hst.mergeSource hmerge) hstart hst
    exact ⟨hend.toLinked.recount _ _, hend.counts.recount fun c _ hs => .inr (by simpa using hs)⟩

omit [DecidableEq K] in
/-- One round of the cascade settles the count of its cluster. -/
theorem cascadeCluster {acc : CascadeResult × List String × Database K} {cid : Uuid}
    {rest : List Uuid} (hl : acc.2.2.Linked) (hcounts : acc.2.2.CountsOutside (· ∈ cid :: rest)) :
    (Db.cascadeCluster now acc cid).2.2.Linked ∧
      (Db.cascadeCluster now acc cid).2.2.CountsOutside (· ∈ rest) := by
  have hl' := hl.recount now fun c => c.id = cid
  refine ⟨hl'.deleteClusters _, CountsOutside.deleteClusters (s := (· ∈ rest)) hl' ?_
    fun _ _ hs => .inl hs⟩
  refine hcounts.recount fun c _ hs => ?_
  rcases List.mem_cons.mp hs with hid | hs
  · exact .inr (by simpa using hid)
  · exact .inl hs

omit [DecidableEq K] in
theorem cascadeClusters {ids : List Uuid} {acc : CascadeResult × List String × Database K}
    (hl : acc.2.2.Linked) (hcounts : acc.2.2.CountsOutside (· ∈ ids)) :
    StoreInvariant (ids.foldl (Db.cascadeCluster now) acc).2.2 := by
  induction ids generalizing acc with
  | nil => exact ⟨hl, fun c hc _ => hcounts c hc (by simp)⟩
  | cons cid rest ih =>
      obtain ⟨hl', hcounts'⟩ := @cascadeCluster K now acc cid rest hl hcounts
      exact ih hl' hcounts'

omit [DecidableEq K] in
theorem cascadeStream {streamId : String} {c : Commit K CascadeResult} (h : StoreInvariant db)
    (hc : Db.cascadeStream now db streamId = .ok c) : StoreInvariant c.db := by
  obtain ⟨stream, -, hres⟩ := cascadeStream_ok hc
  have hdb := congrArg (fun r => r.2.2) hres
  simp only at hdb
  rw [hdb]
  refine cascadeClusters (h.toLinked.deleteOccurrences _) ?_
  refine CountsOutside.deleteOccurrences (fun c hc _ => h.counts c hc not_false) fun o ho hs => ?_
  rw [List.mem_dedup]
  exact List.mem_map_of_mem (List.mem_filter.mpr ⟨ho, hs⟩)

omit [DecidableEq K] in
theorem empty : StoreInvariant (⟨[], []⟩ : Database K) where
  ids := by simp
  owned := by simp
  keys := by simp
  named := by simp
  counts := by simp [CountsOutside]

/-- **The step lemma**: a call that commits keeps the invariant. -/
theorem run {w : Write K} {fresh : Uuid} {c : Commit K w.Answer} (h : StoreInvariant db)
    (hadm : w.Admitted pf now db) (hflag : w.FlagAgrees) (hrun : w.run pf fresh now db = .ok c) :
    StoreInvariant c.db := by
  cases w with
  | upsertCluster ownerId name isNamed centroid =>
      obtain rfl : name = none := hadm
      obtain rfl : isNamed = false := hflag
      exact h.upsertCluster hrun
  | appendStreamOccurrences ownerId streamId items =>
      rcases hadm with ⟨e, he⟩ | hitems
      · have herr : Except.error e = .ok c := he.symm.trans hrun
        cases herr
      · exact h.appendStreamOccurrences hitems hrun
  | renameCluster clusterId ownerId name => exact h.renameCluster hrun
  | deleteCluster clusterId ownerId => exact h.deleteCluster hrun
  | detachClusterFromStream clusterId streamId ownerId => exact h.detachClusterFromStream hrun
  | mergeClusters ownerId targetId sourceIds => exact h.mergeClusters hrun
  | updateClusterCentroid clusterId ownerId centroid => exact h.updateClusterCentroid hrun
  | setClusterCrop clusterId ownerId cropObject => exact h.setClusterCrop hrun
  | cascadeStream streamId => exact h.cascadeStream hrun

end StoreInvariant

/-- **The run lemma**: every reachable state satisfies the invariant. -/
theorem Reachable.invariant (h : Reached pf db) : StoreInvariant db := by
  induction h with
  | empty => exact .empty
  | @step db _ fresh now w hw ih =>
      unfold Write.commit
      split
      · rename_i hrun
        exact ih.run hw.1 hw.2 hrun
      · exact ih

/-- Counts, owners and names, as the service's readers rely on them. -/
def Consistent (db : Database K) : Prop :=
  (∀ c ∈ db.clusters, c.sampleCount = db.countFor c.id) ∧
  (∀ o ∈ db.occurrences, ∃ c ∈ db.clusters, c.id = o.clusterId ∧ c.ownerId = o.ownerId) ∧
  ∀ c ∈ db.clusters, (c.isNamed = true ↔ c.name ≠ none) ∧
    ∀ n, c.name = some n → n ≠ "" ∧ Trimmed n

/-- In every state the write functions reach from the empty database, new
clusters being inserted as their callers insert them, the store is consistent. -/
theorem reachable_consistent (h : Reached pf db) : Consistent db := by
  have hinv := h.invariant
  refine ⟨fun c hc => hinv.counts c hc not_false, hinv.owned, fun c hc => ⟨?_, (hinv.named c hc).2⟩⟩
  rw [(hinv.named c hc).1, Option.isSome_iff_ne_none]

/-- A state the condition of `reachable_consistent` admits: one anonymous
cluster with one sighting. -/
theorem reachable_consistent_append :
    Consistent ((Write.appendStreamOccurrences (Uuid.fill 1).text (Uuid.fill 2).text
      [⟨(Uuid.fill 3).text, [1], 5 / 2, 1⟩]).commit Platform.exact (Uuid.fill 4) 1
      ((Write.upsertCluster (Uuid.fill 1).text none false [1]).commit
        Platform.exact (Uuid.fill 3) 0 ⟨[], []⟩)) := by
  refine reachable_consistent (.step (.step .empty _ 0 _ ⟨rfl, rfl⟩) _ 1 _ ⟨.inr ?_, trivial⟩)
  intro it hit
  rw [List.mem_singleton.mp hit]
  exact ⟨Uuid.fill 3, _, by decide, rfl, Uuid.castUuid_text _⟩

/-- `upsert_cluster(owner, None, True, …)` would store a nameless cluster that
is flagged as named: the flag is stored as it is passed. -/
theorem upsert_flag_unchecked :
    ¬ ∀ db : Database ℚ,
      Reachable Platform.exact (fun now db w => w.Admitted Platform.exact now db) db →
        Consistent db := by
  intro h
  have hreach : Reachable Platform.exact (fun now db w => w.Admitted Platform.exact now db)
      ((Write.upsertCluster (Uuid.fill 1).text none true [1]).commit
        Platform.exact (Uuid.fill 3) 0 ⟨[], []⟩) := .step .empty _ 0 _ rfl
  have hcluster := (h _ hreach).2.2
    { Cluster.anonymous (Uuid.fill 3) (Uuid.fill 1) [1] 0 with isNamed := true } (by decide)
  exact absurd rfl (hcluster.1.mp rfl)

end FacesService
