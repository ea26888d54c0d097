import FacesService.Store.Statements
import FacesService.Base.Fallible

/-!
What a successful call of each write function of `db.py` did: which rows it
found, and the database it committed as a chain of statements. Nothing after
this file unfolds a write function to learn that.
-/

namespace FacesService.Db

open Database Fallible

variable {K : Type} [DecidableEq K] {pf : Platform K} {now : ℕ} {db : Database K}

/-- A cluster the caller names by a string and owns under the string it gives. -/
structure Owned (db : Database K) (clusterId ownerId : String) (id : Uuid) (row : Cluster K) :
    Prop where
  cast : castUuid clusterId = .ok id
  found : db.clusterById id = some row
  owner : row.ownerId.text = ownerId

omit [DecidableEq K] in
theorem Owned.castOwner {clusterId ownerId : String} {id : Uuid} {row : Cluster K}
    (h : Owned db clusterId ownerId id row) : castUuid ownerId = .ok row.ownerId := by
  rw [← h.owner, Uuid.castUuid_text]

omit [DecidableEq K] in
theorem Owned.mem {clusterId ownerId : String} {id : Uuid} {row : Cluster K}
    (h : Owned db clusterId ownerId id row) : row ∈ db.clusters ∧ row.id = id :=
  mem_of_clusterById h.found

theorem storedName_trimmed {name : Option String} {n : String} (h : storedName name = some n) :
    n ≠ "" ∧ Trimmed n := by
  unfold storedName at h
  split at h
  · cases h
  · split at h
    · cases h
    · rename_i hne
      cases h
      exact ⟨hne, pyStrip_trimmed _⟩

omit [DecidableEq K] in
theorem renameCluster_ok {clusterId ownerId : String} {name : Option String}
    {c : Commit K (Option (String × String))}
    (h : renameCluster pf now db clusterId ownerId name = .ok c) :
    (c.db = db ∧ c.bumps = []) ∨
      ∃ id row, Owned db clusterId ownerId id row ∧
        c = ⟨none, db.updateClusters (fun c => c.id = id) (fun c =>
          { c with name := storedName name, isNamed := (storedName name).isSome,
                   updatedAt := now }), [ownerId]⟩ := by
  unfold renameCluster at h
  obtain ⟨id, hid, h⟩ := bind_eq_ok.mp h
  split at h
  · cases h
    exact .inl ⟨rfl, rfl⟩
  · rename_i row hrow
    split at h
    · cases h
      exact .inl ⟨rfl, rfl⟩
    · rename_i howner
      have hown : Owned db clusterId ownerId id row := ⟨hid, hrow, not_not.mp howner⟩
      rw [hown.castOwner, ok_bind] at h
      simp only at h
      split at h
      · cases h
        exact .inl ⟨rfl, rfl⟩
      · cases h
        exact .inr ⟨id, row, hown, rfl⟩

omit [DecidableEq K] in
theorem upsertCluster_ok {fresh : Uuid} {ownerId : String} {name : Option String} {isNamed : Bool}
    {centroid : List K} {c : Commit K Uuid}
    (h : upsertCluster pf fresh now db ownerId name isNamed centroid = .ok c) :
    ∃ owner, castUuid ownerId = .ok owner ∧ c.result = fresh ∧ c.bumps = [ownerId] ∧
      db.insertCluster
        { id := fresh, ownerId := owner, name := name, isNamed := isNamed,
          centroid := toListArray pf centroid, sampleCount := 0, cropObject := none,
          createdAt := now, updatedAt := now } = .ok c.db := by
  unfold upsertCluster at h
  obtain ⟨owner, howner, h⟩ := bind_eq_ok.mp h
  obtain ⟨db', hins, h⟩ := bind_eq_ok.mp h
  cases h
  exact ⟨owner, howner, rfl, rfl, hins⟩

omit [DecidableEq K] in
theorem updateClusterCentroid_ok {clusterId ownerId : String} {centroid : List K}
    {c : Commit K Unit} (h : updateClusterCentroid pf now db clusterId ownerId centroid = .ok c) :
    ∃ id owner, castUuid clusterId = .ok id ∧ castUuid ownerId = .ok owner ∧
      c = ⟨(), db.updateClusters (fun c => c.id = id && c.ownerId = owner) (fun c =>
        { c with centroid := toListArray pf centroid, updatedAt := now }), [ownerId]⟩ := by
  unfold updateClusterCentroid at h
  obtain ⟨id, hid, h⟩ := bind_eq_ok.mp h
  obtain ⟨owner, howner, h⟩ := bind_eq_ok.mp h
  cases h
  exact ⟨id, owner, hid, howner, rfl⟩

omit [DecidableEq K] in
theorem setClusterCrop_ok {clusterId ownerId : String} {cropObject : Option String}
    {c : Commit K Unit} (h : setClusterCrop now db clusterId ownerId cropObject = .ok c) :
    ∃ id owner, castUuid clusterId = .ok id ∧ castUuid ownerId = .ok owner ∧
      c = ⟨(), db.updateClusters (fun c => c.id = id && c.ownerId = owner) (fun c =>
        { c with cropObject := cropObject, updatedAt := now }), []⟩ := by
  unfold setClusterCrop at h
  obtain ⟨id, hid, h⟩ := bind_eq_ok.mp h
  obtain ⟨owner, howner, h⟩ := bind_eq_ok.mp h
  cases h
  exact ⟨id, owner, hid, howner, rfl⟩

omit [DecidableEq K] in
theorem deleteCluster_ok {clusterId ownerId : String} {c : Commit K (Option DeletedCluster)}
    (h : deleteCluster db clusterId ownerId = .ok c) :
    c = ⟨none, db, []⟩ ∨
      ∃ id row streams, Owned db clusterId ownerId id row ∧
        c = ⟨some ⟨row.ownerId.text, row.cropObject, streams⟩,
          (db.deleteOccurrences fun o => o.clusterId = id).deleteClusters fun c => c.id = id,
          [ownerId]⟩ := by
  unfold deleteCluster at h
  obtain ⟨id, hid, h⟩ := bind_eq_ok.mp h
  split at h
  · cases h
    exact .inl rfl
  · rename_i row hrow
    split at h
    · cases h
      exact .inl rfl
    · rename_i howner
      cases h
      exact .inr ⟨id, row, _, ⟨hid, hrow, not_not.mp howner⟩, rfl⟩

omit [DecidableEq K] in
/-- A cluster of the owner is deleted with its rows, whatever it holds. -/
theorem deleteCluster_of_owned {clusterId ownerId : String} {id : Uuid} {row : Cluster K}
    (h : Owned db clusterId ownerId id row) :
    ∃ c, deleteCluster db clusterId ownerId = .ok c ∧ c.result.isSome ∧
      c.db = (db.deleteOccurrences fun o => o.clusterId = id).deleteClusters fun c => c.id = id := by
  unfold deleteCluster
  rw [h.cast, ok_bind, h.found]
  simp only
  rw [if_neg (not_not.mpr h.owner)]
  exact ⟨_, rfl, rfl, rfl⟩

theorem appendStreamOccurrences_ok {ownerId streamId : String} {items : List (Item K)}
    {c : Commit K ℕ} (h : appendStreamOccurrences pf now db ownerId streamId items = .ok c) :
    ∃ db₁ owner stream, insertItems pf now ownerId streamId items 0 db = .ok (c.result, db₁) ∧
      castUuid ownerId = .ok owner ∧ castUuid streamId = .ok stream ∧ c.bumps = [ownerId] ∧
      c.db = db₁.recount now fun c =>
        c.ownerId = owner && db₁.occurrences.any fun o => o.streamId = stream && o.clusterId = c.id := by
  unfold appendStreamOccurrences at h
  obtain ⟨⟨written, db₁⟩, hins, h⟩ := bind_eq_ok.mp h
  obtain ⟨owner, howner, h⟩ := bind_eq_ok.mp h
  obtain ⟨stream, hstream, h⟩ := bind_eq_ok.mp h
  cases h
  exact ⟨db₁, owner, stream, hins, howner, hstream, rfl, rfl⟩

/-- One round of the insert loop: the clusters stay, no row is lost, and the
row of the item is there afterwards, be it new or not. -/
theorem insertItems_cons {ownerId streamId : String} {it : Item K} {items : List (Item K)}
    {n m : ℕ} {db' : Database K}
    (h : insertItems pf now ownerId streamId (it :: items) n db = .ok (m, db')) :
    ∃ owner stream id k db₁, castUuid ownerId = .ok owner ∧ castUuid streamId = .ok stream ∧
      castUuid it.clusterId = .ok id ∧
      db.insertOccurrenceIfNew (it.row pf now owner stream id) = .ok (k, db₁) ∧
      insertItems pf now ownerId streamId items (n + k) db₁ = .ok (m, db') := by
  unfold insertItems at h
  obtain ⟨owner, howner, h⟩ := bind_eq_ok.mp h
  obtain ⟨stream, hstream, h⟩ := bind_eq_ok.mp h
  obtain ⟨id, hid, h⟩ := bind_eq_ok.mp h
  obtain ⟨⟨k, db₁⟩, hins, h⟩ := bind_eq_ok.mp h
  exact ⟨owner, stream, id, k, db₁, howner, hstream, hid, hins, h⟩

theorem insertOccurrenceIfNew_keeps {o : Occurrence K} {k : ℕ} {db₁ : Database K}
    (h : db.insertOccurrenceIfNew o = .ok (k, db₁)) :
    db₁.clusters = db.clusters ∧ db.occurrences ⊆ db₁.occurrences ∧
      ∃ o' ∈ db₁.occurrences, o'.key = o.key := by
  rcases insertOccurrenceIfNew_eq_ok h with ⟨-, rfl, hkey⟩ | ⟨-, hins⟩
  · exact ⟨rfl, List.Subset.refl _, hkey⟩
  · obtain ⟨-, -, rfl⟩ := insertOccurrence_eq_ok hins
    exact ⟨rfl, List.subset_append_left _ _, o, by simp, rfl⟩

theorem insertItems_keeps {ownerId streamId : String} {items : List (Item K)} {n m : ℕ}
    {db' : Database K} (h : insertItems pf now ownerId streamId items n db = .ok (m, db')) :
    db'.clusters = db.clusters ∧ db.occurrences ⊆ db'.occurrences := by
  induction items generalizing n db with
  | nil =>
      cases h
      exact ⟨rfl, List.Subset.refl _⟩
  | cons it items ih =>
      obtain ⟨_, _, _, _, db₁, -, -, -, hins, hrest⟩ := insertItems_cons h
      obtain ⟨hcl, hocc, -⟩ := insertOccurrenceIfNew_keeps hins
      obtain ⟨hcl', hocc'⟩ := ih hrest
      exact ⟨hcl'.trans hcl, List.Subset.trans hocc hocc'⟩

/-- After the loop every item has a row in its stream and cluster, so the
`WHERE` of the recount reaches every cluster the loop wrote to. -/
theorem insertItems_row {ownerId streamId : String} {items : List (Item K)} {n m : ℕ}
    {db' : Database K} {stream : Uuid} (hstream : castUuid streamId = .ok stream)
    (h : insertItems pf now ownerId streamId items n db = .ok (m, db')) :
    ∀ it ∈ items, ∃ id, castUuid it.clusterId = .ok id ∧
      ∃ o ∈ db'.occurrences, o.streamId = stream ∧ o.clusterId = id ∧ o.tSeconds = it.tSeconds := by
  induction items generalizing n db with
  | nil => simp
  | cons it items ih =>
      obtain ⟨_, stream', id, _, db₁, -, hstream', hid, hins, hrest⟩ := insertItems_cons h
      obtain ⟨-, -, o, ho, hkey⟩ := insertOccurrenceIfNew_keeps hins
      rw [hstream] at hstream'
      cases hstream'
      intro it' hit'
      rcases List.mem_cons.mp hit' with rfl | hit'
      · simp only [Occurrence.key, Item.row, Prod.mk.injEq] at hkey
        exact ⟨id, hid, o, (insertItems_keeps hrest).2 ho, hkey.1, hkey.2.1, hkey.2.2⟩
      · exact ih hrest it' hit'

/-- The rows `detach_cluster_from_stream` deletes. -/
def detached (id stream owner : Uuid) (o : Occurrence K) : Bool :=
  o.clusterId = id && o.streamId = stream && o.ownerId = owner

/-- The cluster it deletes afterwards, if nothing is left. -/
def emptied (id owner : Uuid) (c : Cluster K) : Bool :=
  c.id = id && c.ownerId = owner && c.sampleCount = 0

omit [DecidableEq K] in
theorem detachClusterFromStream_ok {clusterId streamId ownerId : String}
    {c : Commit K (Option DetachSummary)}
    (h : detachClusterFromStream now db clusterId streamId ownerId = .ok c) :
    c = ⟨none, db, []⟩ ∨
      ∃ id row stream, Owned db clusterId ownerId id row ∧ castUuid streamId = .ok stream ∧
        c.bumps = [ownerId] ∧ c.result.isSome ∧
        c.db = ((db.deleteOccurrences (detached id stream row.ownerId)).recount now fun c =>
          c.id = id && c.ownerId = row.ownerId).deleteClusters (emptied id row.ownerId) := by
  unfold detachClusterFromStream at h
  obtain ⟨id, hid, h⟩ := bind_eq_ok.mp h
  split at h
  · cases h
    exact .inl rfl
  · rename_i row hrow
    split at h
    · cases h
      exact .inl rfl
    · rename_i howner
      have hown : Owned db clusterId ownerId id row := ⟨hid, hrow, not_not.mp howner⟩
      obtain ⟨stream, hstream, h⟩ := bind_eq_ok.mp h
      rw [hown.castOwner, ok_bind] at h
      cases h
      exact .inr ⟨id, row, stream, hown, hstream, rfl, rfl, rfl⟩

omit [DecidableEq K] in
theorem cascadeStream_ok {streamId : String} {c : Commit K CascadeResult}
    (h : cascadeStream now db streamId = .ok c) :
    ∃ stream, castUuid streamId = .ok stream ∧
      (c.result, c.bumps, c.db) =
        (((db.occurrences.filter fun o => o.streamId = stream).map (·.clusterId)).dedup).foldl
          (cascadeCluster now)
          (⟨db.occurrences.countP fun o => o.streamId = stream, 0, []⟩, [],
            db.deleteOccurrences fun o => o.streamId = stream) := by
  unfold cascadeStream at h
  obtain ⟨stream, hstream, h⟩ := bind_eq_ok.mp h
  refine ⟨stream, hstream, ?_⟩
  simp only [Except.ok.injEq] at h
  rw [← h]

theorem moveRow_ok {owner target : Uuid} {st st' : MergeState K} {r : Occurrence K}
    (h : moveRow pf now owner target st r = .ok st') :
    ∃ t, st.db.insertOccurrence
        { ownerId := owner, streamId := r.streamId, clusterId := target,
          embedding := toListArray pf r.embedding, tSeconds := t, confidence := r.confidence,
          createdAt := now } = .ok st'.db := by
  unfold moveRow at h
  simp only at h
  split at h
  · cases h
  · rename_i t ht
    obtain ⟨db', hins, h⟩ := bind_eq_ok.mp h
    cases h
    exact ⟨t, hins⟩

theorem mergeSource_ok {owner target : Uuid} {st st' : MergeState K} {cid : String}
    (h : mergeSource pf now owner target st cid = .ok st') :
    ∃ id st₁, castUuid cid = .ok id ∧
      (pf.scan id (st.db.occurrences.filter fun o => o.clusterId = id)).foldlM
        (moveRow pf now owner target) st = .ok st₁ ∧
      st' = { st₁ with db :=
        (st₁.db.deleteOccurrences fun o => o.clusterId = id).deleteClusters fun c => c.id = id } := by
  unfold mergeSource at h
  obtain ⟨id, hid, h⟩ := bind_eq_ok.mp h
  obtain ⟨st₁, hrows, h⟩ := bind_eq_ok.mp h
  cases h
  exact ⟨id, st₁, hid, hrows, rfl⟩

omit [DecidableEq K] in
/-- Every source a merge goes on with is a cluster of the owner. -/
theorem verifySources_true {ownerId : String} {sourceIds : List String}
    (h : verifySources db ownerId sourceIds = .ok true) :
    ∀ cid ∈ sourceIds, ∃ id row, Owned db cid ownerId id row := by
  induction sourceIds with
  | nil => simp
  | cons cid rest ih =>
      unfold verifySources at h
      obtain ⟨id, hid, h⟩ := bind_eq_ok.mp h
      split at h
      · cases h
      · rename_i row hrow
        split at h
        · cases h
        · rename_i howner
          intro cid' hmem
          rcases List.mem_cons.mp hmem with rfl | hmem
          · exact ⟨id, row, hid, hrow, not_not.mp howner⟩
          · exact ih h cid' hmem

omit [DecidableEq K] in
theorem verifySources_of_owned {ownerId : String} {sourceIds : List String}
    (h : ∀ cid ∈ sourceIds, ∃ id row, Owned db cid ownerId id row) :
    verifySources db ownerId sourceIds = .ok true := by
  induction sourceIds with
  | nil => rfl
  | cons cid rest ih =>
      obtain ⟨⟨id, row, hown⟩, hrest⟩ := List.forall_mem_cons.mp h
      unfold verifySources
      rw [hown.cast, ok_bind, hown.found]
      simp only [hown.owner, ne_eq, not_true_eq_false, if_false]
      exact ih hrest

theorem mergeClusters_ok {ownerId targetId : String} {sourceIds : List String}
    {c : Commit K (Option Merged)}
    (h : mergeClusters pf now db ownerId targetId sourceIds = .ok c) :
    c = ⟨none, db, []⟩ ∨
      ∃ target row affected st, Owned db targetId ownerId target row ∧
        verifySources db ownerId sourceIds = .ok true ∧
        sourceIds.foldlM (mergeSource pf now row.ownerId target) ⟨db, affected, []⟩ = .ok st ∧
        c = ⟨some ⟨orderBy (· ≤ ·) (st.affected.map (·.text)), sourceIds⟩,
          st.db.recount now fun c => c.id = target, [ownerId]⟩ := by
  unfold mergeClusters at h
  obtain ⟨target, htarget, h⟩ := bind_eq_ok.mp h
  split at h
  · cases h
    exact .inl rfl
  · rename_i row hrow
    split at h
    · cases h
      exact .inl rfl
    · rename_i howner
      have hown : Owned db targetId ownerId target row := ⟨htarget, hrow, not_not.mp howner⟩
      obtain ⟨ok, hverify, h⟩ := bind_eq_ok.mp h
      cases ok with
      | false =>
          cases h
          exact .inl rfl
      | true =>
          simp only [if_true] at h
          rw [hown.castOwner, ok_bind] at h
          obtain ⟨st, hst, h⟩ := bind_eq_ok.mp h
          cases h
          exact .inr ⟨target, row, _, st, hown, hverify, hst, rfl⟩

end FacesService.Db
