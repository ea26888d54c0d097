import FacesService.Model.Service
import FacesService.Store.Cascade
import FacesService.Store.Merge

/-!
Which owners a write touches, and which of them it names for the suggestion
cache. Every write but one names each owner whose clusters it changes;
`set_cluster_crop` names nobody.
-/

namespace FacesService

open Database Fallible Db

variable {K : Type}

/-- The clusters of an owner. -/
def ownRows (db : Database K) (owner : Uuid) : List (Cluster K) :=
  db.clusters.filter fun c => c.ownerId = owner

section

variable {db : Database K} {owner : Uuid}

theorem ownRows_update {p : Cluster K → Bool} {f : Cluster K → Cluster K}
    (hf : ∀ c, (f c).ownerId = c.ownerId) (owner : Uuid) :
    ownRows (db.updateClusters p f) owner = (ownRows db owner).map fun c => if p c then f c else c := by
  unfold ownRows updateClusters
  simp only [List.filter_map]
  congr 1
  refine List.filter_congr fun c _ => ?_
  simp only [Function.comp]
  split
  · rw [hf]
  · rfl

theorem ownRows_updateClusters {p : Cluster K → Bool} {f : Cluster K → Cluster K}
    (hp : ∀ c ∈ db.clusters, p c = true → c.ownerId ≠ owner) (hf : ∀ c, (f c).ownerId = c.ownerId) :
    ownRows (db.updateClusters p f) owner = ownRows db owner := by
  rw [ownRows_update hf]
  refine (List.map_congr_left fun c hc => ?_).trans (List.map_id _)
  obtain ⟨hmem, howner⟩ := List.mem_filter.mp hc
  rw [if_neg fun hpc => hp c hmem hpc (by simpa using howner)]
  rfl

theorem ownRows_filter {db' : Database K} {q : Cluster K → Bool} (h : db'.clusters = db.clusters.filter q)
    (hq : ∀ c ∈ db.clusters, q c = false → c.ownerId ≠ owner) : ownRows db' owner = ownRows db owner := by
  unfold ownRows
  rw [h, List.filter_filter]
  refine List.filter_congr fun c hc => ?_
  cases hqc : q c with
  | true => simp
  | false => simp [hq c hc hqc]

theorem ownRows_deleteClusters {p : Cluster K → Bool}
    (hp : ∀ c ∈ db.clusters, p c = true → c.ownerId ≠ owner) :
    ownRows (db.deleteClusters p) owner = ownRows db owner :=
  ownRows_filter (q := fun c => !p c) rfl fun c hc hpc => hp c hc (by simpa using hpc)

theorem ownRows_settle {ids : List Uuid} (now : ℕ)
    (h : ∀ c ∈ db.clusters, c.id ∈ ids → c.ownerId ≠ owner) :
    ownRows (settle now ids db) owner = ownRows db owner := by
  unfold ownRows settle
  simp only
  generalize db.clusters = rows at h
  induction rows with
  | nil => rfl
  | cons c rows ih =>
      obtain ⟨hc, hrows⟩ := List.forall_mem_cons.mp h
      by_cases howner : c.ownerId = owner
      · have hsame : settleCluster now db ids c = some c := by
          rw [settleCluster, if_neg fun hmem => hc hmem howner]
        rw [List.filterMap_cons_some hsame, List.filter_cons_of_pos (by simpa using howner),
          List.filter_cons_of_pos (by simpa using howner), ih hrows]
      · rw [List.filter_cons_of_neg (by simpa using howner), ← ih hrows]
        cases hsettle : settleCluster now db ids c with
        | none => rw [List.filterMap_cons_none hsettle]
        | some c' =>
            rw [List.filterMap_cons_some hsettle,
              List.filter_cons_of_neg (by simpa [(settleCluster_keeps hsettle).2] using howner)]

/-- The rows with the id of a cluster that has an owner are that cluster. -/
theorem owner_of_owned (hids : (db.clusters.map (·.id)).Nodup) {clusterId ownerId : String} {id : Uuid}
    {row c : Cluster K} (h : Owned db clusterId ownerId id row) (hc : c ∈ db.clusters) (hid : c.id = id) :
    c.ownerId = row.ownerId := by
  rw [List.inj_on_of_nodup_map hids hc h.mem.1 (hid.trans h.mem.2.symm)]

end

/-- `set_cluster_crop` says nothing to the cache. -/
def Write.isSetCrop : Write K → Bool
  | setClusterCrop .. => true
  | _ => false

/-! ### The cascade -/

theorem cascadeCluster_touched (now : ℕ) (acc : CascadeResult × List String × Database K) (cid : Uuid) :
    (cascadeCluster now acc cid).2.1 =
      (acc.2.2.clusterById cid).elim acc.2.1 fun r => acc.2.1.insert r.ownerId.text := by
  simp only [cascadeCluster]
  cases acc.2.2.clusterById cid <;> rfl

theorem cascadeClusters_bumps (now : ℕ) {ids : List Uuid} (hnodup : ids.Nodup)
    {acc : CascadeResult × List String × Database K} (hids : (acc.2.2.clusters.map (·.id)).Nodup) :
    (∀ s ∈ acc.2.1, s ∈ (ids.foldl (cascadeCluster now) acc).2.1) ∧
      ∀ c ∈ acc.2.2.clusters, c.id ∈ ids → c.ownerId.text ∈ (ids.foldl (cascadeCluster now) acc).2.1 := by
  induction ids generalizing acc with
  | nil => simp
  | cons cid ids ih =>
      obtain ⟨hcid, hnodup⟩ := List.nodup_cons.mp hnodup
      have hids' : ((cascadeCluster now acc cid).2.2.clusters.map (·.id)).Nodup := by
        rw [cascadeCluster_settles]
        exact hids.sublist (settle_ids_sublist now _ _)
      obtain ⟨hkept, hnamed⟩ := ih hnodup hids'
      have hmono : ∀ s ∈ acc.2.1, s ∈ (cascadeCluster now acc cid).2.1 := by
        intro s hs
        rw [cascadeCluster_touched]
        cases acc.2.2.clusterById cid with
        | none => exact hs
        | some r => exact List.mem_insert_of_mem hs
      refine ⟨fun s hs => hkept s (hmono s hs), fun c hc hmem => ?_⟩
      by_cases hone : c.id = cid
      · refine hkept _ ?_
        rw [cascadeCluster_touched]
        cases hfind : acc.2.2.clusterById cid with
        | none => exact absurd hone (clusterById_eq_none.mp hfind c hc)
        | some r =>
            obtain ⟨hr, hid⟩ := mem_of_clusterById hfind
            rw [List.inj_on_of_nodup_map hids hc hr (hone.trans hid.symm)]
            exact List.mem_insert_self
      · -- the round before does not touch it
        refine hnamed c ?_ ((List.mem_cons.mp hmem).resolve_left hone)
        rw [cascadeCluster_settles]
        refine List.mem_filterMap.mpr ⟨c, hc, ?_⟩
        rw [settleCluster, if_neg (by simpa using hone)]

theorem cascadeClusters_names (now : ℕ) (ids : List Uuid) (acc : CascadeResult × List String × Database K) :
    ∀ s ∈ (ids.foldl (cascadeCluster now) acc).2.1, s ∈ acc.2.1 ∨
      ∃ c ∈ acc.2.2.clusters, c.id ∈ ids ∧ c.ownerId.text = s := by
  induction ids generalizing acc with
  | nil => exact fun s hs => .inl hs
  | cons cid ids ih =>
      intro s hs
      rcases ih (cascadeCluster now acc cid) s hs with hs | ⟨c, hc, hid, howner⟩
      · rw [cascadeCluster_touched] at hs
        cases hfind : acc.2.2.clusterById cid with
        | none =>
            rw [hfind] at hs
            exact .inl hs
        | some r =>
            rw [hfind] at hs
            obtain ⟨hr, hrid⟩ := mem_of_clusterById hfind
            rcases List.mem_insert_iff.mp hs with rfl | hs
            · exact .inr ⟨r, hr, hrid ▸ List.mem_cons_self, rfl⟩
            · exact .inl hs
      · rw [cascadeCluster_settles] at hc
        obtain ⟨c₀, hc₀, hsettle⟩ := List.mem_filterMap.mp hc
        obtain ⟨hid₀, howner₀⟩ := settleCluster_keeps hsettle
        exact .inr ⟨c₀, hc₀, hid₀ ▸ List.mem_cons_of_mem _ hid, howner₀ ▸ howner⟩

/-! ### All writes -/

variable [DecidableEq K] {pf : Platform K} {fresh : Uuid} {now : ℕ} {db : Database K} {owner : Uuid}

omit [DecidableEq K] in
theorem mergeSources_ownRows (hids : (db.clusters.map (·.id)).Nodup) {ownerId : String} {row : Cluster K}
    (hrow : row.ownerId.text = ownerId) (hne : row.ownerId ≠ owner) {sourceIds : List String}
    (hsources : ∀ cid ∈ sourceIds, ∃ id r, Owned db cid ownerId id r) {db' : Database K}
    (hdb' : db'.clusters = db.clusters.filter fun c => c.id ∉ denoted sourceIds) :
    ownRows db' owner = ownRows db owner := by
  refine ownRows_filter hdb' fun c hc hgone => ?_
  have hmem : c.id ∈ denoted sourceIds := by simpa using hgone
  obtain ⟨cid, hcid, hcast⟩ := mem_denoted.mp hmem
  obtain ⟨id, r, hown⟩ := hsources cid hcid
  cases hown.cast.symm.trans hcast
  rw [owner_of_owned hids hown hc rfl, Uuid.text_injective (hown.owner.trans hrow.symm)]
  exact hne

/-- **A write touches only the owners it names**, `set_cluster_crop` apart. -/
theorem Write.run_ownRows (hids : (db.clusters.map (·.id)).Nodup) {w : Write K} {c : Commit K w.Answer}
    (hcrop : w.isSetCrop = false) (h : w.run pf fresh now db = .ok c)
    (hout : ∀ s ∈ c.bumps, castUuid s ≠ .ok owner) : ownRows c.db owner = ownRows db owner := by
  cases w with
  | setClusterCrop clusterId ownerId cropObject => cases hcrop
  | upsertCluster ownerId name isNamed centroid =>
      obtain ⟨owner', howner', -, hbumps, hinsert⟩ := upsertCluster_ok h
      have hne : owner' ≠ owner := fun heq =>
        hout ownerId (by rw [hbumps]; exact List.mem_cons_self) (heq ▸ howner')
      obtain ⟨-, hdb⟩ := insertCluster_eq_ok hinsert
      unfold ownRows
      rw [hdb, List.filter_append]
      simp [hne]
  | appendStreamOccurrences ownerId streamId items =>
      obtain ⟨db₁, owner', stream, hinsert, howner', -, hbumps, hdb⟩ := appendStreamOccurrences_ok h
      have hne : owner' ≠ owner := fun heq =>
        hout ownerId (by rw [hbumps]; exact List.mem_cons_self) (heq ▸ howner')
      rw [hdb, recount, ownRows_updateClusters]
      · unfold ownRows
        rw [(insertItems_keeps hinsert).1]
      · intro c _ hc heq
        simp only [Bool.and_eq_true, decide_eq_true_eq] at hc
        exact hne (hc.1.symm.trans heq)
      · exact fun _ => rfl
  | renameCluster clusterId ownerId name =>
      rcases renameCluster_ok h with ⟨hdb, -⟩ | ⟨id, row, hown, rfl⟩
      · rw [hdb]
      · have hne : row.ownerId ≠ owner := fun heq =>
          hout ownerId List.mem_cons_self (heq ▸ hown.castOwner)
        refine ownRows_updateClusters (fun c hc hid => ?_) fun _ => rfl
        rw [owner_of_owned hids hown hc (by simpa using hid)]
        exact hne
  | deleteCluster clusterId ownerId =>
      rcases deleteCluster_ok h with rfl | ⟨id, row, streams, hown, rfl⟩
      · rfl
      · have hne : row.ownerId ≠ owner := fun heq =>
          hout ownerId List.mem_cons_self (heq ▸ hown.castOwner)
        refine ownRows_deleteClusters fun c hc hid => ?_
        rw [owner_of_owned hids hown hc (by simpa using hid)]
        exact hne
  | detachClusterFromStream clusterId streamId ownerId =>
      rcases detachClusterFromStream_ok h with rfl | ⟨id, row, stream, hown, -, hbumps, -, hdb⟩
      · rfl
      · have hne : row.ownerId ≠ owner := fun heq =>
          hout ownerId (by rw [hbumps]; exact List.mem_cons_self) (heq ▸ hown.castOwner)
        rw [hdb, ownRows_deleteClusters, recount, ownRows_updateClusters]
        · rfl
        · intro c _ hc heq
          simp only [Bool.and_eq_true, decide_eq_true_eq] at hc
          exact hne (hc.2.symm.trans heq)
        · exact fun _ => rfl
        · intro c _ hc heq
          simp only [emptied, Bool.and_eq_true, decide_eq_true_eq] at hc
          exact hne (hc.1.2.symm.trans heq)
  | mergeClusters ownerId targetId sourceIds =>
      rcases mergeClusters_ok h with rfl | ⟨target, row, affected, st, hown, hverify, hst, rfl⟩
      · rfl
      · have hne : row.ownerId ≠ owner := fun heq =>
          hout ownerId List.mem_cons_self (heq ▸ hown.castOwner)
        have hclusters := mergeSources_clusters hst
        rw [recount, ownRows_updateClusters]
        · exact mergeSources_ownRows hids hown.owner hne (verifySources_true hverify) hclusters
        · intro c hc hid
          rw [hclusters] at hc
          rw [owner_of_owned hids hown (List.mem_filter.mp hc).1 (by simpa using hid)]
          exact hne
        · exact fun _ => rfl
  | updateClusterCentroid clusterId ownerId centroid =>
      obtain ⟨id, owner', -, howner', rfl⟩ := updateClusterCentroid_ok h
      have hne : owner' ≠ owner := fun heq => hout ownerId List.mem_cons_self (heq ▸ howner')
      refine ownRows_updateClusters (fun c _ hc heq => ?_) fun _ => rfl
      simp only [Bool.and_eq_true, decide_eq_true_eq] at hc
      exact hne (hc.2.symm.trans heq)
  | cascadeStream streamId =>
      obtain ⟨stream, hstream, hdb⟩ := cascadeStream_db h
      obtain ⟨stream', hstream', hfold⟩ := cascadeStream_ok h
      cases hstream.symm.trans hstream'
      have hbumps : c.bumps = _ := congrArg (·.2.1) hfold
      rw [hdb]
      -- a cluster that is settled has its owner named
      have hsettled : ∀ c ∈ db.clusters, c.id ∈ hit (inStream stream) db → c.ownerId ≠ owner := by
        intro r hr hmem heq
        refine hout r.ownerId.text ?_ (heq ▸ Uuid.castUuid_text _)
        rw [hbumps]
        refine (cascadeClusters_bumps now (List.nodup_dedup _) hids).2 r hr ?_
        rw [List.mem_dedup]
        exact hmem
      rw [purge]
      exact ownRows_settle now hsettled

/-- The owners a write may name: its own, or those of the clusters in the stream. -/
def Write.names (db : Database K) : Write K → List String
  | upsertCluster ownerId .. => [ownerId]
  | appendStreamOccurrences ownerId .. => [ownerId]
  | renameCluster _ ownerId _ => [ownerId]
  | deleteCluster _ ownerId => [ownerId]
  | detachClusterFromStream _ _ ownerId => [ownerId]
  | mergeClusters ownerId .. => [ownerId]
  | updateClusterCentroid _ ownerId _ => [ownerId]
  | setClusterCrop .. => []
  | cascadeStream streamId =>
      let inIt := fun c : Cluster K => db.occurrences.any fun o =>
        o.clusterId = c.id && decide (castUuid streamId = .ok o.streamId)
      (db.clusters.filter inIt).map fun c => c.ownerId.text

theorem Write.run_names {w : Write K} {c : Commit K w.Answer} (h : w.run pf fresh now db = .ok c) :
    ∀ s ∈ c.bumps, s ∈ w.names db := by
  cases w with
  | upsertCluster ownerId name isNamed centroid =>
      obtain ⟨owner, -, -, hbumps, -⟩ := upsertCluster_ok h
      simp [hbumps, names]
  | appendStreamOccurrences ownerId streamId items =>
      obtain ⟨db₁, owner, stream, -, -, -, hbumps, -⟩ := appendStreamOccurrences_ok h
      simp [hbumps, names]
  | renameCluster clusterId ownerId name =>
      rcases renameCluster_ok h with ⟨-, hbumps⟩ | ⟨id, row, -, rfl⟩
      · simp [hbumps]
      · simp [names]
  | deleteCluster clusterId ownerId =>
      rcases deleteCluster_ok h with rfl | ⟨id, row, streams, -, rfl⟩ <;> simp [names]
  | detachClusterFromStream clusterId streamId ownerId =>
      rcases detachClusterFromStream_ok h with rfl | ⟨id, row, stream, -, -, hbumps, -⟩
      · simp
      · simp [hbumps, names]
  | mergeClusters ownerId targetId sourceIds =>
      rcases mergeClusters_ok h with rfl | ⟨target, row, affected, st, -, -, -, rfl⟩ <;> simp [names]
  | updateClusterCentroid clusterId ownerId centroid =>
      obtain ⟨id, owner, -, -, rfl⟩ := updateClusterCentroid_ok h
      simp [names]
  | setClusterCrop clusterId ownerId cropObject =>
      obtain ⟨id, owner, -, -, rfl⟩ := setClusterCrop_ok h
      simp
  | cascadeStream streamId =>
      obtain ⟨stream, hstream, hfold⟩ := cascadeStream_ok h
      have hbumps : c.bumps = _ := congrArg (·.2.1) hfold
      intro s hs
      rw [hbumps] at hs
      rcases cascadeClusters_names now _ _ s hs with hs | ⟨r, hr, hid, rfl⟩
      · cases hs
      · obtain ⟨o, ho, hoid⟩ := List.mem_map.mp (List.mem_dedup.mp hid)
        obtain ⟨ho, hos⟩ := List.mem_filter.mp ho
        refine List.mem_map.mpr ⟨r, List.mem_filter.mpr ⟨hr, List.any_eq_true.mpr ⟨o, ho, ?_⟩⟩, rfl⟩
        simp only [decide_eq_true_eq] at hos
        simp [hoid, hos, hstream]

/-- Under the primary key no write makes an id come twice. -/
theorem Write.run_ids (hids : (db.clusters.map (·.id)).Nodup) {w : Write K} {c : Commit K w.Answer}
    (h : w.run pf fresh now db = .ok c) : (c.db.clusters.map (·.id)).Nodup := by
  have hdelete : ∀ {rows : List (Cluster K)} {q : Cluster K → Bool}, (rows.map (·.id)).Nodup →
      ((rows.filter q).map (·.id)).Nodup := fun hrows =>
    hrows.sublist (List.filter_sublist.map _)
  cases w with
  | upsertCluster ownerId name isNamed centroid =>
      obtain ⟨owner, -, -, -, hinsert⟩ := upsertCluster_ok h
      obtain ⟨hfresh, hdb⟩ := insertCluster_eq_ok hinsert
      rw [hdb]
      simp only [List.map_append, List.map_cons, List.map_nil]
      refine List.nodup_append.mpr ⟨hids, by simp, fun a ha b hb => ?_⟩
      obtain ⟨c', hc', rfl⟩ := List.mem_map.mp ha
      rw [List.mem_singleton.mp hb]
      exact hfresh c' hc'
  | appendStreamOccurrences ownerId streamId items =>
      obtain ⟨db₁, owner, stream, hinsert, -, -, -, hdb⟩ := appendStreamOccurrences_ok h
      rw [hdb, recount_ids, (insertItems_keeps hinsert).1]
      exact hids
  | renameCluster clusterId ownerId name =>
      rcases renameCluster_ok h with ⟨hdb, -⟩ | ⟨id, row, -, rfl⟩
      · rw [hdb]
        exact hids
      · rw [updateClusters_ids]
        · exact hids
        · exact fun _ => rfl
  | deleteCluster clusterId ownerId =>
      rcases deleteCluster_ok h with rfl | ⟨id, row, streams, -, rfl⟩
      · exact hids
      · exact hdelete hids
  | detachClusterFromStream clusterId streamId ownerId =>
      rcases detachClusterFromStream_ok h with rfl | ⟨id, row, stream, -, -, -, -, hdb⟩
      · exact hids
      · rw [hdb]
        refine hdelete ?_
        rw [recount_ids]
        exact hids
  | mergeClusters ownerId targetId sourceIds =>
      rcases mergeClusters_ok h with rfl | ⟨target, row, affected, st, -, -, hst, rfl⟩
      · exact hids
      · rw [recount_ids, mergeSources_clusters hst]
        exact hdelete hids
  | updateClusterCentroid clusterId ownerId centroid =>
      obtain ⟨id, owner, -, -, rfl⟩ := updateClusterCentroid_ok h
      rw [updateClusters_ids]
      · exact hids
      · exact fun _ => rfl
  | setClusterCrop clusterId ownerId cropObject =>
      obtain ⟨id, owner, -, -, rfl⟩ := setClusterCrop_ok h
      rw [updateClusters_ids]
      · exact hids
      · exact fun _ => rfl
  | cascadeStream streamId =>
      obtain ⟨stream, -, hdb⟩ := cascadeStream_db h
      rw [hdb, purge]
      exact hids.sublist (settle_ids_sublist now _ _)

end FacesService
