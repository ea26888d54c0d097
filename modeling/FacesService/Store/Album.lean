import FacesService.Base.Triple
import FacesService.Store.Calls
import FacesService.Store.Keys
import FacesService.Store.Merge

/-!
The pictures of the clusters. The table says which clusters have a crop, the
bucket holds the crops, under keys made of strings. An `Album` is the two with
the picture last stored for each cluster beside them, and it is `Settled` if
they agree: a cluster that has a crop has its last picture under its own text,
and there is no other crop.

A deletion leaves the album `Owing` the crops of what it deleted, and a purge
settles what is owed under its key.
-/

namespace FacesService

open Prog Database Fallible Db

variable {K : Type}

/-! ### The column of crops -/

/-- What decides about the crop of a cluster. -/
def cropCell (c : Cluster K) : Uuid × Uuid × Option String := (c.id, c.ownerId, c.cropObject)

def cropColumn (db : Database K) : List (Uuid × Uuid × Option String) := db.clusters.map cropCell

/-- The second state has the crops of the first, but for the clusters `gone`. -/
def Loses (gone : List Uuid) (db db' : Database K) : Prop :=
  cropColumn db' = (cropColumn db).filter fun cell => cell.1 ∉ gone

theorem loses_nil {db db' : Database K} : Loses [] db db' ↔ cropColumn db' = cropColumn db := by
  simp [Loses]

theorem Loses.mem {gone : List Uuid} {db db' : Database K} (h : Loses gone db db') {c' : Cluster K}
    (hc' : c' ∈ db'.clusters) : c'.id ∉ gone ∧ ∃ c ∈ db.clusters, cropCell c = cropCell c' := by
  have hmem : cropCell c' ∈ cropColumn db' := List.mem_map_of_mem hc'
  rw [h, List.mem_filter, decide_eq_true_eq] at hmem
  exact ⟨hmem.2, List.mem_map.mp hmem.1⟩

theorem Loses.stays {gone : List Uuid} {db db' : Database K} (h : Loses gone db db') {c : Cluster K}
    (hc : c ∈ db.clusters) (hid : c.id ∉ gone) : ∃ c' ∈ db'.clusters, cropCell c' = cropCell c := by
  have hmem : cropCell c ∈ cropColumn db' := by
    rw [h, List.mem_filter, decide_eq_true_eq]
    exact ⟨List.mem_map_of_mem hc, hid⟩
  exact List.mem_map.mp hmem

theorem Loses.of_clusters {gone : List Uuid} {db db' : Database K}
    (h : db'.clusters = db.clusters.filter fun c => c.id ∉ gone) : Loses gone db db' := by
  rw [Loses, cropColumn, cropColumn, h, List.filter_map]
  rfl

theorem Loses.trans_eq {gone : List Uuid} {db db₁ db' : Database K} (h : Loses gone db db₁)
    (h' : cropColumn db' = cropColumn db₁) : Loses gone db db' := h'.trans h

theorem cropColumn_updateClusters (db : Database K) (p : Cluster K → Bool)
    {f : Cluster K → Cluster K} (hf : ∀ c, cropCell (f c) = cropCell c) :
    cropColumn (db.updateClusters p f) = cropColumn db := by
  rw [cropColumn, cropColumn, updateClusters, List.map_map]
  refine List.map_congr_left fun c _ => ?_
  simp only [Function.comp]
  split
  · exact hf c
  · rfl

theorem cropColumn_recount (db : Database K) (now : ℕ) (p : Cluster K → Bool) :
    cropColumn (db.recount now p) = cropColumn db :=
  cropColumn_updateClusters db p fun _ => rfl

section Writes

variable [DecidableEq K] {pf : Platform K} {now : ℕ} {db : Database K}

/-- The writes that leave every crop as it is. -/
def Write.KeepsCrops : Write K → Prop
  | .appendStreamOccurrences .. | .renameCluster .. | .updateClusterCentroid .. => True
  | _ => False

theorem cropColumn_run {wr : Write K} (hwr : wr.KeepsCrops) {fresh : Uuid} {c : Commit K wr.Answer}
    (h : wr.run pf fresh now db = .ok c) : cropColumn c.db = cropColumn db := by
  cases wr with
  | appendStreamOccurrences ownerId streamId items =>
      obtain ⟨db₁, owner, stream, hins, -, -, -, hdb⟩ := appendStreamOccurrences_ok h
      rw [hdb, cropColumn_recount, cropColumn, (insertItems_keeps hins).1]
      rfl
  | renameCluster clusterId ownerId name =>
      rcases renameCluster_ok h with ⟨hdb, -⟩ | ⟨id, row, -, rfl⟩
      · rw [hdb]
      · exact cropColumn_updateClusters db _ fun _ => rfl
  | updateClusterCentroid clusterId ownerId centroid =>
      obtain ⟨id, owner, -, -, rfl⟩ := updateClusterCentroid_ok h
      exact cropColumn_updateClusters db _ fun _ => rfl
  | _ => exact hwr.elim

omit [DecidableEq K] in
theorem deleteCluster_loses {clusterId ownerId : String} {c : Commit K (Option DeletedCluster)}
    (h : deleteCluster db clusterId ownerId = .ok c) :
    (c.result = none ∧ c.db = db ∧ ∀ id row, ¬ Owned db clusterId ownerId id row) ∨
      ∃ id row d, Owned db clusterId ownerId id row ∧ c.result = some d ∧ d.ownerId = ownerId ∧
        d.cropObject = row.cropObject ∧ Loses [id] db c.db := by
  rcases deleteCluster_ok h with rfl | ⟨id, row, streams, hown, rfl⟩
  · refine .inl ⟨rfl, rfl, fun id row hown => ?_⟩
    obtain ⟨c, hc, hsome, -⟩ := deleteCluster_of_owned hown
    cases h.symm.trans hc
    cases hsome
  · refine .inr ⟨id, row, _, hown, rfl, hown.owner, rfl, .of_clusters ?_⟩
    rw [clusters_drop]
    simp

omit [DecidableEq K] in
/-- What is left of a cluster after its sightings in a stream are deleted: its
row, or nothing, if it had no others. -/
theorem emptied_cases (hids : (db.clusters.map (·.id)).Nodup) (now : ℕ) (id stream owner : Uuid) :
    let db₁ := (db.deleteOccurrences (detached id stream owner)).recount now fun c =>
      c.id = id && c.ownerId = owner
    (¬ db₁.clusters.any (emptied id owner) ∧
        cropColumn (db₁.deleteClusters (emptied id owner)) = cropColumn db) ∨
      (db₁.clusters.any (emptied id owner) ∧
        (∀ o ∈ db.occurrences, o.clusterId = id → o.streamId = stream) ∧
        Loses [id] db (db₁.deleteClusters (emptied id owner))) := by
  intro db₁
  have hcolumn : cropColumn db₁ = cropColumn db := cropColumn_recount _ _ _
  by_cases hany : db₁.clusters.any (emptied id owner) = true
  · refine .inr ⟨hany, ?_, ?_⟩
    · obtain ⟨c, hc, hempty⟩ := List.any_eq_true.mp hany
      obtain ⟨c₀, hc₀, rfl⟩ := mem_updateClusters hc
      by_cases hp : (c₀.id = id && c₀.ownerId = owner) = true
      · rw [if_pos hp] at hempty
        simp only [emptied, Bool.and_eq_true, decide_eq_true_eq] at hempty
        -- the recount found no row of the cluster
        intro o ho hoid
        obtain ⟨⟨hid, -⟩, hzero⟩ := hempty
        by_contra hne
        have hin : o ∈ (db.deleteOccurrences (detached id stream owner)).occurrences :=
          mem_deleteOccurrences.mpr ⟨ho, by simp [detached, hne]⟩
        have hnone := List.countP_eq_zero.mp hzero o hin
        rw [decide_eq_true_eq] at hnone
        exact hnone (hoid.trans hid.symm)
      · rw [if_neg hp, emptied, Bool.and_eq_true] at hempty
        exact absurd hempty.1 hp
    · obtain ⟨c, hc, hempty⟩ := List.any_eq_true.mp hany
      have hids₁ : (db₁.clusters.map (·.id)).Nodup := (recount_ids _ _ _).symm ▸ hids
      rw [Loses, ← hcolumn, cropColumn, cropColumn, List.filter_map]
      congr 1
      refine List.filter_congr fun c' hc' => ?_
      simp only [Function.comp, cropCell, List.mem_singleton, decide_not]
      congr 1
      by_cases hid : c'.id = id
      · have hsame : c' = c := List.inj_on_of_nodup_map hids₁ hc' hc (by
          simp only [emptied, Bool.and_eq_true, decide_eq_true_eq] at hempty
          rw [hid, hempty.1.1])
        rw [hsame, hempty, ← hsame]
        simp [hid]
      · simp [emptied, hid]
  · refine .inl ⟨hany, ?_⟩
    rw [← hcolumn, cropColumn, cropColumn, deleteClusters]
    congr 1
    rw [List.filter_eq_self]
    intro c hc
    have hnot : emptied id owner c ≠ true := fun he => hany (List.any_eq_true.mpr ⟨c, hc, he⟩)
    simpa using hnot

omit [DecidableEq K] in
/-- A detachment reports a crop only with the last sightings of its cluster. -/
theorem detachClusterFromStream_loses (hids : (db.clusters.map (·.id)).Nodup)
    {clusterId streamId ownerId : String} {c : Commit K (Option DetachSummary)}
    (h : detachClusterFromStream now db clusterId streamId ownerId = .ok c) :
    (cropColumn c.db = cropColumn db ∧ ∀ d ∈ c.result, d.cropObject = none) ∨
      ∃ id row d stream, Owned db clusterId ownerId id row ∧ castUuid streamId = .ok stream ∧
        (∀ o ∈ db.occurrences, o.clusterId = id → o.streamId = stream) ∧
        c.result = some d ∧ d.cropObject = row.cropObject ∧ Loses [id] db c.db := by
  unfold detachClusterFromStream at h
  obtain ⟨id, hid, h⟩ := bind_eq_ok.mp h
  split at h
  · cases h
    exact .inl ⟨rfl, by simp⟩
  · rename_i row hrow
    split at h
    · cases h
      exact .inl ⟨rfl, by simp⟩
    · rename_i howner
      have hown : Owned db clusterId ownerId id row := ⟨hid, hrow, not_not.mp howner⟩
      obtain ⟨stream, hstream, h⟩ := bind_eq_ok.mp h
      rw [hown.castOwner, ok_bind] at h
      cases h
      rcases emptied_cases hids now id stream row.ownerId with ⟨hany, hdb⟩ | ⟨hany, hlast, hdb⟩
      · refine .inl ⟨hdb, fun d hd => ?_⟩
        cases hd
        exact if_neg hany
      · refine .inr ⟨id, row, _, stream, hown, hstream, hlast, rfl, ?_, hdb⟩
        exact if_pos hany

/-- A merge loses its sources. -/
theorem mergeClusters_loses {ownerId targetId : String} {sourceIds : List String}
    {c : Commit K (Option Merged)}
    (h : mergeClusters pf now db ownerId targetId sourceIds = .ok c) :
    (c.result = none ∧ c.db = db) ∨
      ∃ m, c.result = some m ∧ m.deletedClusterIds = sourceIds ∧
        (∀ cid ∈ sourceIds, ∃ id row, Owned db cid ownerId id row) ∧
        Loses (denoted sourceIds) db c.db := by
  rcases mergeClusters_ok h with rfl | ⟨target, row, affected, st, -, hverify, hst, rfl⟩
  · exact .inl ⟨rfl, rfl⟩
  · refine .inr ⟨_, rfl, rfl, verifySources_true hverify, ?_⟩
    exact (Loses.of_clusters (mergeSources_clusters hst)).trans_eq (cropColumn_recount _ _ _)

end Writes

/-! ### The album -/

/-- A crop that is stored is the last of its cluster, however the id is spelled. -/
def notePut (last : Uuid → Option Bytes) : Call K → Uuid → Option Bytes
  | .putCrop _ clusterId data =>
      match castUuid clusterId with
      | .ok id => Function.update last id (some data)
      | .error _ => last
  | _ => last

/-- The picture last stored for each cluster in the course of a log. -/
def lastStored (log : List (Event K)) : Uuid → Option Bytes :=
  log.foldl (fun last e => notePut last e.op) fun _ => none

structure Album (K : Type) where
  last : Uuid → Option Bytes
  db : Database K
  objects : String → Option Blob

namespace Album

/-- Clusters with a crop have their last picture in the bucket, and every other
crop there is owed. -/
structure Owing (owed : Uuid → Uuid → Prop) (a : Album K) : Prop where
  ids : (a.db.clusters.map (·.id)).Nodup
  shown : ∀ c ∈ a.db.clusters, c.cropObject ≠ none →
    c.cropObject = some (cropKey c.ownerId.text c.id.text) ∧ ∃ data, a.last c.id = some data ∧
      a.objects (cropKey c.ownerId.text c.id.text) = some ⟨data, "image/jpeg"⟩
  backed : ∀ ownerId clusterId id, castUuid clusterId = .ok id →
    a.objects (cropKey ownerId clusterId) ≠ none →
    (∃ c ∈ a.db.clusters, c.cropObject ≠ none ∧ ownerId = c.ownerId.text ∧ clusterId = c.id.text) ∨
      ∃ owner, owed owner id ∧ ownerId = owner.text ∧ clusterId = id.text

abbrev Settled (a : Album K) : Prop := a.Owing fun _ _ => False

variable {a : Album K} {owed : Uuid → Uuid → Prop}

theorem Owing.mono {owed' : Uuid → Uuid → Prop} (h : a.Owing owed)
    (howed : ∀ owner id, owed owner id → owed' owner id) : a.Owing owed' := by
  refine ⟨h.ids, h.shown, fun ownerId clusterId id hid hobj => ?_⟩
  rcases h.backed ownerId clusterId id hid hobj with hc | ⟨owner, ho, hkey⟩
  · exact .inl hc
  · exact .inr ⟨owner, howed owner id ho, hkey⟩

/-- The crops of deleted clusters are owed. -/
theorem Settled.loses (h : a.Settled) {gone : List Uuid} {db' : Database K}
    (hdb : Loses gone a.db db') : Owing (fun owner id => id ∈ gone ∧
      ∃ c ∈ a.db.clusters, c.id = id ∧ c.ownerId = owner ∧ c.cropObject ≠ none)
      ⟨a.last, db', a.objects⟩ := by
  refine ⟨?_, fun c' hc' hcrop => ?_, fun ownerId clusterId id hid hobj => ?_⟩
  · have hids : db'.clusters.map (·.id) = (cropColumn db').map (·.1) := by
      rw [cropColumn, List.map_map]
      rfl
    rw [hids, hdb]
    refine List.Sublist.nodup (List.filter_sublist.map _) ?_
    rw [cropColumn, List.map_map]
    exact h.ids
  · obtain ⟨-, c, hc, hcell⟩ := hdb.mem hc'
    simp only [cropCell, Prod.mk.injEq] at hcell
    obtain ⟨hid, howner, hobject⟩ := hcell
    rw [← hid, ← howner, ← hobject]
    exact h.shown c hc (hobject ▸ hcrop)
  · rcases h.backed ownerId clusterId id hid hobj with ⟨c, hc, hcrop, rfl, rfl⟩ | ⟨owner, hfalse, -⟩
    · by_cases hgone : c.id ∈ gone
      · rw [Uuid.castUuid_text] at hid
        cases hid
        exact .inr ⟨c.ownerId, ⟨hgone, c, hc, rfl, rfl, hcrop⟩, rfl, rfl⟩
      · obtain ⟨c', hc', hcell⟩ := hdb.stays hc hgone
        simp only [cropCell, Prod.mk.injEq] at hcell
        obtain ⟨hid', howner, hobject⟩ := hcell
        exact .inl ⟨c', hc', hobject ▸ hcrop, by rw [howner], by rw [hid']⟩
    · exact hfalse.elim

theorem Settled.keeps (h : a.Settled) {db' : Database K} (hdb : cropColumn db' = cropColumn a.db) :
    Settled ⟨a.last, db', a.objects⟩ :=
  (h.loses (loses_nil.mpr hdb)).mono fun _ _ hgone => by simp at hgone

/-- A new cluster has no crop. -/
theorem Settled.insert (h : a.Settled) {db' : Database K} {c : Cluster K} (hcrop : c.cropObject = none)
    (hins : a.db.insertCluster c = .ok db') : Settled ⟨a.last, db', a.objects⟩ := by
  obtain ⟨hfresh, rfl⟩ := insertCluster_eq_ok hins
  refine ⟨?_, fun c' hc' hcrop' => ?_, fun ownerId clusterId id hid hobj => ?_⟩
  · rw [List.map_append, List.nodup_append]
    refine ⟨h.ids, by simp, fun x hx y hy heq => ?_⟩
    obtain ⟨c', hc', rfl⟩ := List.mem_map.mp hx
    exact hfresh c' hc' (heq.trans (by simpa using hy))
  · rcases List.mem_append.mp hc' with hc' | hc'
    · exact h.shown c' hc' hcrop'
    · rw [List.mem_singleton.mp hc'] at hcrop'
      exact absurd hcrop hcrop'
  · rcases h.backed ownerId clusterId id hid hobj with ⟨c', hc', hrest⟩ | ⟨owner, hfalse, -⟩
    · exact .inl ⟨c', List.mem_append_left _ hc', hrest⟩
    · exact hfalse.elim

/-- A crop stored under the text of its cluster, and noted in the row. -/
theorem Settled.store (h : a.Settled) {c : Cluster K} (hc : c ∈ a.db.clusters) (now : ℕ)
    (data : Bytes) :
    let key := cropKey c.ownerId.text c.id.text
    Settled ⟨notePut a.last (.putCrop (K := K) c.ownerId.text c.id.text data),
      a.db.updateClusters (fun r => r.id = c.id && r.ownerId = c.ownerId) fun r =>
        { r with cropObject := some key, updatedAt := now },
      Function.update a.objects key (some ⟨data, "image/jpeg"⟩)⟩ := by
  intro key
  have hnote : notePut a.last (.putCrop (K := K) c.ownerId.text c.id.text data) =
      Function.update a.last c.id (some data) := by
    rw [notePut, Uuid.castUuid_text]
  have hrow : ∀ r ∈ a.db.clusters, r.id = c.id → r = c := fun r hr hid =>
    List.inj_on_of_nodup_map h.ids hr hc hid
  refine ⟨?_, fun c' hc' hcrop => ?_, fun ownerId clusterId id hid hobj => ?_⟩
  · rw [updateClusters_ids (by intro r; rfl)]
    exact h.ids
  · obtain ⟨r, hr, rfl⟩ := mem_updateClusters hc'
    dsimp only
    rw [hnote]
    by_cases hid : r.id = c.id
    · have hsame := hrow r hr hid
      subst hsame
      rw [if_pos (by simp)]
      exact ⟨rfl, data, Function.update_self .., Function.update_self ..⟩
    · have hp : ¬ (decide (r.id = c.id) && decide (r.ownerId = c.ownerId)) = true := by simp [hid]
      rw [if_neg hp] at hcrop ⊢
      obtain ⟨hkey, data', hlast, hobj⟩ := h.shown r hr hcrop
      have hne : cropKey r.ownerId.text r.id.text ≠ key := fun heq => hid (Uuid.text_injective
        (cropKey_inj (slash_not_mem_text _) (slash_not_mem_text _) heq).2)
      refine ⟨hkey, data', ?_, ?_⟩
      · rw [Function.update_of_ne hid]
        exact hlast
      · rw [Function.update_of_ne hne]
        exact hobj
  · by_cases hkey : cropKey ownerId clusterId = key
    · obtain ⟨rfl, rfl⟩ := cropKey_inj (slash_not_mem hid) (slash_not_mem_text _) hkey
      refine .inl ⟨_, updateClusters_mem hc, ?_⟩
      rw [if_pos (by simp)]
      exact ⟨Option.some_ne_none _, rfl, rfl⟩
    · dsimp only at hobj
      rw [Function.update_of_ne hkey] at hobj
      rcases h.backed ownerId clusterId id hid hobj with ⟨r, hr, hcrop, rfl, rfl⟩ | ⟨owner, hfalse, -⟩
      · have hne : ¬ r.id = c.id := fun heq => hkey (by rw [hrow r hr heq])
        refine .inl ⟨_, updateClusters_mem hr, ?_⟩
        rw [if_neg (by simp [hne])]
        exact ⟨hcrop, rfl, rfl⟩
      · exact hfalse.elim

/-- A purge settles what is owed under its key. -/
theorem Owing.purge (h : a.Owing owed) {ownerId clusterId : String} {id : Uuid}
    (hid : castUuid clusterId = .ok id) (hdead : ∀ c ∈ a.db.clusters, c.id ≠ id) :
    Owing (fun owner id' => owed owner id' ∧ ¬ (owner.text = ownerId ∧ id'.text = clusterId))
      ⟨a.last, a.db, Function.update a.objects (cropKey ownerId clusterId) none⟩ := by
  refine ⟨h.ids, fun c hc hcrop => ?_, fun ownerId' clusterId' id' hid' hobj => ?_⟩
  · obtain ⟨hkey, data, hlast, hobj⟩ := h.shown c hc hcrop
    have hne : cropKey c.ownerId.text c.id.text ≠ cropKey ownerId clusterId := by
      intro heq
      have hcluster := (cropKey_inj (slash_not_mem_text _) (slash_not_mem hid) heq).2
      rw [← hcluster, Uuid.castUuid_text] at hid
      exact hdead c hc (Except.ok.inj hid)
    refine ⟨hkey, data, hlast, ?_⟩
    dsimp only
    rw [Function.update_of_ne hne]
    exact hobj
  · dsimp only at hobj
    by_cases hkey : cropKey ownerId' clusterId' = cropKey ownerId clusterId
    · rw [hkey, Function.update_self] at hobj
      exact absurd rfl hobj
    · rw [Function.update_of_ne hkey] at hobj
      rcases h.backed ownerId' clusterId' id' hid' hobj with hc | ⟨owner, howed, rfl, rfl⟩
      · exact .inl hc
      · exact .inr ⟨owner, ⟨howed, fun hsame => hkey (by rw [hsame.1, hsame.2])⟩, rfl, rfl⟩

end Album

/-! ### Programs -/

/-- The album a world shows, given what was stored so far. -/
def albumOf (s : (Uuid → Option Bytes) × World K) : Album K := ⟨s.1, s.2.db, s.2.objects⟩

/-- The calls that leave the album as it is. -/
inductive Looks : Call K → Prop
  | query (q : Query K) : Looks (.query q)
  | getFrame (pre : String) (index : ℕ) : Looks (.getFrame pre index)
  | getCrop (ownerId clusterId : String) : Looks (.getCrop ownerId clusterId)
  | cacheLookup (ownerId : String) : Looks (.cacheLookup ownerId)
  | cacheStore (ownerId : String) (epoch : ℕ) (value : SuggestionIndex K) :
      Looks (.cacheStore ownerId epoch value)
  | poll : Looks .poll

/-- The owner of each cluster. -/
def ownerColumn (db : Database K) : List (Uuid × Uuid) := db.clusters.map fun c => (c.id, c.ownerId)

theorem ownerColumn_eq {db db' : Database K} (h : cropColumn db' = cropColumn db) :
    ownerColumn db' = ownerColumn db := by
  have hcells : ∀ db : Database K,
      ownerColumn db = (cropColumn db).map fun cell => (cell.1, cell.2.1) := by
    intro db
    rw [ownerColumn, cropColumn, List.map_map]
    rfl
  rw [hcells, hcells, h]

section Leads

variable [Arithmetic K] {svc : Service K} {oracle : Oracle}

/-- A program that leads from an album in `A` to one in `B`, or to one in `E` if
it raises. -/
abbrev Leads (svc : Service K) (oracle : Oracle) {α : Type} (A : Album K → Prop) (p : Program K α)
    (B : α → Album K → Prop) (E : Album K → Prop) : Prop :=
  Triple (observe notePut (answer svc.pf oracle)) (fun s => A (albumOf s)) p
    (fun a s => B a (albumOf s)) fun s => E (albumOf s)

variable {A E : Album K → Prop} {α : Type}

/-- A program that only looks keeps what holds of the album; what it returns is
what it returns in a world like that. -/
theorem looks_leads {p : Program K α} (hp : p.Within Looks fun _ => True) :
    Leads svc oracle A p (fun r a => A a ∧ ∃ w w', w.db = a.db ∧ w.objects = a.objects ∧
      p.exec (answer svc.pf oracle) w = (.ok r, w')) A := by
  refine Triple.of_exec (C := Looks) (fun last op hop => by cases hop <;> rfl) hp fun last => ?_
  intro w hA
  have hsame : (p.exec (answer svc.pf oracle) w).2.db = w.db ∧
      (p.exec (answer svc.pf oracle) w).2.objects = w.objects := by
    refine (exec_within (I := fun w' : World K => w'.db = w.db ∧ w'.objects = w.objects) ?_
      (fun _ _ _ _ _ => trivial) hp ⟨rfl, rfl⟩).1
    intro op w' hop hw'
    cases hop <;> exact hw'
  have hA' : A (albumOf (last, (p.exec (answer svc.pf oracle) w).2)) := by
    rw [albumOf, hsame.1, hsame.2]
    exact hA
  rcases hexec : p.exec (answer svc.pf oracle) w with ⟨_ | r, w'⟩ <;> rw [hexec] at hA' hsame
  · exact hA'
  · exact ⟨hA', w, w', hsame.1.symm, hsame.2.symm, hexec⟩

/-- The same, when the answer does not matter. -/
theorem looks_keeps {p : Program K α} (hp : p.Within Looks fun _ => True) :
    Leads svc oracle A p (fun _ => A) A :=
  (looks_leads hp).conseq (fun _ h => h) (fun _ _ h => h.1) fun _ h => h

theorem write_leads {wr : Write K} {B : wr.Answer → Album K → Prop}
    (hok : ∀ a fresh now c, A a → wr.run svc.pf fresh now a.db = .ok c →
      B c.result ⟨a.last, c.db, a.objects⟩)
    (herror : ∀ a fresh now e, A a → wr.run svc.pf fresh now a.db = .error e → E a) :
    Leads svc oracle A (write wr) B E := by
  refine Triple.of_exec (C := fun op => op = .write wr) (fun last op hop => by rw [hop]; rfl)
    (within_perform rfl) fun last => Triple.performed fun w hA => ?_
  rw [answer, Call.effect]
  cases hrun : wr.run svc.pf (oracle.fresh w.draws) (oracle.clock w.calls) w.db with
  | error e => exact herror _ _ _ e hA hrun
  | ok c =>
      have h := hok _ _ _ c hA hrun
      simpa [Ends, albumOf] using h

variable {X : List (Uuid × Uuid) → Prop}

/-- A settled album, with something known of its clusters. -/
def Peopled (X : List (Uuid × Uuid) → Prop) (a : Album K) : Prop := a.Settled ∧ X (ownerColumn a.db)

theorem keepsCrops_leads {wr : Write K} (hwr : wr.KeepsCrops) :
    Leads svc oracle (Peopled X) (write wr) (fun _ => Peopled X) (Peopled X) := by
  refine write_leads (fun a fresh now c ⟨hset, hX⟩ hrun => ?_) fun _ _ _ _ hA _ => hA
  have hcolumn := cropColumn_run hwr hrun
  exact ⟨hset.keeps hcolumn, by rw [ownerColumn_eq hcolumn]; exact hX⟩

theorem upsert_leads (ownerId : String) (name : Option String) (isNamed : Bool) (centroid : List K) :
    Leads svc oracle (Peopled X) (write (.upsertCluster ownerId name isNamed centroid))
      (fun id => Peopled fun cs => ∃ owner cs₀, castUuid ownerId = .ok owner ∧ X cs₀ ∧
        cs = cs₀ ++ [(id, owner)]) (Peopled X) := by
  refine write_leads (fun a fresh now c ⟨hset, hX⟩ hrun => ?_) fun _ _ _ _ hA _ => hA
  obtain ⟨owner, howner, hresult, -, hins⟩ := upsertCluster_ok hrun
  refine ⟨hset.insert (by rfl) hins, owner, ownerColumn a.db, howner, hX, ?_⟩
  rw [ownerColumn, (insertCluster_eq_ok hins).2, List.map_append, hresult]
  rfl

/-- A crop is stored, but not yet noted in the row. -/
def Pending (X : List (Uuid × Uuid) → Prop) (owner id : Uuid) (data : Bytes) (a : Album K) : Prop :=
  ∃ a₀, Peopled X a₀ ∧ (id, owner) ∈ ownerColumn a₀.db ∧
    a = ⟨notePut a₀.last (.putCrop (K := K) owner.text id.text data), a₀.db,
      Function.update a₀.objects (cropKey owner.text id.text) (some ⟨data, "image/jpeg"⟩)⟩

theorem putCrop_leads (owner id : Uuid) (data : Bytes) :
    Leads svc oracle (fun a => Peopled X a ∧ (id, owner) ∈ ownerColumn a.db)
      (call (.putCrop owner.text id.text data))
      (fun key a => key = cropKey owner.text id.text ∧ Pending X owner id data a) E :=
  Triple.performed fun s h => ⟨rfl, albumOf s, h.1, h.2, rfl⟩

theorem setCrop_leads (owner id : Uuid) (data : Bytes) :
    Leads svc oracle (Pending X owner id data)
      (write (.setClusterCrop id.text owner.text (some (cropKey owner.text id.text))))
      (fun _ => Peopled X) E := by
  refine write_leads ?_ ?_
  · rintro a fresh now c ⟨a₀, ⟨hset, hX⟩, hmem, rfl⟩ hrun
    obtain ⟨id', owner', hid, howner, rfl⟩ := setClusterCrop_ok hrun
    rw [Uuid.castUuid_text] at hid howner
    cases hid
    cases howner
    obtain ⟨r, hr, hcell⟩ := List.mem_map.mp hmem
    rw [Prod.mk.injEq] at hcell
    obtain ⟨rfl, rfl⟩ := hcell
    refine ⟨hset.store hr now data, ?_⟩
    have howners : ownerColumn (a₀.db.updateClusters (fun c => c.id = r.id && c.ownerId = r.ownerId)
        fun c => { c with cropObject := some (cropKey r.ownerId.text r.id.text), updatedAt := now }) =
          ownerColumn a₀.db := by
      rw [ownerColumn, ownerColumn, updateClusters, List.map_map]
      refine List.map_congr_left fun c _ => ?_
      simp only [Function.comp]
      split <;> rfl
    dsimp only
    rw [howners]
    exact hX
  · rintro a fresh now e - hrun
    rw [Write.run, setClusterCrop, Uuid.castUuid_text, Uuid.castUuid_text] at hrun
    cases hrun

end Leads

end FacesService
