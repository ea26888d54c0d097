import FacesService.Model.Writes

/-!
What each SQL statement does to the two facts the store rests on.

`Linked` is the part of the invariant that every single statement keeps:
primary keys, foreign keys with agreeing owners, the unique key, and names that
agree with their flag. `CountsOutside s` is the part a transaction breaks and
mends: `sample_count` is right for every cluster whose id is not in `s`. The
set `s` grows where rows are inserted or deleted and is emptied by the
recount, so a transaction is proved by following `s` through its statements.
-/

namespace FacesService

variable {K : Type}

/-- The flag tells whether there is a name, and a name is trimmed. -/
def Cluster.WellNamed (c : Cluster K) : Prop :=
  c.isNamed = c.name.isSome ∧ ∀ n, c.name = some n → n ≠ "" ∧ Trimmed n

/-- The row belongs to the user with this id, in whatever spelling. -/
def isMine (userId : String) (owner : Uuid) : Bool := castUuid userId = .ok owner

theorem isMine_iff {userId : String} {owner : Uuid} :
    isMine userId owner = true ↔ castUuid userId = .ok owner := by
  simp [isMine]

theorem isMine_text (owner : Uuid) : isMine owner.text owner = true :=
  isMine_iff.mpr (Uuid.castUuid_text owner)

namespace Database

structure Linked (db : Database K) : Prop where
  ids : (db.clusters.map (·.id)).Nodup
  owned : ∀ o ∈ db.occurrences, ∃ c ∈ db.clusters, c.id = o.clusterId ∧ c.ownerId = o.ownerId
  keys : (db.occurrences.map (·.key)).Nodup
  named : ∀ c ∈ db.clusters, c.WellNamed

def CountsOutside (s : Uuid → Prop) (db : Database K) : Prop :=
  ∀ c ∈ db.clusters, ¬ s c.id → c.sampleCount = db.countFor c.id

/-! ### Looking up a cluster -/

theorem mem_of_clusterById {db : Database K} {id : Uuid} {c : Cluster K}
    (h : db.clusterById id = some c) : c ∈ db.clusters ∧ c.id = id :=
  ⟨List.mem_of_find?_eq_some h, by simpa using List.find?_some h⟩

theorem clusterById_eq_none {db : Database K} {id : Uuid} :
    db.clusterById id = none ↔ ∀ c ∈ db.clusters, c.id ≠ id := by
  simp [clusterById]

/-- The primary key: one row for one id. -/
theorem Linked.eq_of_id {db : Database K} (h : db.Linked) {c c' : Cluster K}
    (hc : c ∈ db.clusters) (hc' : c' ∈ db.clusters) (hid : c.id = c'.id) : c = c' :=
  List.inj_on_of_nodup_map h.ids hc hc' hid

theorem clusterById_of_nodup {db : Database K} (hids : (db.clusters.map (·.id)).Nodup) {c : Cluster K}
    (hc : c ∈ db.clusters) : db.clusterById c.id = some c := by
  cases hfind : db.clusterById c.id with
  | none => exact absurd rfl (clusterById_eq_none.mp hfind c hc)
  | some c' =>
      obtain ⟨hc', hid⟩ := mem_of_clusterById hfind
      rw [List.inj_on_of_nodup_map hids hc' hc hid]

theorem Linked.clusterById_mem {db : Database K} (h : db.Linked) {c : Cluster K}
    (hc : c ∈ db.clusters) : db.clusterById c.id = some c :=
  clusterById_of_nodup h.ids hc

/-! ### `UPDATE` -/

@[simp] theorem occurrences_updateClusters (db : Database K) (p : Cluster K → Bool)
    (f : Cluster K → Cluster K) : (db.updateClusters p f).occurrences = db.occurrences := rfl

@[simp] theorem countFor_updateClusters (db : Database K) (p : Cluster K → Bool)
    (f : Cluster K → Cluster K) (id : Uuid) :
    (db.updateClusters p f).countFor id = db.countFor id := rfl

theorem mem_updateClusters {db : Database K} {p : Cluster K → Bool} {f : Cluster K → Cluster K}
    {c : Cluster K} (h : c ∈ (db.updateClusters p f).clusters) :
    ∃ c₀ ∈ db.clusters, c = if p c₀ then f c₀ else c₀ := by
  obtain ⟨c₀, hc₀, rfl⟩ := List.mem_map.mp h
  exact ⟨c₀, hc₀, rfl⟩

theorem updateClusters_mem {db : Database K} {p : Cluster K → Bool} {f : Cluster K → Cluster K}
    {c : Cluster K} (h : c ∈ db.clusters) :
    (if p c then f c else c) ∈ (db.updateClusters p f).clusters :=
  List.mem_map_of_mem h

theorem clusterById_updateClusters {db : Database K} {p : Cluster K → Bool}
    {f : Cluster K → Cluster K} (hid : ∀ c, (f c).id = c.id) (id : Uuid) :
    (db.updateClusters p f).clusterById id =
      (db.clusterById id).map fun c => if p c then f c else c := by
  unfold clusterById Database.updateClusters
  rw [List.find?_map]
  congr 1
  refine List.find?_congr fun c _ => ?_
  simp only [Function.comp]
  split
  · rw [hid]
  · rfl

theorem clusterById_congr {db db' : Database K} {q : Cluster K → Bool} {id : Uuid}
    (h : db'.clusters = db.clusters.filter q) (hq : ∀ c ∈ db.clusters, c.id = id → q c = true) :
    db'.clusterById id = db.clusterById id := by
  unfold clusterById
  rw [h, List.find?_filter]
  refine List.find?_congr fun c hc => ?_
  by_cases hid : c.id = id
  · simp [hid, hq c hc hid]
  · simp [hid]

theorem updateClusters_ids {db : Database K} {p : Cluster K → Bool} {f : Cluster K → Cluster K}
    (hid : ∀ c, (f c).id = c.id) :
    (db.updateClusters p f).clusters.map (·.id) = db.clusters.map (·.id) := by
  simp only [Database.updateClusters, List.map_map]
  refine List.map_congr_left fun c _ => ?_
  simp only [Function.comp]
  split <;> simp [hid]

/-- Rows an update does not reach stay, in their order. -/
theorem filter_updateClusters {db : Database K} {p q : Cluster K → Bool}
    {f : Cluster K → Cluster K} (h : ∀ c ∈ db.clusters, p c → q c = false ∧ q (f c) = false) :
    (db.updateClusters p f).clusters.filter q = db.clusters.filter q := by
  simp only [Database.updateClusters]
  generalize db.clusters = rows at h
  induction rows with
  | nil => rfl
  | cons c rows ih =>
      have ih := ih fun c hc => h c (List.mem_cons_of_mem _ hc)
      rw [List.map_cons, List.filter_cons, List.filter_cons, ih]
      by_cases hp : p c
      · obtain ⟨hq, hqf⟩ := h c List.mem_cons_self hp
        simp [hp, hq, hqf]
      · simp [hp]

theorem Linked.updateClusters {db : Database K} (h : db.Linked) {p : Cluster K → Bool}
    {f : Cluster K → Cluster K} (hid : ∀ c, (f c).id = c.id)
    (howner : ∀ c, (f c).ownerId = c.ownerId) (hname : ∀ c ∈ db.clusters, (f c).WellNamed) :
    (db.updateClusters p f).Linked where
  ids := by
    rw [updateClusters_ids hid]
    exact h.ids
  owned := by
    intro o ho
    obtain ⟨c, hc, hcid, hco⟩ := h.owned o ho
    refine ⟨_, updateClusters_mem hc, ?_⟩
    split <;> simp [hid, howner, hcid, hco]
  keys := h.keys
  named := by
    intro c hc
    obtain ⟨c₀, hc₀, rfl⟩ := mem_updateClusters hc
    split
    · exact hname c₀ hc₀
    · exact h.named c₀ hc₀

theorem CountsOutside.updateClusters {db : Database K} {s : Uuid → Prop} (h : db.CountsOutside s)
    {p : Cluster K → Bool} {f : Cluster K → Cluster K} (hid : ∀ c, (f c).id = c.id)
    (hcount : ∀ c, (f c).sampleCount = c.sampleCount) : (db.updateClusters p f).CountsOutside s := by
  intro c hc hs
  obtain ⟨c₀, hc₀, rfl⟩ := mem_updateClusters hc
  rw [countFor_updateClusters]
  by_cases hp : p c₀
  · simp only [hp, if_true, hid, hcount] at hs ⊢
    exact h c₀ hc₀ hs
  · simp only [hp] at hs ⊢
    exact h c₀ hc₀ hs

theorem Linked.recount {db : Database K} (h : db.Linked) (now : ℕ) (p : Cluster K → Bool) :
    (db.recount now p).Linked :=
  h.updateClusters (fun _ => rfl) (fun _ => rfl) fun c hc => h.named c hc

theorem clusterById_recount (db : Database K) (now : ℕ) (p : Cluster K → Bool) (id : Uuid) :
    (db.recount now p).clusterById id = (db.clusterById id).map fun c =>
      if p c then { c with sampleCount := db.countFor c.id, updatedAt := now } else c := by
  rw [recount]
  refine clusterById_updateClusters ?_ id
  exact fun _ => rfl

theorem recount_ids (db : Database K) (now : ℕ) (p : Cluster K → Bool) :
    (db.recount now p).clusters.map (·.id) = db.clusters.map (·.id) :=
  updateClusters_ids fun _ => rfl

theorem recount_mem {db : Database K} (now : ℕ) {p : Cluster K → Bool} {c : Cluster K}
    (h : c ∈ db.clusters) (hp : p c) :
    { c with sampleCount := db.countFor c.id, updatedAt := now } ∈ (db.recount now p).clusters := by
  have hmem := updateClusters_mem (p := p)
    (f := fun c => { c with sampleCount := db.countFor c.id, updatedAt := now }) h
  rw [if_pos hp] at hmem
  exact hmem

/-- The recount mends the clusters it covers. -/
theorem CountsOutside.recount {db : Database K} {s s' : Uuid → Prop} (h : db.CountsOutside s)
    {now : ℕ} {p : Cluster K → Bool} (hcover : ∀ c ∈ db.clusters, s c.id → s' c.id ∨ p c) :
    (db.recount now p).CountsOutside s' := by
  intro c hc hs
  obtain ⟨c₀, hc₀, rfl⟩ := mem_updateClusters hc
  by_cases hp : p c₀
  · simp only [hp, if_true]
    rfl
  · simp only [hp] at hs ⊢
    refine h c₀ hc₀ fun hs₀ => ?_
    rcases hcover c₀ hc₀ hs₀ with hs' | hp'
    · exact hs hs'
    · exact hp hp'

/-! ### `DELETE` -/

@[simp] theorem clusters_deleteOccurrences (db : Database K) (p : Occurrence K → Bool) :
    (db.deleteOccurrences p).clusters = db.clusters := rfl

theorem mem_deleteOccurrences {db : Database K} {p : Occurrence K → Bool} {o : Occurrence K} :
    o ∈ (db.deleteOccurrences p).occurrences ↔ o ∈ db.occurrences ∧ p o = false := by
  simp [deleteOccurrences]

theorem mem_deleteClusters {db : Database K} {p : Cluster K → Bool} {c : Cluster K} :
    c ∈ (db.deleteClusters p).clusters ↔ c ∈ db.clusters ∧ p c = false := by
  simp [deleteClusters]

theorem mem_occurrences_deleteClusters {db : Database K} {p : Cluster K → Bool}
    {o : Occurrence K} : o ∈ (db.deleteClusters p).occurrences ↔
      o ∈ db.occurrences ∧ ∀ c ∈ db.clusters, p c → c.id ≠ o.clusterId := by
  simp [deleteClusters]

/-- A cluster is deleted after its rows, so the cascade finds nothing to do. -/
theorem occurrences_drop (db : Database K) (id : Uuid) :
    ((db.deleteOccurrences fun o => o.clusterId = id).deleteClusters fun c => c.id = id).occurrences =
      db.occurrences.filter fun o => o.clusterId ≠ id := by
  simp only [deleteClusters, deleteOccurrences, List.filter_filter]
  refine List.filter_congr fun o _ => ?_
  by_cases ho : o.clusterId = id
  · simp [ho]
  · have hany : ∀ c : Cluster K, c.id = id → ¬ c.id = o.clusterId :=
      fun c hc heq => ho (heq.symm.trans hc)
    simpa [ho] using fun c _ hc => hany c hc

theorem clusters_drop (db : Database K) (id : Uuid) :
    ((db.deleteOccurrences fun o => o.clusterId = id).deleteClusters fun c => c.id = id).clusters =
      db.clusters.filter fun c => c.id ≠ id := by
  simp [deleteClusters, deleteOccurrences]

theorem Linked.deleteOccurrences {db : Database K} (h : db.Linked) (p : Occurrence K → Bool) :
    (db.deleteOccurrences p).Linked where
  ids := h.ids
  owned o ho := h.owned o (mem_deleteOccurrences.mp ho).1
  keys := h.keys.sublist ((List.filter_sublist).map _)
  named := h.named

theorem Linked.deleteClusters {db : Database K} (h : db.Linked) (p : Cluster K → Bool) :
    (db.deleteClusters p).Linked where
  ids := h.ids.sublist ((List.filter_sublist).map _)
  owned := by
    intro o ho
    obtain ⟨ho, hkept⟩ := mem_occurrences_deleteClusters.mp ho
    obtain ⟨c, hc, hid, howner⟩ := h.owned o ho
    refine ⟨c, mem_deleteClusters.mpr ⟨hc, ?_⟩, hid, howner⟩
    by_contra hp
    exact hkept c hc (by simpa using hp) hid
  keys := h.keys.sublist ((List.filter_sublist).map _)
  named c hc := h.named c (mem_deleteClusters.mp hc).1

/-- Deleting rows unsettles the counts of the clusters they belong to. -/
theorem CountsOutside.deleteOccurrences {db : Database K} {s : Uuid → Prop}
    (h : db.CountsOutside s) {p : Occurrence K → Bool}
    (hp : ∀ o ∈ db.occurrences, p o → s o.clusterId) : (db.deleteOccurrences p).CountsOutside s := by
  intro c hc hs
  rw [h c hc hs]
  simp only [countFor, Database.deleteOccurrences, List.countP_filter]
  refine List.countP_congr fun o ho => ?_
  constructor
  · intro hid
    have hid' : o.clusterId = c.id := by simpa using hid
    have : p o = false := by
      by_contra hpo
      exact hs (hid' ▸ hp o ho (by simpa using hpo))
    simp [hid', this]
  · intro hboth
    exact (Bool.and_eq_true _ _ ▸ hboth : _ ∧ _).1

/-- Deleting a cluster takes its own rows with it and no others. -/
theorem countFor_deleteClusters {db : Database K} (hl : db.Linked) {p : Cluster K → Bool}
    {c : Cluster K} (hc : c ∈ db.clusters) (hp : p c = false) :
    (db.deleteClusters p).countFor c.id = db.countFor c.id := by
  simp only [countFor, deleteClusters, List.countP_filter]
  refine List.countP_congr fun o _ => ?_
  constructor
  · intro hboth
    exact (Bool.and_eq_true _ _ ▸ hboth : _ ∧ _).1
  · intro hid
    have hid' : o.clusterId = c.id := by simpa using hid
    simp only [hid', Bool.and_eq_true, decide_eq_true_eq, Bool.not_eq_true', List.any_eq_false,
      true_and]
    rintro c' hc' ⟨hp', hcid⟩
    rw [hl.eq_of_id hc' hc hcid] at hp'
    simp [hp] at hp'

theorem CountsOutside.deleteClusters {db : Database K} {s s' : Uuid → Prop} (hl : db.Linked)
    (h : db.CountsOutside s) {p : Cluster K → Bool}
    (hs : ∀ c ∈ db.clusters, s c.id → s' c.id ∨ p c) : (db.deleteClusters p).CountsOutside s' := by
  intro c hc hs'
  obtain ⟨hc, hp⟩ := mem_deleteClusters.mp hc
  rw [countFor_deleteClusters hl hc hp]
  refine h c hc fun hsc => ?_
  rcases hs c hc hsc with hsc' | hpc
  · exact hs' hsc'
  · simp [hp] at hpc

/-! ### `INSERT` -/

theorem insertCluster_eq_ok {db db' : Database K} {c : Cluster K}
    (h : db.insertCluster c = .ok db') :
    (∀ c' ∈ db.clusters, c'.id ≠ c.id) ∧ db' = { db with clusters := db.clusters ++ [c] } := by
  unfold insertCluster at h
  split at h
  · cases h
  · rename_i hnone
    cases h
    exact ⟨clusterById_eq_none.mp hnone, rfl⟩

theorem Linked.insertCluster {db db' : Database K} (h : db.Linked) {c : Cluster K}
    (hname : c.WellNamed) (hins : db.insertCluster c = .ok db') : db'.Linked := by
  obtain ⟨hfresh, rfl⟩ := insertCluster_eq_ok hins
  refine ⟨?_, ?_, h.keys, ?_⟩
  · simp only [List.map_append, List.map_cons, List.map_nil]
    refine List.nodup_append.mpr ⟨h.ids, by simp, ?_⟩
    intro a ha b hb
    obtain ⟨c', hc', rfl⟩ := List.mem_map.mp ha
    rw [List.mem_singleton.mp hb]
    exact hfresh c' hc'
  · intro o ho
    obtain ⟨c', hc', hboth⟩ := h.owned o ho
    exact ⟨c', by simp [hc'], hboth⟩
  · intro c' hc'
    rcases List.mem_append.mp hc' with hc' | hc'
    · exact h.named c' hc'
    · rw [List.mem_singleton.mp hc']
      exact hname

/-- No row can refer to an id that was not in use, so a new cluster starts at
the count zero it is inserted with. -/
theorem CountsOutside.insertCluster {db db' : Database K} (hl : db.Linked) {s : Uuid → Prop}
    (h : db.CountsOutside s) {c : Cluster K} (hcount : c.sampleCount = 0)
    (hins : db.insertCluster c = .ok db') : db'.CountsOutside s := by
  obtain ⟨hfresh, rfl⟩ := insertCluster_eq_ok hins
  intro c' hc' hs
  rcases List.mem_append.mp hc' with hc' | hc'
  · exact h c' hc' hs
  · rw [List.mem_singleton.mp hc', hcount]
    symm
    simp only [countFor, List.countP_eq_zero, decide_eq_true_eq]
    intro o ho hid
    obtain ⟨c₀, hc₀, hid₀, -⟩ := hl.owned o ho
    exact hfresh c₀ hc₀ (hid₀.trans hid)

variable [DecidableEq K]

theorem insertOccurrence_eq_ok {db db' : Database K} {o : Occurrence K}
    (h : db.insertOccurrence o = .ok db') :
    (∀ o' ∈ db.occurrences, o'.key ≠ o.key) ∧ (∃ c ∈ db.clusters, c.id = o.clusterId) ∧
      db' = { db with occurrences := db.occurrences ++ [o] } := by
  unfold insertOccurrence at h
  split at h
  · cases h
  · rename_i hkey
    split at h
    · cases h
    · rename_i c hc
      cases h
      exact ⟨by simpa using hkey, ⟨c, mem_of_clusterById hc⟩, rfl⟩

/-- Only a constraint makes the plain insert fail. -/
theorem insertOccurrence_error {db : Database K} {o : Occurrence K} {e : PyError}
    (h : db.insertOccurrence o = .error e) : e = .integrity := by
  unfold insertOccurrence at h
  split at h
  · cases h
    rfl
  · split at h
    · cases h
      rfl
    · cases h

/-- `ON CONFLICT DO NOTHING` either finds the key taken and does nothing, or
is the plain insert. -/
theorem insertOccurrenceIfNew_eq_ok {db db' : Database K} {o : Occurrence K} {n : ℕ}
    (h : db.insertOccurrenceIfNew o = .ok (n, db')) :
    (n = 0 ∧ db' = db ∧ ∃ o' ∈ db.occurrences, o'.key = o.key) ∨
      (n = 1 ∧ db.insertOccurrence o = .ok db') := by
  unfold insertOccurrenceIfNew at h
  unfold insertOccurrence
  split at h
  · rename_i hkey
    cases h
    obtain ⟨o', ho', heq⟩ := List.any_eq_true.mp hkey
    exact .inl ⟨rfl, rfl, o', ho', by simpa using heq⟩
  · rename_i hkey
    simp only [hkey]
    split at h
    · cases h
    · rename_i c hc
      cases h
      exact .inr ⟨rfl, by simp⟩

theorem Linked.insertOccurrence {db db' : Database K} (h : db.Linked) {o : Occurrence K}
    (howner : ∀ c ∈ db.clusters, c.id = o.clusterId → c.ownerId = o.ownerId)
    (hins : db.insertOccurrence o = .ok db') : db'.Linked := by
  obtain ⟨hkey, ⟨c, hc, hid⟩, rfl⟩ := insertOccurrence_eq_ok hins
  refine ⟨h.ids, ?_, ?_, h.named⟩
  · intro o' ho'
    rcases List.mem_append.mp ho' with ho' | ho'
    · exact h.owned o' ho'
    · rw [List.mem_singleton.mp ho']
      exact ⟨c, hc, hid, howner c hc hid⟩
  · simp only [List.map_append, List.map_cons, List.map_nil]
    refine List.nodup_append.mpr ⟨h.keys, by simp, ?_⟩
    intro a ha b hb
    obtain ⟨o', ho', rfl⟩ := List.mem_map.mp ha
    rw [List.mem_singleton.mp hb]
    exact hkey o' ho'

theorem CountsOutside.insertOccurrence {db db' : Database K} {s : Uuid → Prop}
    (h : db.CountsOutside s) {o : Occurrence K} (hs : s o.clusterId)
    (hins : db.insertOccurrence o = .ok db') : db'.CountsOutside s := by
  obtain ⟨-, -, rfl⟩ := insertOccurrence_eq_ok hins
  intro c hc hsc
  rw [h c hc hsc]
  have hne : o.clusterId ≠ c.id := fun heq => hsc (heq ▸ hs)
  simp [countFor, hne]

end Database

end FacesService
