import FacesService.Store.Specs

/-!
Purging the tables of rows: the rows go, the clusters that had some of them are
recounted, and those left without a row go too. `cascade_stream` purges the rows
of a stream and `detach_cluster_from_stream` those of one cluster in a stream.
Up to the timestamps, to purge twice is to purge once of both.
-/

namespace FacesService

open Database Fallible Db

variable {K : Type}

/-! ### Settling clusters -/

/-- A cluster recounted, or gone. -/
def settleCluster (now : ℕ) (db : Database K) (ids : List Uuid) (c : Cluster K) : Option (Cluster K) :=
  if c.id ∈ ids then
    if db.countFor c.id = 0 then none
    else some { c with sampleCount := db.countFor c.id, updatedAt := now }
  else some c

theorem settleCluster_eq_none {now : ℕ} {db : Database K} {ids : List Uuid} {c : Cluster K} :
    settleCluster now db ids c = none ↔ c.id ∈ ids ∧ db.countFor c.id = 0 := by
  unfold settleCluster
  by_cases hid : c.id ∈ ids <;> by_cases hzero : db.countFor c.id = 0 <;> simp [hid, hzero]

/-- A row that stays gets a new count at most. -/
theorem settleCluster_some {now : ℕ} {db : Database K} {ids : List Uuid} {c c' : Cluster K}
    (h : settleCluster now db ids c = some c') :
    c' = { c with sampleCount := c'.sampleCount, updatedAt := c'.updatedAt } := by
  unfold settleCluster at h
  split at h
  · split at h
    · cases h
    · cases h
      rfl
  · cases h
    rfl

theorem settleCluster_keeps {now : ℕ} {db : Database K} {ids : List Uuid} {c c' : Cluster K}
    (h : settleCluster now db ids c = some c') : c'.id = c.id ∧ c'.ownerId = c.ownerId := by
  rw [settleCluster_some h]
  exact ⟨rfl, rfl⟩

/-- The listed clusters recounted, and the empty ones of them gone. -/
def settle (now : ℕ) (ids : List Uuid) (db : Database K) : Database K :=
  { db with clusters := db.clusters.filterMap (settleCluster now db ids) }

@[simp] theorem settle_occurrences (now : ℕ) (ids : List Uuid) (db : Database K) :
    (settle now ids db).occurrences = db.occurrences := rfl

@[simp] theorem settle_countFor (now : ℕ) (ids : List Uuid) (db : Database K) (id : Uuid) :
    (settle now ids db).countFor id = db.countFor id := rfl

theorem settle_congr {ids ids' : List Uuid} (h : ∀ id, id ∈ ids ↔ id ∈ ids') (now : ℕ)
    (db : Database K) : settle now ids db = settle now ids' db := by
  unfold settle
  congr 1
  exact List.filterMap_congr fun c _ => by simp only [settleCluster, h]

theorem settle_nil (now : ℕ) (db : Database K) : settle now [] db = db := by
  have hkeep : settleCluster now db [] = some := by
    funext c
    simp [settleCluster]
  simp [settle, hkeep]

/-- A recount and a delete of what is empty, as the code has them. -/
theorem settle_of_recount {db : Database K} {now : ℕ} {p : Cluster K → Bool} {ids : List Uuid}
    (hp : ∀ c ∈ db.clusters, p c = decide (c.id ∈ ids))
    (hstable : ∀ (c : Cluster K) n t, p { c with sampleCount := n, updatedAt := t } = p c) :
    (db.recount now p).deleteClusters (fun c => p c && c.sampleCount = 0) = settle now ids db := by
  have hrows : ∀ o ∈ db.occurrences, ∀ c ∈ (db.recount now p).clusters,
      (p c && c.sampleCount = 0) = true → c.id ≠ o.clusterId := by
    -- an empty cluster has no rows that would go with it
    intro o ho c hc hempty heq
    obtain ⟨c₀, hc₀, rfl⟩ := mem_updateClusters hc
    by_cases hpc : p c₀ = true
    · simp only [hpc, if_true, Bool.and_eq_true, decide_eq_true_eq] at hempty heq
      have hpos : 0 < db.countFor c₀.id :=
        List.countP_pos_iff.mpr ⟨o, ho, by simpa using heq.symm⟩
      omega
    · simp [hpc] at hempty
  have hclusters : ∀ rows : List (Cluster K), (∀ c ∈ rows, p c = decide (c.id ∈ ids)) →
      (rows.map fun c => if p c then { c with sampleCount := db.countFor c.id, updatedAt := now } else c).filter
          (fun c => !(p c && c.sampleCount = 0)) =
        rows.filterMap (settleCluster now db ids) := by
    intro rows hrows
    induction rows with
    | nil => rfl
    | cons c rows ih =>
        have hc := hrows c List.mem_cons_self
        have hrest := ih fun c hc => hrows c (List.mem_cons_of_mem _ hc)
        rw [List.map_cons, List.filter_cons, List.filterMap_cons, hrest]
        by_cases hid : c.id ∈ ids
        · by_cases hcount : db.countFor c.id = 0
          · simp [settleCluster, hc, hid, hcount, hstable]
          · simp [settleCluster, hc, hid, hcount, hstable]
        · simp [settleCluster, hc, hid]
  have hoccurrences : ((db.recount now p).deleteClusters fun c => p c && c.sampleCount = 0).occurrences =
      db.occurrences := by
    refine List.filter_eq_self.mpr fun o ho => ?_
    rw [Bool.not_eq_true', List.any_eq_false]
    intro c hc hboth
    rw [Bool.and_eq_true, decide_eq_true_eq] at hboth
    exact hrows o ho c hc hboth.1 hboth.2
  have hall : (db.recount now p).deleteClusters (fun c => p c && c.sampleCount = 0) =
      ⟨_, ((db.recount now p).deleteClusters fun c => p c && c.sampleCount = 0).occurrences⟩ := rfl
  rw [hall, hoccurrences]
  exact congrArg₂ Database.mk (hclusters db.clusters hp) rfl

theorem settle_settle (now : ℕ) (ids ids' : List Uuid) (db : Database K) :
    settle now ids' (settle now ids db) = settle now (ids ++ ids') db := by
  unfold settle
  refine congrArg₂ Database.mk ?_ rfl
  rw [List.filterMap_filterMap]
  refine List.filterMap_congr fun c _ => ?_
  have hcount : ∀ id, (⟨db.clusters.filterMap (settleCluster now db ids), db.occurrences⟩ :
      Database K).countFor id = db.countFor id := fun _ => rfl
  by_cases hid : c.id ∈ ids
  · by_cases hzero : db.countFor c.id = 0
    · simp [settleCluster, hid, hzero]
    · by_cases hid' : c.id ∈ ids' <;> simp [settleCluster, hid, hzero, hid', hcount]
  · simp [settleCluster, hid, hcount]

/-! ### Purging rows -/

/-- The clusters with a row in `p`. -/
def hit (p : Occurrence K → Bool) (db : Database K) : List Uuid :=
  (db.occurrences.filter p).map (·.clusterId)

/-- The rows with `p` gone, and the clusters they were of settled. -/
def purge (now : ℕ) (p : Occurrence K → Bool) (db : Database K) : Database K :=
  settle now (hit p db) (db.deleteOccurrences p)

@[simp] theorem purge_occurrences (now : ℕ) (p : Occurrence K → Bool) (db : Database K) :
    (purge now p db).occurrences = db.occurrences.filter fun o => !p o := rfl

theorem deleteOccurrences_congr {db : Database K} {p q : Occurrence K → Bool}
    (h : ∀ o ∈ db.occurrences, p o = q o) : db.deleteOccurrences p = db.deleteOccurrences q := by
  unfold deleteOccurrences
  congr 1
  exact List.filter_congr fun o ho => congrArg not (h o ho)

theorem purge_congr {db : Database K} {p q : Occurrence K → Bool}
    (h : ∀ o ∈ db.occurrences, p o = q o) (now : ℕ) : purge now p db = purge now q db := by
  rw [purge, purge, hit, hit, deleteOccurrences_congr h, List.filter_congr h]

theorem purge_none {db : Database K} {p : Occurrence K → Bool} (h : ∀ o ∈ db.occurrences, p o = false)
    (now : ℕ) : purge now p db = db := by
  have hhit : hit p db = [] := by
    rw [hit, List.filter_eq_nil_iff.mpr fun o ho => by simp [h o ho], List.map_nil]
  have hdelete : db.deleteOccurrences p = db := by
    unfold deleteOccurrences
    rw [List.filter_eq_self.mpr fun o ho => by simp [h o ho]]
  rw [purge, hhit, hdelete, settle_nil]

/-- The tables without their `updated_at`. -/
def Database.timeless (db : Database K) : Database K :=
  { db with clusters := db.clusters.map fun c => { c with updatedAt := 0 } }

theorem settle_timeless (now : ℕ) (ids : List Uuid) (db : Database K) :
    (settle now ids db).timeless = settle 0 ids db.timeless := by
  refine congrArg₂ Database.mk ?_ rfl
  simp only [settle, timeless, List.map_filterMap, List.filterMap_map]
  refine List.filterMap_congr fun c _ => ?_
  have hcount : db.timeless.countFor c.id = db.countFor c.id := rfl
  simp only [Function.comp, settleCluster]
  split
  · change (if db.countFor c.id = 0 then _ else _ : Option _).map _ =
      if db.timeless.countFor c.id = 0 then _ else _
    rw [hcount]
    split
    · rfl
    · rfl
  · rfl

theorem purge_timeless (now : ℕ) (p : Occurrence K → Bool) (db : Database K) :
    (purge now p db).timeless = purge 0 p db.timeless :=
  settle_timeless now _ _

theorem mem_hit {p : Occurrence K → Bool} {db : Database K} {id : Uuid} :
    id ∈ hit p db ↔ ∃ o ∈ db.occurrences, p o = true ∧ o.clusterId = id := by
  simp [hit, and_assoc]

/-- Both purges hit what one of both hits. -/
theorem mem_hit_or {p q : Occurrence K → Bool} {db : Database K} (now : ℕ) (id : Uuid) :
    id ∈ hit (fun o => p o || q o) db ↔ id ∈ hit p db ∨ id ∈ hit q (purge now p db) := by
  simp only [mem_hit, purge_occurrences, List.mem_filter, Bool.or_eq_true, Bool.not_eq_true']
  constructor
  · rintro ⟨o, ho, hpq, hid⟩
    by_cases hp : p o = true
    · exact .inl ⟨o, ho, hp, hid⟩
    · exact .inr ⟨o, ⟨ho, by simpa using hp⟩, hpq.resolve_left hp, hid⟩
  · rintro (⟨o, ho, hp, hid⟩ | ⟨o, ⟨ho, -⟩, hq, hid⟩)
    · exact ⟨o, ho, .inl hp, hid⟩
    · exact ⟨o, ho, .inr hq, hid⟩

theorem countFor_deleteOccurrences_of_not_hit {p : Occurrence K → Bool} {db : Database K} {id : Uuid}
    (h : id ∉ hit p db) : (db.deleteOccurrences p).countFor id = db.countFor id := by
  unfold countFor
  rw [deleteOccurrences, List.countP_filter]
  refine List.countP_congr fun o ho => ?_
  have hnot : o.clusterId = id → p o = false := fun hid =>
    Bool.not_eq_true _ ▸ fun hp => h (mem_hit.mpr ⟨o, ho, hp, hid⟩)
  simpa using hnot

/-- To purge twice is to purge of both. -/
theorem purge_purge (now now' now'' : ℕ) (p q : Occurrence K → Bool) (db : Database K) :
    (purge now' q (purge now p db)).timeless = (purge now'' (fun o => p o || q o) db).timeless := by
  have hleft : ((purge now p db).deleteOccurrences q).occurrences =
      (db.deleteOccurrences fun o => p o || q o).occurrences := by
    simp only [deleteOccurrences, purge_occurrences, List.filter_filter]
    exact List.filter_congr fun o _ => by simp [Bool.and_comm]
  have hcount : ∀ id, ((purge now p db).deleteOccurrences q).countFor id =
      (db.deleteOccurrences fun o => p o || q o).countFor id := fun id =>
    congrArg (List.countP fun o : Occurrence K => o.clusterId = id) hleft
  refine congrArg₂ Database.mk ?_ hleft
  change (List.filterMap (settleCluster now' ((purge now p db).deleteOccurrences q)
      (hit q (purge now p db))) (List.filterMap (settleCluster now (db.deleteOccurrences p) (hit p db))
        db.clusters)).map _ =
    (List.filterMap (settleCluster now'' (db.deleteOccurrences fun o => p o || q o)
      (hit (fun o => p o || q o) db)) db.clusters).map _
  rw [List.filterMap_filterMap, List.map_filterMap, List.map_filterMap]
  refine List.filterMap_congr fun c _ => ?_
  have hsame : c.id ∉ hit q (purge now p db) →
      (db.deleteOccurrences p).countFor c.id = (db.deleteOccurrences fun o => p o || q o).countFor c.id :=
    fun hnot => (countFor_deleteOccurrences_of_not_hit hnot).symm.trans (hcount c.id)
  have hhit := @mem_hit_or K p q db now c.id
  by_cases hp : c.id ∈ hit p db
  · by_cases hzero : (db.deleteOccurrences p).countFor c.id = 0
    · -- nothing is left of it the first time
      have hzero' : (db.deleteOccurrences fun o => p o || q o).countFor c.id = 0 := by
        rw [← hcount]
        exact Nat.le_zero.mp (hzero ▸ List.filter_sublist.countP_le)
      simp [settleCluster, hhit, hp, hzero, hzero']
    · by_cases hq : c.id ∈ hit q (purge now p db)
      · by_cases hzero' : (db.deleteOccurrences fun o => p o || q o).countFor c.id = 0
        · simp [settleCluster, hhit, hp, hq, hzero, hzero', hcount]
        · simp [settleCluster, hhit, hp, hq, hzero, hzero', hcount]
      · have hzero' := hsame hq ▸ hzero
        simp [settleCluster, hhit, hp, hq, hzero', hsame hq]
  · by_cases hq : c.id ∈ hit q (purge now p db)
    · by_cases hzero' : (db.deleteOccurrences fun o => p o || q o).countFor c.id = 0
      · simp [settleCluster, hhit, hp, hq, hzero', hcount]
      · simp [settleCluster, hhit, hp, hq, hzero', hcount]
    · simp [settleCluster, hhit, hp, hq]

end FacesService
