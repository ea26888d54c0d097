import FacesService.Store.Invariant

/-!
Windows on the tables. Through a window one sees some clusters with their rows,
without timestamps, without the counts of the owner's clusters, which follow from
the rows, and perhaps without the crops of some. A write is either not seen
through a window, or what is seen of it depends on what is seen before it.
-/

namespace FacesService

open Database Db Fallible

variable {K : Type}

/-- A row but for its timestamp. -/
def Occurrence.undated (r : Occurrence K) : Occurrence K := { r with createdAt := 0 }

namespace Database

variable {db : Database K}

/-- The cluster is there. -/
def has (db : Database K) (id : Uuid) : Bool := (db.clusterById id).isSome

theorem has_iff {id : Uuid} : db.has id = true ↔ id ∈ db.clusters.map (·.id) := by
  simp [has, clusterById, List.find?_isSome]

/-- The rows of one id and owner. -/
def ofOwner (id owner : Uuid) (c : Cluster K) : Bool := c.id = id && c.ownerId = owner

end Database

/-! ### Windows -/

/-- The clusters of `hidden` are not seen, nor are the crops of those of `bare`;
the time of creation is seen through a window that is `dated`. -/
structure Window where
  owner : Uuid
  hidden : Uuid → Bool
  bare : Uuid → Bool
  dated : Bool

namespace Window

variable (v : Window)

/-- What is seen of a cluster. -/
def row (c : Cluster K) : Cluster K :=
  { c with
    sampleCount := if c.ownerId = v.owner then 0 else c.sampleCount
    cropObject := if v.bare c.id then none else c.cropObject
    createdAt := if v.dated then c.createdAt else 0
    updatedAt := 0 }

def clusters (db : Database K) : List (Cluster K) :=
  (db.clusters.filter fun c => !v.hidden c.id).map v.row

def rows (db : Database K) : List (Occurrence K) :=
  (db.occurrences.filter fun r => !v.hidden r.clusterId).map (·.undated)

/-- The same is seen. -/
structure Same (db db' : Database K) : Prop where
  clusters : v.clusters db = v.clusters db'
  rows : v.rows db = v.rows db'

variable {v} {db db' db'' : Database K}

theorem Same.refl (v : Window) (db : Database K) : v.Same db db := ⟨rfl, rfl⟩

theorem Same.symm (h : v.Same db db') : v.Same db' db := ⟨h.clusters.symm, h.rows.symm⟩

theorem Same.trans (h : v.Same db db') (h' : v.Same db' db'') : v.Same db db'' :=
  ⟨h.clusters.trans h'.clusters, h.rows.trans h'.rows⟩

theorem mem_clusters_ids {id : Uuid} (hid : v.hidden id = false) :
    id ∈ db.clusters.map (·.id) ↔ id ∈ (v.clusters db).map (·.id) := by
  unfold clusters
  rw [List.map_map, List.mem_map, List.mem_map]
  constructor
  · rintro ⟨c, hc, rfl⟩
    exact ⟨c, List.mem_filter.mpr ⟨hc, by simp [hid]⟩, rfl⟩
  · rintro ⟨c, hc, rfl⟩
    exact ⟨c, (List.mem_filter.mp hc).1, rfl⟩

theorem Same.has (h : v.Same db db') {id : Uuid} (hid : v.hidden id = false) : db.has id = db'.has id := by
  rw [Bool.eq_iff_iff, has_iff, has_iff, mem_clusters_ids hid, mem_clusters_ids hid, h.clusters]

theorem any_rows {p : Uuid × Uuid × K → Bool} (hp : ∀ key, p key = true → v.hidden key.2.1 = false) :
    (db.occurrences.any fun r => p r.key) = (v.rows db).any fun r => p r.key := by
  unfold rows
  rw [List.any_map, List.any_filter]
  congr 1
  funext r
  cases hkey : p r.key with
  | false => exact (Bool.and_eq_false_imp.mpr fun _ => hkey).symm
  | true =>
      have hseen : v.hidden r.clusterId = false := hp r.key hkey
      rw [hseen]
      exact hkey.symm

theorem Same.any (h : v.Same db db') {p : Uuid × Uuid × K → Bool}
    (hp : ∀ key, p key = true → v.hidden key.2.1 = false) :
    (db.occurrences.any fun r => p r.key) = db'.occurrences.any fun r => p r.key := by
  rw [any_rows hp, any_rows hp, h.rows]

theorem countFor_rows {id : Uuid} (hid : v.hidden id = false) :
    db.countFor id = (v.rows db).countP fun r => r.clusterId = id := by
  unfold countFor rows
  rw [List.countP_map, List.countP_filter]
  refine List.countP_congr fun r _ => ?_
  rw [Bool.and_eq_true, Bool.not_eq_true']
  constructor
  · intro hr
    refine ⟨hr, ?_⟩
    rw [of_decide_eq_true hr]
    exact hid
  · exact And.left

theorem Same.countFor (h : v.Same db db') {id : Uuid} (hid : v.hidden id = false) :
    db.countFor id = db'.countFor id := by
  rw [countFor_rows hid, countFor_rows hid, h.rows]

/-! ### Updates of clusters -/

theorem map_congr_of {α β γ : Type} {g : α → β} {F F' : α → γ} {l l' : List α}
    (hF : ∀ a ∈ l, ∀ b ∈ l', g a = g b → F a = F' b) (h : l.map g = l'.map g) : l.map F = l'.map F' := by
  induction l generalizing l' with
  | nil =>
      have hnil : l' = [] := List.map_eq_nil_iff.mp h.symm
      subst hnil
      rfl
  | cons a l ih =>
      cases l' with
      | nil => cases h
      | cons b l' =>
          rw [List.map_cons, List.map_cons, List.cons.injEq] at h
          rw [List.map_cons, List.map_cons, hF a List.mem_cons_self b List.mem_cons_self h.1,
            ih (fun a ha b hb => hF a (List.mem_cons_of_mem _ ha) b (List.mem_cons_of_mem _ hb)) h.2]

variable {p p' : Cluster K → Bool} {f f' : Cluster K → Cluster K}

theorem clusters_updateClusters (hid : ∀ c, (f c).id = c.id) :
    v.clusters (db.updateClusters p f) =
      (db.clusters.filter fun c => !v.hidden c.id).map fun c => v.row (if p c then f c else c) := by
  have hsame : ∀ c, (if p c then f c else c).id = c.id := fun c => by split <;> simp [hid]
  unfold clusters updateClusters
  rw [List.filter_map, List.map_map]
  simp only [Function.comp_def, hsame]

/-- An update that shows nowhere. -/
theorem updateClusters_unseen (hid : ∀ c, (f c).id = c.id)
    (h : ∀ c, p c = true → v.hidden c.id = false → v.row (f c) = v.row c) :
    v.Same (db.updateClusters p f) db := by
  refine ⟨?_, rfl⟩
  rw [clusters_updateClusters hid]
  refine List.map_congr_left fun c hc => ?_
  have hseen : v.hidden c.id = false := by simpa using (List.mem_filter.mp hc).2
  split
  · rename_i hpc
    exact h c hpc hseen
  · rfl

theorem Same.updateClusters (h : v.Same db db') (hid : ∀ c, (f c).id = c.id) (hid' : ∀ c, (f' c).id = c.id)
    (hrow : ∀ a b, v.row a = v.row b → v.row (if p a then f a else a) = v.row (if p' b then f' b else b)) :
    v.Same (db.updateClusters p f) (db'.updateClusters p' f') := by
  refine ⟨?_, h.rows⟩
  rw [clusters_updateClusters hid, clusters_updateClusters hid']
  exact map_congr_of (fun a _ b _ hab => hrow a b hab) h.clusters

/-- A recount of the owner's clusters is not seen. -/
theorem recount_unseen {now : ℕ} (hp : ∀ c, p c = true → c.ownerId = v.owner) :
    v.Same (db.recount now p) db := by
  refine updateClusters_unseen (fun c => rfl) fun c hc _ => ?_
  simp [row, hp c hc]

end Window

/-! ### Columns -/

/-- A value for one column of a cluster. -/
inductive Column (K : Type)
  | centroid (a : List K)
  | crop (a : Option String)

def Column.put (pf : Platform K) (now : ℕ) : Column K → Cluster K → Cluster K
  | centroid a, c => { c with centroid := toListArray pf a, updatedAt := now }
  | crop a, c => { c with cropObject := a, updatedAt := now }

/-- The column is not seen. -/
def Column.Unseen (v : Window) (id : Uuid) : Column K → Prop
  | centroid _ => False
  | crop _ => v.bare id = true

section Column

variable {pf : Platform K} {now now' : ℕ} {v : Window} {db db' : Database K} {id rowOwner : Uuid}

@[simp] theorem Column.put_id (col : Column K) (c : Cluster K) : (col.put pf now c).id = c.id := by
  cases col <;> rfl

@[simp] theorem Column.put_ownerId (col : Column K) (c : Cluster K) :
    (col.put pf now c).ownerId = c.ownerId := by
  cases col <;> rfl

@[simp] theorem Column.put_sampleCount (col : Column K) (c : Cluster K) :
    (col.put pf now c).sampleCount = c.sampleCount := by
  cases col <;> rfl

theorem Column.row_put (col : Column K) (c : Cluster K) :
    v.row (col.put pf now c) = v.row (col.put pf 0 (v.row c)) := by
  by_cases howner : c.ownerId = v.owner <;> by_cases hbare : v.bare c.id = true <;>
    cases hdated : v.dated <;> cases col <;> simp [put, Window.row, howner, hbare, hdated]

theorem Window.put_unseen {col : Column K} (h : v.hidden id = true ∨ col.Unseen v id) :
    v.Same (db.updateClusters (ofOwner id rowOwner) (col.put pf now)) db := by
  refine updateClusters_unseen (col.put_id) fun c hc hseen => ?_
  obtain ⟨hid, -⟩ : c.id = id ∧ c.ownerId = rowOwner := by simpa [ofOwner] using hc
  rw [hid] at hseen
  rcases h with h | h
  · rw [h] at hseen
    cases hseen
  · cases col with
    | centroid a => exact h.elim
    | crop a =>
        have hbare : v.bare id = true := h
        simp [Column.put, row, hid, hbare]

theorem Window.Same.put (h : v.Same db db') (col : Column K) :
    v.Same (db.updateClusters (ofOwner id rowOwner) (col.put pf now))
      (db'.updateClusters (ofOwner id rowOwner) (col.put pf now')) := by
  refine h.updateClusters (col.put_id) (col.put_id) fun a b hab => ?_
  have hid : (v.row a).id = (v.row b).id := congrArg Cluster.id hab
  have howner : (v.row a).ownerId = (v.row b).ownerId := congrArg Cluster.ownerId hab
  change a.id = b.id at hid
  change a.ownerId = b.ownerId at howner
  rw [ofOwner, ofOwner, hid, howner]
  split
  · rw [col.row_put a, col.row_put b, hab]
  · exact hab

end Column

/-! ### All of the tables -/

/-- A row but for its timestamps. -/
def Cluster.undated (c : Cluster K) : Cluster K := { c with createdAt := 0, updatedAt := 0 }

/-- The same rows, in any order and whenever they were written. -/
structure Database.SameTables (db db' : Database K) : Prop where
  clusters : (db.clusters.map (·.undated)).Perm (db'.clusters.map (·.undated))
  occurrences : (db.occurrences.map (·.undated)).Perm (db'.occurrences.map (·.undated))

/-- The counts of the owner's clusters are right, and every row has its cluster. -/
structure Tallied (owner : Uuid) (db : Database K) : Prop where
  counts : ∀ c ∈ db.clusters, c.ownerId = owner → c.sampleCount = db.countFor c.id
  linked : ∀ r ∈ db.occurrences, db.has r.clusterId = true

namespace Window

variable {v v' : Window} {db db' : Database K}

/-- What is seen tells the rows, if the counts are right and the crops that are not
seen are the same. -/
theorem Same.undated (h : v.Same db db') (hdb : Tallied v.owner db) (hdb' : Tallied v.owner db')
    (hcrop : ∀ c ∈ db.clusters, ∀ c' ∈ db'.clusters, c.id = c'.id → v.bare c.id = true →
      c.cropObject = c'.cropObject) :
    (db.clusters.filter fun c => !v.hidden c.id).map (·.undated) =
      (db'.clusters.filter fun c => !v.hidden c.id).map (·.undated) := by
  refine map_congr_of (fun c hc c' hc' hrow => ?_) h.clusters
  rw [List.mem_filter, Bool.not_eq_true'] at hc hc'
  simp only [row, Cluster.mk.injEq] at hrow
  obtain ⟨hid, howner, hname, hnamed, hcentroid, hcount, hcropped, -, -⟩ := hrow
  have hcounts : c.sampleCount = c'.sampleCount := by
    by_cases hown : c.ownerId = v.owner
    · rw [hdb.counts c hc.1 hown, hdb'.counts c' hc'.1 (howner ▸ hown), ← hid]
      exact h.countFor hc.2
    · rwa [if_neg hown, if_neg (howner ▸ hown)] at hcount
  have hcrops : c.cropObject = c'.cropObject := by
    by_cases hbare : v.bare c.id = true
    · exact hcrop c hc.1 c' hc'.1 hid hbare
    · rwa [if_neg hbare, if_neg (hid ▸ hbare)] at hcropped
  simp only [Cluster.undated, Cluster.mk.injEq, and_true]
  exact ⟨hid, howner, hname, hnamed, hcentroid, hcounts, hcrops⟩

theorem perm_parts {α β : Type} {l l' : List α} {p : α → Bool} {g : α → β}
    (h : (l.filter p).map g = (l'.filter p).map g)
    (h' : (l.filter fun a => !p a).map g = (l'.filter fun a => !p a).map g) :
    (l.map g).Perm (l'.map g) := by
  have hparts : ∀ l : List α, (l.map g).Perm ((l.filter p).map g ++ (l.filter fun a => !p a).map g) := by
    intro l
    rw [← List.map_append]
    exact ((List.filter_append_perm p l).map g).symm
  refine (hparts l).trans ?_
  rw [h, h']
  exact (hparts l').symm

/-- Through two windows everything is seen. -/
theorem Same.tables (h : v.Same db db') (h' : v'.Same db db') (howner : v'.owner = v.owner)
    (hhidden : ∀ id, v'.hidden id = !v.hidden id) (hbare : ∀ id, v'.bare id = false)
    (hdb : Tallied v.owner db) (hdb' : Tallied v.owner db')
    (hcrop : ∀ c ∈ db.clusters, ∀ c' ∈ db'.clusters, c.id = c'.id → v.bare c.id = true →
      c.cropObject = c'.cropObject) : db.SameTables db' := by
  have hrest := h'.undated (howner ▸ hdb) (howner ▸ hdb') fun c _ c' _ _ hb => by
    rw [hbare] at hb
    cases hb
  have hrows := h'.rows
  simp only [Window.rows, hhidden, Bool.not_not] at hrest hrows
  exact ⟨perm_parts hrest (h.undated hdb hdb' hcrop), perm_parts hrows h.rows⟩

end Window

end FacesService
