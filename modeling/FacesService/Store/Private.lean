import FacesService.Store.Statements
import FacesService.Base.Fallible
import Mathlib.Data.List.Find

/-!
The tables as one user sees them: the rows of that user, in table order. A
statement about the user's rows does the same on the whole tables as on these
(`…_of`) and leaves everybody else's alone (`others_…`).

The tables tie an occurrence to its owner twice, by the row itself and by the
cluster it is in; `Linked` says that the two agree, and everything here rests on
it.
-/

namespace FacesService

namespace Database

variable {K : Type}

/-- The user's own tables. -/
def of (db : Database K) (userId : String) : Database K where
  clusters := db.clusters.filter fun c => isMine userId c.ownerId
  occurrences := db.occurrences.filter fun o => isMine userId o.ownerId

/-- Everybody else's. -/
def others (db : Database K) (userId : String) : Database K where
  clusters := db.clusters.filter fun c => !isMine userId c.ownerId
  occurrences := db.occurrences.filter fun o => !isMine userId o.ownerId

/-- If there is a cluster with this id, it is the user's. -/
def OnlyMine (db : Database K) (userId : String) (id : Uuid) : Prop :=
  ∀ c ∈ db.clusters, c.id = id → isMine userId c.ownerId = true

variable {db : Database K} {userId : String}

@[simp] theorem clusters_of (db : Database K) (userId : String) :
    (db.of userId).clusters = db.clusters.filter fun c => isMine userId c.ownerId := rfl

@[simp] theorem occurrences_of (db : Database K) (userId : String) :
    (db.of userId).occurrences = db.occurrences.filter fun o => isMine userId o.ownerId := rfl

/-! ### Reading -/

theorem Linked.isMine_row (hl : db.Linked) {o : Occurrence K} (ho : o ∈ db.occurrences)
    (h : db.OnlyMine userId o.clusterId) : isMine userId o.ownerId = true := by
  obtain ⟨c, hc, hid, howner⟩ := hl.owned o ho
  rw [← howner]
  exact h c hc hid

/-- The converse: a row of the user's is in a cluster of the user's. -/
theorem Linked.onlyMine (hl : db.Linked) {o : Occurrence K} (ho : o ∈ db.occurrences)
    (h : isMine userId o.ownerId = true) : db.OnlyMine userId o.clusterId := by
  intro c hc hid
  obtain ⟨c', hc', hid', howner⟩ := hl.owned o ho
  rw [hl.eq_of_id hc hc' (hid.trans hid'.symm), howner]
  exact h

/-- A user's cluster is the only one with its id. -/
theorem Linked.onlyMine_of_cast (hl : db.Linked) {id : Uuid} {row : Cluster K}
    (hrow : db.clusterById id = some row) (howner : castUuid userId = .ok row.ownerId) :
    db.OnlyMine userId id := by
  intro c hc hid
  obtain ⟨hmem, hid'⟩ := mem_of_clusterById hrow
  rw [hl.eq_of_id hc hmem (hid.trans hid'.symm)]
  exact isMine_iff.mpr howner

/-- The user's clusters have the user's id as their owner's, however it is spelt. -/
theorem OnlyMine.owner_eq {owner id : Uuid} (h : db.OnlyMine userId id)
    (hcast : castUuid userId = .ok owner) : ∀ c ∈ db.clusters, c.id = id → c.ownerId = owner := by
  intro c hc hid
  have howner := (isMine_iff.mp (h c hc hid)).symm.trans hcast
  cases howner
  rfl

theorem filter_clusters_of (db : Database K) (userId : String) {q : Cluster K → Bool}
    (h : ∀ c ∈ db.clusters, q c = true → isMine userId c.ownerId = true) :
    (db.of userId).clusters.filter q = db.clusters.filter q := by
  rw [clusters_of, List.filter_filter]
  refine List.filter_congr fun c hc => ?_
  cases hq : q c with
  | false => simp
  | true => simp [h c hc hq]

theorem any_clusters_of (db : Database K) (userId : String) {q : Cluster K → Bool}
    (h : ∀ c ∈ db.clusters, q c = true → isMine userId c.ownerId = true) :
    (db.of userId).clusters.any q = db.clusters.any q := by
  rw [Bool.eq_iff_iff, List.any_eq_true, List.any_eq_true]
  constructor
  · rintro ⟨c, hc, hq⟩
    exact ⟨c, (List.mem_filter.mp hc).1, hq⟩
  · rintro ⟨c, hc, hq⟩
    exact ⟨c, List.mem_filter.mpr ⟨hc, h c hc hq⟩, hq⟩

theorem find_clusters_of (db : Database K) (userId : String) {q : Cluster K → Bool}
    (h : ∀ c ∈ db.clusters, q c = true → isMine userId c.ownerId = true) :
    (db.of userId).clusters.find? q = db.clusters.find? q := by
  rw [clusters_of, List.find?_filter]
  refine List.find?_congr fun c hc => ?_
  cases hq : q c with
  | false => simp
  | true => simp [h c hc hq]

theorem filter_occurrences_of (db : Database K) (userId : String) {q : Occurrence K → Bool}
    (h : ∀ o ∈ db.occurrences, q o = true → isMine userId o.ownerId = true) :
    (db.of userId).occurrences.filter q = db.occurrences.filter q := by
  rw [occurrences_of, List.filter_filter]
  refine List.filter_congr fun o ho => ?_
  cases hq : q o with
  | false => simp
  | true => simp [h o ho hq]

theorem countP_occurrences_of (db : Database K) (userId : String) {q : Occurrence K → Bool}
    (h : ∀ o ∈ db.occurrences, q o = true → isMine userId o.ownerId = true) :
    (db.of userId).occurrences.countP q = db.occurrences.countP q := by
  rw [List.countP_eq_length_filter, List.countP_eq_length_filter, filter_occurrences_of _ _ h]

theorem any_occurrences_of (db : Database K) (userId : String) {q : Occurrence K → Bool}
    (h : ∀ o ∈ db.occurrences, q o = true → isMine userId o.ownerId = true) :
    (db.of userId).occurrences.any q = db.occurrences.any q := by
  rw [Bool.eq_iff_iff, List.any_eq_true, List.any_eq_true]
  constructor
  · rintro ⟨o, ho, hq⟩
    exact ⟨o, (List.mem_filter.mp ho).1, hq⟩
  · rintro ⟨o, ho, hq⟩
    exact ⟨o, List.mem_filter.mpr ⟨ho, h o ho hq⟩, hq⟩

theorem countFor_of (hl : db.Linked) {id : Uuid} (h : db.OnlyMine userId id) :
    (db.of userId).countFor id = db.countFor id :=
  countP_occurrences_of _ _ fun _ ho hid => hl.isMine_row ho (of_decide_eq_true hid ▸ h)

/-- Looking up a cluster finds it if it is the user's, and nothing otherwise. -/
theorem clusterById_of (hl : db.Linked) (userId : String) (id : Uuid) :
    (db.of userId).clusterById id =
      (db.clusterById id).filter fun c => isMine userId c.ownerId := by
  have hfound : ∀ c, (db.of userId).clusterById id = some c ↔
      db.clusterById id = some c ∧ isMine userId c.ownerId = true := by
    intro c
    constructor
    · intro hc
      obtain ⟨hmem, rfl⟩ := mem_of_clusterById hc
      obtain ⟨hmem, hmine⟩ := List.mem_filter.mp hmem
      exact ⟨hl.clusterById_mem hmem, hmine⟩
    · rintro ⟨hc, hmine⟩
      obtain ⟨hmem, hid⟩ := mem_of_clusterById hc
      cases hof : (db.of userId).clusterById id with
      | none =>
          exact absurd hid (clusterById_eq_none.mp hof c (List.mem_filter.mpr ⟨hmem, hmine⟩))
      | some c' =>
          obtain ⟨hmem', hid'⟩ := mem_of_clusterById hof
          rw [hl.eq_of_id hmem (List.mem_filter.mp hmem').1 (hid.trans hid'.symm)]
  refine Option.ext fun c => ?_
  rw [hfound, Option.filter_eq_some_iff]

theorem clusterById_of_onlyMine (hl : db.Linked) {id : Uuid} (h : db.OnlyMine userId id) :
    (db.of userId).clusterById id = db.clusterById id := by
  rw [clusterById_of hl]
  cases hc : db.clusterById id with
  | none => rfl
  | some c =>
      obtain ⟨hmem, hid⟩ := mem_of_clusterById hc
      simp [h c hmem hid]

/-! ### `UPDATE` -/

theorem updateClusters_of (p : Cluster K → Bool) {f : Cluster K → Cluster K}
    (howner : ∀ c, (f c).ownerId = c.ownerId) (db : Database K) (userId : String) :
    (db.updateClusters p f).of userId = (db.of userId).updateClusters p f := by
  unfold Database.of Database.updateClusters
  simp only [List.filter_map, Database.mk.injEq, and_true]
  congr 1
  refine List.filter_congr fun c _ => ?_
  simp only [Function.comp]
  split
  · rw [howner]
  · rfl

theorem others_updateClusters {p : Cluster K → Bool} {f : Cluster K → Cluster K}
    (howner : ∀ c, (f c).ownerId = c.ownerId)
    (hp : ∀ c ∈ db.clusters, p c = true → isMine userId c.ownerId = true) :
    (db.updateClusters p f).others userId = db.others userId := by
  unfold Database.others
  rw [filter_updateClusters fun c hc hpc => ?_]
  · rfl
  · simp [howner, hp c hc hpc]

theorem recount_of (hl : db.Linked) (now : ℕ) (p : Cluster K → Bool) (userId : String) :
    (db.recount now p).of userId = (db.of userId).recount now p := by
  have hof := updateClusters_of p
    (f := fun c => { c with sampleCount := db.countFor c.id, updatedAt := now }) (fun _ => rfl) db userId
  rw [recount, hof]
  unfold recount Database.updateClusters
  simp only [Database.mk.injEq, and_true]
  refine List.map_congr_left fun c hc => ?_
  obtain ⟨hmem, hmine⟩ := List.mem_filter.mp hc
  have honly : db.OnlyMine userId c.id := fun c' hc' hid => hl.eq_of_id hc' hmem hid ▸ hmine
  rw [countFor_of hl honly]

theorem recount_congr {p q : Cluster K → Bool} (h : ∀ c ∈ db.clusters, p c = q c) (now : ℕ) :
    db.recount now p = db.recount now q := by
  unfold recount Database.updateClusters
  simp only [Database.mk.injEq, and_true]
  exact List.map_congr_left fun c hc => by rw [h c hc]

theorem others_recount {now : ℕ} {p : Cluster K → Bool}
    (hp : ∀ c ∈ db.clusters, p c = true → isMine userId c.ownerId = true) :
    (db.recount now p).others userId = db.others userId :=
  others_updateClusters (fun _ => rfl) hp

/-! ### `DELETE` -/

theorem deleteOccurrences_of (p : Occurrence K → Bool) (db : Database K) (userId : String) :
    (db.deleteOccurrences p).of userId = (db.of userId).deleteOccurrences p := by
  unfold Database.of Database.deleteOccurrences
  simp only [List.filter_filter, Bool.and_comm]

theorem others_deleteOccurrences {p : Occurrence K → Bool}
    (hp : ∀ o ∈ db.occurrences, p o = true → isMine userId o.ownerId = true) :
    (db.deleteOccurrences p).others userId = db.others userId := by
  unfold Database.others Database.deleteOccurrences
  simp only [List.filter_filter, Database.mk.injEq, true_and]
  refine List.filter_congr fun o ho => ?_
  cases hpo : p o with
  | false => simp
  | true => simp [hp o ho hpo]

theorem deleteClusters_of (hl : db.Linked) (p : Cluster K → Bool) (userId : String) :
    (db.deleteClusters p).of userId = (db.of userId).deleteClusters p := by
  unfold Database.of Database.deleteClusters
  simp only [List.filter_filter, Database.mk.injEq]
  refine ⟨List.filter_congr fun c _ => Bool.and_comm _ _, List.filter_congr fun o ho => ?_⟩
  cases hmine : isMine userId o.ownerId with
  | false => simp
  | true =>
      have hany := any_clusters_of db userId (q := fun c => p c && c.id = o.clusterId) fun c hc hq =>
          hl.onlyMine ho hmine c hc (of_decide_eq_true (Bool.and_eq_true_iff.mp hq).2)
      rw [clusters_of] at hany
      rw [hany]
      simp

theorem others_deleteClusters (hl : db.Linked) {p : Cluster K → Bool}
    (hp : ∀ c ∈ db.clusters, p c = true → isMine userId c.ownerId = true) :
    (db.deleteClusters p).others userId = db.others userId := by
  unfold Database.others Database.deleteClusters
  simp only [List.filter_filter, Database.mk.injEq]
  constructor
  · refine List.filter_congr fun c hc => ?_
    cases hpc : p c with
    | false => simp
    | true => simp [hp c hc hpc]
  · refine List.filter_congr fun o ho => ?_
    cases hmine : isMine userId o.ownerId with
    | true => simp
    | false =>
        have hnone : (db.clusters.any fun c => p c && c.id = o.clusterId) = false := by
          rw [List.any_eq_false]
          intro c hc hboth
          simp only [Bool.and_eq_true, decide_eq_true_eq] at hboth
          have hrow : isMine userId o.ownerId = true := hl.isMine_row ho fun c' hc' hid =>
            hl.eq_of_id hc' hc (hid.trans hboth.2.symm) ▸ hp c hc hboth.1
          rw [hmine] at hrow
          cases hrow
        rw [hnone]
        simp

/-! ### `INSERT` -/

theorem insertCluster_of {c : Cluster K} (hfresh : ∀ c' ∈ db.clusters, c'.id ≠ c.id)
    (hmine : isMine userId c.ownerId = true) :
    ∃ db', db.insertCluster c = .ok db' ∧ (db.of userId).insertCluster c = .ok (db'.of userId) ∧
      db'.others userId = db.others userId := by
  refine ⟨{ db with clusters := db.clusters ++ [c] }, ?_, ?_, ?_⟩
  · unfold insertCluster
    rw [clusterById_eq_none.mpr hfresh]
  · unfold insertCluster
    rw [clusterById_eq_none.mpr fun c' hc' => hfresh c' (List.mem_filter.mp hc').1]
    simp [Database.of, hmine]
  · simp [Database.others, hmine]

variable [DecidableEq K]

/-- The key of a row holds its cluster, so a row of somebody else's is never in
the way. -/
theorem insertOccurrence_of (hl : db.Linked) {o : Occurrence K} (hmine : isMine userId o.ownerId = true)
    (honly : db.OnlyMine userId o.clusterId) :
    Fallible.Agree (fun db' dbu' => dbu' = db'.of userId ∧ db'.others userId = db.others userId)
      (db.insertOccurrence o) ((db.of userId).insertOccurrence o) := by
  have hany := any_occurrences_of db userId (q := fun o' => decide (o'.key = o.key)) fun o' ho' hkey => by
      simp only [Occurrence.key, decide_eq_true_eq, Prod.mk.injEq] at hkey
      exact hl.isMine_row ho' (hkey.2.1 ▸ honly)
  unfold insertOccurrence
  rw [hany, clusterById_of_onlyMine hl honly]
  split
  · rfl
  · split
    · rfl
    · exact ⟨by simp [Database.of, hmine], by simp [Database.others, hmine]⟩

theorem insertOccurrenceIfNew_of (hl : db.Linked) {o : Occurrence K}
    (hmine : isMine userId o.ownerId = true) (honly : db.OnlyMine userId o.clusterId) :
    Fallible.Agree (fun r r' => r'.1 = r.1 ∧ r'.2 = r.2.of userId ∧
        r.2.others userId = db.others userId)
      (db.insertOccurrenceIfNew o) ((db.of userId).insertOccurrenceIfNew o) := by
  have hany := any_occurrences_of db userId (q := fun o' => decide (o'.key = o.key)) fun o' ho' hkey => by
      simp only [Occurrence.key, decide_eq_true_eq, Prod.mk.injEq] at hkey
      exact hl.isMine_row ho' (hkey.2.1 ▸ honly)
  unfold insertOccurrenceIfNew
  rw [hany, clusterById_of_onlyMine hl honly]
  split
  · exact ⟨rfl, rfl, rfl⟩
  · split
    · rfl
    · exact ⟨rfl, by simp [Database.of, hmine], by simp [Database.others, hmine]⟩

end Database

end FacesService
