import FacesService.Store.Bumps
import FacesService.Store.PrivateCalls

/-!
What a write can do to whom, when other writes may have come in between since its
caller last looked. Ids keep their owners, so what a caller has once learned of a
cluster stays true as long as the cluster is there (`Write.run_owner`); that is
all an append needs to keep the invariant (`Write.Sound`). A write under one user's
id leaves the rows of every other user alone, and no write makes two clusters of
an owner carry one name.
-/

namespace FacesService

open Database Fallible Db

variable {K : Type}

/-! ### Owners and names of clusters -/

/-- The clusters of the second state are of the first, with their owners and
names, but for those inserted. -/
def Inherits (inserted : Cluster K → Prop) (db db' : Database K) : Prop :=
  ∀ c' ∈ db'.clusters, inserted c' ∨
    ∃ c ∈ db.clusters, c.id = c'.id ∧ c.ownerId = c'.ownerId ∧ c.name = c'.name

section Inherits

variable {inserted : Cluster K → Prop} {db db' db'' : Database K}

theorem Inherits.refl (db : Database K) : Inherits inserted db db :=
  fun c hc => .inr ⟨c, hc, rfl, rfl, rfl⟩

theorem Inherits.updateClusters (h : Inherits inserted db db') {p : Cluster K → Bool}
    {f : Cluster K → Cluster K} (hins : ∀ c, ¬ inserted c)
    (hf : ∀ c, (f c).id = c.id ∧ (f c).ownerId = c.ownerId ∧ (f c).name = c.name) :
    Inherits inserted db (db'.updateClusters p f) := by
  intro c' hc'
  obtain ⟨c, hc, rfl⟩ := mem_updateClusters hc'
  have hsame : (if p c then f c else c).id = c.id ∧ (if p c then f c else c).ownerId = c.ownerId ∧
      (if p c then f c else c).name = c.name := by
    split
    · exact hf c
    · exact ⟨rfl, rfl, rfl⟩
  rw [hsame.1, hsame.2.1, hsame.2.2]
  exact .inr ((h c hc).resolve_left (hins c))

theorem Inherits.clusters (h : Inherits inserted db db')
    (hdb : ∀ c ∈ db''.clusters, c ∈ db'.clusters) :
    Inherits inserted db db'' :=
  fun c hc => h c (hdb c hc)

end Inherits

def Write.isRename : Write K → Bool
  | renameCluster .. => true
  | _ => false

/-- The row the write inserts. -/
def Write.Inserts (fresh : Uuid) : Write K → Cluster K → Prop
  | upsertCluster _ name _ _, c => c.id = fresh ∧ c.name = name
  | _, _ => False

variable [DecidableEq K] {pf : Platform K} {fresh : Uuid} {now : ℕ} {db : Database K}

/-- **Clusters keep their owners**, and their names but for a rename; new ones
have the id drawn for them. -/
theorem Write.run_inherits {w : Write K} {c : Commit K w.Answer} (hw : w.isRename = false)
    (h : w.run pf fresh now db = .ok c) : Inherits (w.Inserts fresh) db c.db := by
  cases w with
  | renameCluster clusterId ownerId name => cases hw
  | upsertCluster ownerId name isNamed centroid =>
      obtain ⟨owner, -, -, -, hinsert⟩ := upsertCluster_ok h
      obtain ⟨-, hdb⟩ := insertCluster_eq_ok hinsert
      intro r hr
      rw [hdb] at hr
      rcases List.mem_append.mp hr with hr | hr
      · exact .inr ⟨r, hr, rfl, rfl, rfl⟩
      · rw [List.mem_singleton.mp hr]
        exact .inl ⟨rfl, rfl⟩
  | appendStreamOccurrences ownerId streamId items =>
      obtain ⟨db₁, owner, stream, hinsert, -, -, -, hdb⟩ := appendStreamOccurrences_ok h
      rw [hdb]
      refine Inherits.updateClusters ?_ (fun _ h => h) fun _ => ⟨rfl, rfl, rfl⟩
      exact (Inherits.refl db).clusters fun r hr => (insertItems_keeps hinsert).1 ▸ hr
  | deleteCluster clusterId ownerId =>
      rcases deleteCluster_ok h with rfl | ⟨id, row, streams, -, rfl⟩
      · exact .refl db
      · exact (Inherits.refl db).clusters fun r hr => (List.mem_filter.mp hr).1
  | detachClusterFromStream clusterId streamId ownerId =>
      rcases detachClusterFromStream_ok h with rfl | ⟨id, row, stream, -, -, -, -, hdb⟩
      · exact .refl db
      · rw [hdb]
        have hrows : Inherits (Write.Inserts fresh
            (.detachClusterFromStream clusterId streamId ownerId)) db
            ((db.deleteOccurrences (detached id stream row.ownerId)).recount now fun c =>
              c.id = id && c.ownerId = row.ownerId) :=
          (Inherits.refl db).updateClusters (fun _ h => h) fun _ => ⟨rfl, rfl, rfl⟩
        exact hrows.clusters fun r hr => (List.mem_filter.mp hr).1
  | mergeClusters ownerId targetId sourceIds =>
      rcases mergeClusters_ok h with rfl | ⟨target, row, affected, st, -, -, hst, rfl⟩
      · exact .refl db
      · refine Inherits.updateClusters ?_ (fun _ h => h) fun _ => ⟨rfl, rfl, rfl⟩
        refine (Inherits.refl db).clusters fun r hr => ?_
        rw [mergeSources_clusters hst] at hr
        exact (List.mem_filter.mp hr).1
  | updateClusterCentroid clusterId ownerId centroid =>
      obtain ⟨id, owner, -, -, rfl⟩ := updateClusterCentroid_ok h
      exact (Inherits.refl db).updateClusters (fun _ h => h) fun _ => ⟨rfl, rfl, rfl⟩
  | setClusterCrop clusterId ownerId cropObject =>
      obtain ⟨id, owner, -, -, rfl⟩ := setClusterCrop_ok h
      exact (Inherits.refl db).updateClusters (fun _ h => h) fun _ => ⟨rfl, rfl, rfl⟩
  | cascadeStream streamId =>
      obtain ⟨stream, -, hdb⟩ := cascadeStream_db h
      intro r hr
      rw [hdb, purge] at hr
      obtain ⟨r₀, hr₀, hsettle⟩ := List.mem_filterMap.mp hr
      obtain ⟨hid, howner⟩ := settleCluster_keeps hsettle
      exact .inr ⟨r₀, hr₀, hid.symm, howner.symm, (by rw [settleCluster_some hsettle])⟩

/-- The owner of an id, once it has one. -/
theorem Write.run_owner {w : Write K} {c : Commit K w.Answer} (h : w.run pf fresh now db = .ok c)
    {c' : Cluster K} (hc' : c' ∈ c.db.clusters) :
    (w.isUpsert = true ∧ c'.id = fresh) ∨
      ∃ r ∈ db.clusters, r.id = c'.id ∧ r.ownerId = c'.ownerId := by
  by_cases hw : w.isRename = true
  · cases w with
    | renameCluster clusterId ownerId name =>
        rcases renameCluster_ok h with ⟨hdb, -⟩ | ⟨id, row, -, rfl⟩
        · exact .inr ⟨c', hdb ▸ hc', rfl, rfl⟩
        · obtain ⟨r, hr, rfl⟩ := mem_updateClusters hc'
          refine .inr ⟨r, hr, ?_⟩
          split <;> exact ⟨rfl, rfl⟩
    | _ => cases hw
  · rcases Write.run_inherits (by simpa using hw) h c' hc' with hins | ⟨r, hr, hid, howner, -⟩
    · cases w with
      | upsertCluster ownerId name isNamed centroid => exact .inl ⟨rfl, hins.1⟩
      | _ => exact hins.elim
    · exact .inr ⟨r, hr, hid, howner⟩

/-! ### The invariant -/

/-- New clusters have no name, and the clusters appended to, as far as they are
there, are the owner's. -/
def Write.Sound (db : Database K) : Write K → Prop
  | upsertCluster _ name isNamed _ => name = none ∧ isNamed = false
  | appendStreamOccurrences ownerId _ items =>
      ∀ it ∈ items, ∀ id, castUuid it.clusterId = .ok id → db.OnlyMine ownerId id
  | _ => True

theorem StoreInvariant.run_sound {w : Write K} {c : Commit K w.Answer} (h : StoreInvariant db)
    (hw : w.Sound db) (hrun : w.run pf fresh now db = .ok c) : StoreInvariant c.db := by
  cases w with
  | upsertCluster ownerId name isNamed centroid =>
      obtain ⟨rfl, rfl⟩ := hw
      exact h.upsertCluster hrun
  | appendStreamOccurrences ownerId streamId items => exact h.append_of_onlyMine hw hrun
  | _ => exact h.run (by trivial) (by trivial) hrun

/-! ### Names -/

/-- No two clusters of an owner have one name, up to `lower`. -/
def Database.NamesUnique (pf : Platform K) (db : Database K) : Prop :=
  ∀ c ∈ db.clusters, ∀ c' ∈ db.clusters, c.ownerId = c'.ownerId → c.name ≠ none →
    c.name.map pf.lower = c'.name.map pf.lower → c.id = c'.id

omit [DecidableEq K] in
theorem Database.NamesUnique.inherits {inserted : Cluster K → Prop} {db' : Database K}
    (h : db.NamesUnique pf) (hins : ∀ c, inserted c → c.name = none)
    (hdb : Inherits inserted db db') :
    db'.NamesUnique pf := by
  have hnamed : ∀ c' ∈ db'.clusters, c'.name ≠ none →
      ∃ c ∈ db.clusters, c.id = c'.id ∧ c.ownerId = c'.ownerId ∧ c.name = c'.name :=
    fun c' hc' hne => (hdb c' hc').resolve_left fun hinserted => hne (hins c' hinserted)
  intro c hc c' hc' howner hne hname
  have hne' : c'.name ≠ none := by
    intro hnone
    rw [hnone, Option.map_none, Option.map_eq_none_iff] at hname
    exact hne hname
  obtain ⟨r, hr, hid, ho, hn⟩ := hnamed c hc hne
  obtain ⟨r', hr', hid', ho', hn'⟩ := hnamed c' hc' hne'
  rw [← hid, ← hid']
  exact h r hr r' hr' (by rw [ho, ho', howner]) (hn ▸ hne) (by rw [hn, hn', hname])

omit [DecidableEq K] in
/-- A rename that goes through found the name free. -/
theorem renameCluster_free {clusterId ownerId : String} {name : Option String}
    {c : Commit K (Option (String × String))}
    (h : renameCluster pf now db clusterId ownerId name = .ok c) (hok : c.result = none) :
    ∃ id row, Owned db clusterId ownerId id row ∧
        nameTaken pf db row.ownerId id (storedName name) = false := by
  unfold renameCluster at h
  obtain ⟨id, hid, h⟩ := bind_eq_ok.mp h
  split at h
  · cases h
    cases hok
  · rename_i row hrow
    split at h
    · cases h
      cases hok
    · rename_i howner
      have hown : Owned db clusterId ownerId id row := ⟨hid, hrow, not_not.mp howner⟩
      rw [hown.castOwner, ok_bind] at h
      simp only at h
      split at h
      · cases h
        cases hok
      · rename_i hfree
        exact ⟨id, row, hown, by simpa using hfree⟩

omit [DecidableEq K] in
theorem nameTaken_eq_false {owner id : Uuid} {name : Option String} (hname : name ≠ none) :
    nameTaken pf db owner id name = false ↔ ∀ c ∈ db.clusters, c.ownerId = owner →
      c.name.map pf.lower = name.map pf.lower → c.id = id := by
  cases name with
  | none => exact absurd rfl hname
  | some n =>
      simp only [nameTaken, List.any_eq_false, Bool.and_eq_true, decide_eq_true_eq, not_and,
        ne_eq, not_not, Option.map_some]
      exact ⟨fun h c hc howner hn => h c hc ⟨howner, hn⟩,
        fun h c hc hboth => h c hc hboth.1 hboth.2⟩

omit [DecidableEq K] in
theorem Database.NamesUnique.renameCluster {clusterId ownerId : String} {name : Option String}
    {c : Commit K (Option (String × String))} (hids : (db.clusters.map (·.id)).Nodup)
    (h : db.NamesUnique pf) (hrun : Db.renameCluster pf now db clusterId ownerId name = .ok c) :
    c.db.NamesUnique pf := by
  rcases renameCluster_ok hrun with ⟨hdb, -⟩ | ⟨id, row, hown, rfl⟩
  · exact hdb ▸ h
  obtain ⟨id', row', hown', hfree⟩ := renameCluster_free hrun rfl
  cases hown.cast.symm.trans hown'.cast
  cases hown.found.symm.trans hown'.found
  -- the renamed cluster against another one of the owner
  have hother : ∀ r ∈ db.clusters, r.ownerId = row.ownerId → storedName name ≠ none →
      r.name.map pf.lower = (storedName name).map pf.lower → r.id = id :=
    fun r hr howner hne => (nameTaken_eq_false hne).mp hfree r hr howner
  intro a ha b hb howner hne hname
  obtain ⟨a₀, ha₀, rfl⟩ := mem_updateClusters ha
  obtain ⟨b₀, hb₀, rfl⟩ := mem_updateClusters hb
  by_cases haid : a₀.id = id <;> by_cases hbid : b₀.id = id
  · simp only [haid, hbid, decide_true, if_true]
  · simp only [haid, hbid, decide_true, decide_false, if_true, Bool.false_eq_true,
      if_false] at howner hne hname ⊢
    have hrow := owner_of_owned hids hown ha₀ haid
    exact (hother b₀ hb₀ (howner.symm.trans hrow) hne hname.symm).symm
  · simp only [haid, hbid, decide_true, decide_false, if_true, Bool.false_eq_true,
      if_false] at howner hne hname ⊢
    have hrow := owner_of_owned hids hown hb₀ hbid
    refine (haid (hother a₀ ha₀ (howner.trans hrow) (fun hnone => hne ?_) hname)).elim
    rw [hnone, Option.map_none, Option.map_eq_none_iff] at hname
    exact hname
  · simp only [haid, hbid, decide_false, Bool.false_eq_true, if_false] at howner hne hname ⊢
    exact h a₀ ha₀ b₀ hb₀ howner hne hname

theorem Write.run_namesUnique {w : Write K} {c : Commit K w.Answer}
    (hids : (db.clusters.map (·.id)).Nodup)
    (h : db.NamesUnique pf) (hw : w.Sound db) (hrun : w.run pf fresh now db = .ok c) :
    c.db.NamesUnique pf := by
  cases w with
  | renameCluster clusterId ownerId name => exact h.renameCluster hids hrun
  | upsertCluster ownerId name isNamed centroid =>
      refine h.inherits (fun r hr => ?_) (Write.run_inherits rfl hrun)
      exact hr.2.trans hw.1
  | _ => exact h.inherits (fun _ hr => hr.elim) (Write.run_inherits rfl hrun)

/-! ### The rows of other owners -/

/-- The owner id a write is made under. -/
def Write.actor : Write K → Option String
  | upsertCluster ownerId .. => some ownerId
  | appendStreamOccurrences ownerId .. => some ownerId
  | renameCluster _ ownerId _ => some ownerId
  | deleteCluster _ ownerId => some ownerId
  | detachClusterFromStream _ _ ownerId => some ownerId
  | mergeClusters ownerId .. => some ownerId
  | updateClusterCentroid _ ownerId _ => some ownerId
  | setClusterCrop _ ownerId _ => some ownerId
  | cascadeStream _ => none

theorem isMine_text_iff {owner owner' : Uuid} :
    isMine owner.text owner' = true ↔ owner' = owner := by
  rw [isMine_iff, Uuid.castUuid_text, Except.ok.injEq]
  exact eq_comm

omit [DecidableEq K] in
/-- The rows of an owner are among those the user has no part in, if the user is another. -/
theorem of_congr_of_others {db' : Database K} {userId : String} {owner : Uuid}
    (hne : castUuid userId ≠ .ok owner) (h : db'.others userId = db.others userId) :
    db'.of owner.text = db.of owner.text := by
  have hpart : ∀ d : Database K, (d.others userId).of owner.text = d.of owner.text := by
    intro d
    have himp : ∀ o, isMine owner.text o = true → (!isMine userId o) = true := by
      intro o ho
      rw [isMine_text_iff.mp ho, Bool.not_eq_true', Bool.eq_false_iff]
      exact fun hmine => hne (isMine_iff.mp hmine)
    unfold Database.of Database.others
    simp only [List.filter_filter, Database.mk.injEq]
    constructor
    · refine List.filter_congr fun c _ => ?_
      cases hmine : isMine owner.text c.ownerId with
      | false => rfl
      | true => rw [himp _ hmine, Bool.and_self]
    · refine List.filter_congr fun o _ => ?_
      cases hmine : isMine owner.text o.ownerId with
      | false => rfl
      | true => rw [himp _ hmine, Bool.and_self]
  rw [← hpart db', h, hpart db]

omit [DecidableEq K] in
/-- The rows of a cluster are its owner's, so a purge of the tables is a purge of each owner's. -/
theorem purge_of (hl : db.Linked) (p : Occurrence K → Bool) (userId : String) (now : ℕ) :
    (purge now p db).of userId = purge now p (db.of userId) := by
  have hmine : ∀ c ∈ db.clusters, isMine userId c.ownerId = true → db.OnlyMine userId c.id := by
    intro c hc hown c' hc' hid
    rw [hl.eq_of_id hc' hc hid]
    exact hown
  have hsame : ∀ c ∈ db.clusters, isMine userId c.ownerId = true →
      settleCluster now (db.deleteOccurrences p) (hit p db) c =
        settleCluster now ((db.of userId).deleteOccurrences p) (hit p (db.of userId)) c := by
    intro c hc hown
    have hhit : c.id ∈ hit p (db.of userId) ↔ c.id ∈ hit p db := by
      rw [mem_hit, mem_hit]
      constructor
      · rintro ⟨o, ho, hp, hid⟩
        exact ⟨o, (List.mem_filter.mp ho).1, hp, hid⟩
      · rintro ⟨o, ho, hp, hid⟩
        exact ⟨o, List.mem_filter.mpr ⟨ho, hl.isMine_row ho (hid ▸ hmine c hc hown)⟩, hp, hid⟩
    have hcount : ((db.of userId).deleteOccurrences p).countFor c.id =
        (db.deleteOccurrences p).countFor c.id := by
      rw [← deleteOccurrences_of]
      exact countFor_of (hl.deleteOccurrences p) (hmine c hc hown)
    simp only [settleCluster, hhit, hcount]
  have hclusters : ∀ rows : List (Cluster K), (∀ c ∈ rows, c ∈ db.clusters) →
      (rows.filterMap (settleCluster now (db.deleteOccurrences p) (hit p db))).filter
          (fun c => isMine userId c.ownerId) =
        (rows.filter fun c => isMine userId c.ownerId).filterMap
          (settleCluster now ((db.of userId).deleteOccurrences p) (hit p (db.of userId))) := by
    intro rows hrows
    rw [List.filter_filterMap, List.filterMap_filter]
    apply List.filterMap_congr
    intro c hc
    cases hown : isMine userId c.ownerId with
    | true =>
        rw [if_pos rfl, hsame c (hrows c hc) hown]
        cases hsettle : settleCluster now ((db.of userId).deleteOccurrences p)
            (hit p (db.of userId)) c with
        | none => rfl
        | some c' => simp [(settleCluster_keeps hsettle).2, hown]
    | false =>
        cases hsettle : settleCluster now (db.deleteOccurrences p) (hit p db) c with
        | none => rfl
        | some c' => simp [(settleCluster_keeps hsettle).2, hown]
  refine congrArg₂ Database.mk (hclusters db.clusters fun _ hc => hc) ?_
  exact congrArg (·.occurrences) (deleteOccurrences_of p db userId)

omit [DecidableEq K] in
theorem purge_spares (hl : db.Linked) {stream owner : Uuid}
    (hnone : ∀ o ∈ db.occurrences, o.ownerId = owner → o.streamId ≠ stream) (now : ℕ) :
    (purge now (inStream stream) db).of owner.text = db.of owner.text := by
  rw [purge_of hl]
  apply purge_none
  intro o ho
  obtain ⟨hmem, hmine⟩ := List.mem_filter.mp ho
  simpa [inStream] using hnone o hmem (isMine_text_iff.mp hmine)

section

variable {K : Type} [LinearOrder K] {pf : Platform K} {fresh : Uuid} {now : ℕ} {db : Database K}

/-- A write does to the tables of the one it is made for what it does to the whole, and
nothing off them. -/
theorem Write.run_local (hl : db.Linked) {w : Write K}
    (hfresh : w.isUpsert = true → ∀ c ∈ db.clusters, c.id ≠ fresh) {userId : String}
    (hactor : w.actor = some userId) (hw : w.Sound db) :
    Agree (LocalCommit userId db) (w.run pf fresh now db) (w.run pf fresh now (db.of userId)) := by
  cases w with
  | appendStreamOccurrences ownerId streamId items =>
      obtain rfl : ownerId = userId := Option.some.inj hactor
      exact appendStreamOccurrences_of hl hw
  | upsertCluster ownerId name isNamed centroid =>
      exact Write.run_of pf now hl ⟨Option.some.inj hactor, hw.1, hw.2, hfresh rfl⟩
  | cascadeStream streamId => cases hactor
  | _ => exact Write.run_of pf now hl (Option.some.inj hactor)

theorem Write.run_others (hl : db.Linked) {w : Write K}
    (hfresh : w.isUpsert = true → ∀ c ∈ db.clusters, c.id ≠ fresh) {userId : String}
    (hactor : w.actor = some userId) (hw : w.Sound db) {c : Commit K w.Answer}
    (hrun : w.run pf fresh now db = .ok c) : c.db.others userId = db.others userId := by
  have hlocal := @Write.run_local K _ pf fresh now db hl w hfresh userId hactor hw
  rw [hrun] at hlocal
  cases hown : w.run pf fresh now (db.of userId) with
  | error e =>
      rw [hown] at hlocal
      exact hlocal.elim
  | ok c' =>
      rw [hown] at hlocal
      exact hlocal.others

/-- **A write leaves the rows of an owner alone** unless it is made under the
owner's id, or cascades a stream the owner has sightings in. -/
theorem Write.run_spares (hl : db.Linked) {w : Write K}
    (hfresh : w.isUpsert = true → ∀ c ∈ db.clusters, c.id ≠ fresh) {owner : Uuid}
    (hactor : ∀ userId, w.actor = some userId → castUuid userId ≠ .ok owner)
    (hcascade : ∀ streamId stream, w = .cascadeStream streamId → castUuid streamId = .ok stream →
      ∀ o ∈ db.occurrences, o.ownerId = owner → o.streamId ≠ stream)
    (hw : w.Sound db) {c : Commit K w.Answer} (hrun : w.run pf fresh now db = .ok c) :
    c.db.of owner.text = db.of owner.text := by
  cases hact : w.actor with
  | some userId =>
      exact of_congr_of_others (hactor userId hact) (Write.run_others hl hfresh hact hw hrun)
  | none =>
      cases w with
      | cascadeStream streamId =>
          obtain ⟨stream, hstream, hdb⟩ := cascadeStream_db hrun
          rw [hdb]
          exact purge_spares hl (hcascade streamId stream rfl hstream) now
      | _ => cases hact

end

end FacesService
