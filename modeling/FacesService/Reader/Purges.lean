import FacesService.Model.Assist
import FacesService.Reader.Merge
import FacesService.Store.Album

/-!
What the endpoints do to the album. Each is followed along its text: a deletion
with the purge after it, and a crop with the update after it, lead from a settled
album to a settled one, provided that the string the crop is purged or stored
under is the text of the cluster.

The strings are the caller's in five endpoints, and `Spelled` says when they are
such; elsewhere they come out of the table.
-/

namespace FacesService.Reader

open Prog Database Fallible Db

variable {K : Type} [Arithmetic K] {svc : Service K} {auth : AuthContext} {oracle : Oracle}

/-! ### Rules -/

variable {A E : Album K → Prop} {α : Type}

omit [Arithmetic K] in
theorem ownedCluster_looks (clusterId : String) :
    (ownedCluster (K := K) auth clusterId).Within Looks fun _ => True := by
  unfold ownedCluster
  refine within_bind (within_perform (.query _)) fun found => ?_
  cases found with
  | none => trivial
  | some c =>
      dsimp only
      split
      · trivial
      · exact within_pure _

theorem ownedCluster_leads (clusterId : String) :
    Leads svc oracle A (ownedCluster auth clusterId) (fun c a => A a ∧
      rowOf a.db clusterId = some c ∧ ensureOwner auth c.ownerId.text = .ok ()) A := by
  refine (looks_leads (ownedCluster_looks clusterId)).conseq (fun _ h => h) ?_ fun _ h => h
  rintro c s ⟨hA, w, w', hdb, -, hexec⟩
  obtain ⟨hrow, howner, -⟩ := ownedCluster_ok hexec
  exact ⟨hA, hdb ▸ hrow, howner⟩

/-- Whatever the rest does, it may use the row. -/
theorem owned_leads {β : Type} {clusterId : String} {f : Cluster K → Program K β}
    {B : β → Album K → Prop} (hE : ∀ a, A a → E a)
    (hf : ∀ c, ensureOwner auth c.ownerId.text = .ok () →
      Leads svc oracle (fun a => A a ∧ rowOf a.db clusterId = some c) (f c) B E) :
    Leads svc oracle A (ownedCluster auth clusterId >>= f) B E := by
  refine Triple.bind ((ownedCluster_leads clusterId).conseq (fun _ h => h) (fun _ _ h => h)
    fun _ h => hE _ h) fun c => ?_
  exact Triple.assuming (fun s h => h.2.2) fun howner =>
    (hf c howner).conseq (fun s h => ⟨h.1, h.2.1⟩) (fun _ _ h => h) fun _ h => h

theorem orElse_leads {p : Program K α} {other : α} {B : α → Album K → Prop}
    (hp : Leads svc oracle A p B E) (hother : ∀ a, E a → B other a) :
    Leads svc oracle A (orElse p other) B E := by
  refine Triple.caught hp fun e => ?_
  split
  · exact Triple.fail fun _ h => h
  · exact Triple.ret fun s h => hother _ h

/-! ### Deleting -/

section Deleting

variable (hready : svc.storeReady = true)

include hready

/-- A purge settles what is owed under its key. -/
theorem purgeCrop_leads {owed : Uuid → Uuid → Prop} {R : Database K → Prop} {ownerId clusterId : String}
    {id : Uuid} (hid : castUuid clusterId = .ok id) :
    Leads svc oracle (fun a => a.Owing owed ∧ (∀ c ∈ a.db.clusters, c.id ≠ id) ∧ R a.db)
      (purgeCrop svc true ownerId clusterId)
      (fun _ a => a.Owing (fun o i => owed o i ∧ ¬ (o.text = ownerId ∧ i.text = clusterId)) ∧ R a.db)
      E := by
  rw [purgeCrop, hready]
  refine Triple.caught (F := fun _ => False) (Triple.performed ?_) fun e => fun s h => h.elim
  rintro s ⟨howing, hdead, hR⟩
  exact ⟨howing.purge hid hdead, hR⟩

omit [Arithmetic K] hready in
theorem truthy_cropKey (ownerId clusterId : String) :
    truthy (some (cropKey ownerId clusterId)) = true := by
  have hne : cropKey ownerId clusterId ≠ "" := by
    intro h
    have hlist := congrArg String.toList h
    rw [cropKey_toList] at hlist
    simp at hlist
  simpa [truthy] using hne

/-- One cluster may have been deleted under this string, with this crop. If so,
its crop is owed, and the string is right. -/
def Doomed (R : Database K → Prop) (clusterId ownerId : String) (crop : Option String) (a : Album K) :
    Prop :=
  (crop = none ∧ a.Settled ∧ R a.db) ∨
    ∃ owner id, castUuid clusterId = .ok id ∧ ownerId = owner.text ∧
      (crop ≠ none → clusterId = id.text ∧ truthy crop = true) ∧
      a.Owing (fun o i => crop ≠ none ∧ o = owner ∧ i = id) ∧ (∀ c ∈ a.db.clusters, c.id ≠ id) ∧ R a.db

theorem settle_leads {R : Database K → Prop} (clusterId ownerId : String) (crop : Option String) :
    Leads svc oracle (Doomed R clusterId ownerId crop) (purgeCrop svc (truthy crop) ownerId clusterId)
      (fun _ a => a.Settled ∧ R a.db) E := by
  cases hdue : truthy crop with
  | false =>
      rw [purgeCrop, Bool.and_false, if_neg Bool.false_ne_true]
      refine Triple.ret ?_
      rintro s (⟨-, hset, hR⟩ | ⟨owner, id, -, -, hcrop, howing, -, hR⟩)
      · exact ⟨hset, hR⟩
      · refine ⟨howing.mono fun o i h => ?_, hR⟩
        rw [(hcrop h.1).2] at hdue
        cases hdue
  | true =>
      rintro s (⟨rfl, -, -⟩ | ⟨owner, id, hid, rfl, hcrop, howing, hdead, hR⟩)
      · cases hdue
      · refine (purgeCrop_leads hready hid s ⟨howing, hdead, hR⟩).mono
          (fun _ s h => ⟨h.1.mono ?_, h.2⟩) fun _ h => h
        rintro o i ⟨⟨hsome, rfl, rfl⟩, hnot⟩
        exact hnot ⟨rfl, (hcrop hsome).1.symm⟩

omit [Arithmetic K] hready in
theorem doomed_of_loses {a : Album K} (h : a.Settled) {R : Database K → Prop}
    {clusterId ownerId : String} {id : Uuid} {row : Cluster K} {db' : Database K}
    (hown : Owned a.db clusterId ownerId id row) (hloses : Loses [id] a.db db')
    (hspelled : row.cropObject ≠ none → clusterId = row.id.text) (hR : R db') :
    Doomed R clusterId ownerId row.cropObject ⟨a.last, db', a.objects⟩ := by
  obtain ⟨hrow, hid⟩ := hown.mem
  refine .inr ⟨row.ownerId, id, hown.cast, hown.owner.symm, fun hcrop => ?_, ?_, ?_, hR⟩
  · refine ⟨hid ▸ hspelled hcrop, ?_⟩
    rw [(h.shown row hrow hcrop).1, truthy_cropKey]
  · refine (h.loses hloses).mono ?_
    rintro o i ⟨hi, c, hc, rfl, rfl, hcrop⟩
    rw [List.mem_singleton] at hi
    cases List.inj_on_of_nodup_map h.ids hc hrow (hi.trans hid.symm)
    exact ⟨hcrop, rfl, hi⟩
  · intro c hc
    have hnot := (hloses.mem hc).1
    rwa [List.mem_singleton] at hnot

/-- The string under which a caller's cluster is deleted first is its text. -/
def FirstSpelled (auth : AuthContext) (ids : List String) (db : Database K) : Prop :=
  ∀ row ∈ db.clusters, row.ownerId.text = auth.userId → row.cropObject ≠ none →
    ∀ cid, ids.find? (fun cid => (castUuid cid).toOption = some row.id) = some cid → cid = row.id.text

omit [Arithmetic K] hready in
theorem toOption_castUuid {cid : String} {id : Uuid} :
    (castUuid cid).toOption = some id ↔ castUuid cid = .ok id := by
  cases castUuid cid <;> simp [Except.toOption]

/-- What a deletion leaves, by what it reports. -/
def Deleted (R : Database K → Prop) (clusterId : String) : Option DeletedCluster → Album K → Prop
  | none, a => a.Settled ∧ R a.db
  | some d, a => Doomed R clusterId d.ownerId d.cropObject a

omit hready in
theorem deleteCluster_leads {P R : Database K → Prop} {clusterId ownerId : String}
    (hmissed : ∀ db, (db.clusters.map (·.id)).Nodup → P db →
      (∀ id row, ¬ Owned db clusterId ownerId id row) → R db)
    (hdeleted : ∀ db db' id row, (db.clusters.map (·.id)).Nodup → P db →
      Owned db clusterId ownerId id row → Loses [id] db db' →
      (row.cropObject ≠ none → clusterId = row.id.text) ∧ R db') :
    Leads svc oracle (fun a => a.Settled ∧ P a.db) (write (.deleteCluster clusterId ownerId))
      (Deleted R clusterId) Album.Settled := by
  refine write_leads ?_ fun _ _ _ _ hA _ => hA.1
  rintro a fresh now c ⟨hset, hP⟩ hrun
  rcases deleteCluster_loses hrun with ⟨hresult, hdb, hnone⟩ |
    ⟨id, row, d, hown, hresult, howner, hcrop, hloses⟩
  · rw [hresult, hdb]
    exact ⟨hset, hmissed a.db hset.ids hP hnone⟩
  · obtain ⟨hspelled, hR⟩ := hdeleted a.db c.db id row hset.ids hP hown hloses
    rw [hresult, Deleted, howner, hcrop]
    exact doomed_of_loses hset hown hloses hspelled hR

theorem deleteListed_leads (deleted : ℕ) (clusterId : String) (ids : List String) :
    Leads svc oracle (fun a => a.Settled ∧ FirstSpelled auth (clusterId :: ids) a.db)
      (deleteListed svc auth deleted clusterId)
      (fun _ a => a.Settled ∧ FirstSpelled auth ids a.db) Album.Settled := by
  unfold deleteListed
  refine Triple.bind (deleteCluster_leads (R := FirstSpelled auth ids) ?_ ?_) fun result => ?_
  · intro db hids hfirst hnone row hrow hmine hcrop cid hcid
    refine hfirst row hrow hmine hcrop cid ?_
    rw [List.find?_cons_of_neg, hcid]
    -- the string names no cluster of the caller
    rw [decide_eq_true_eq, toOption_castUuid]
    exact fun hcast => hnone row.id row ⟨hcast, clusterById_of_nodup hids hrow, hmine⟩
  · intro db db' id row hids hfirst hown hloses
    obtain ⟨hrow, hid⟩ := hown.mem
    refine ⟨fun hcrop => hfirst row hrow hown.owner hcrop clusterId ?_, ?_⟩
    · refine List.find?_cons_of_pos ?_
      rw [decide_eq_true_eq, toOption_castUuid, hid]
      exact hown.cast
    · intro row' hrow' hmine hcrop cid hcid
      obtain ⟨hnot, c, hc, hcell⟩ := hloses.mem hrow'
      simp only [cropCell, Prod.mk.injEq] at hcell
      rw [← hcell.1]
      rw [← hcell.1, List.mem_singleton] at hnot
      refine hfirst c hc (hcell.2.1 ▸ hmine) (hcell.2.2 ▸ hcrop) cid ?_
      rw [List.find?_cons_of_neg, hcell.1, hcid]
      rw [decide_eq_true_eq, toOption_castUuid, hown.cast]
      exact fun heq => hnot (Except.ok.inj heq).symm
  · cases result with
    | none => exact Triple.ret fun _ h => h
    | some d =>
        exact Triple.bind (settle_leads hready clusterId d.ownerId d.cropObject) fun _ =>
          Triple.ret fun _ h => h

theorem deleteFacesBatch_leads (ids : List String) :
    Leads svc oracle (fun a => a.Settled ∧ FirstSpelled auth (Db.fromKeys ids) a.db)
      (deleteFacesBatch svc auth ids) (fun _ => Album.Settled) Album.Settled :=
  (Triple.foldlM (I := fun ids _ s => (albumOf s).Settled ∧ FirstSpelled auth ids (albumOf s).db)
    (fun deleted cid ids => deleteListed_leads hready deleted cid ids) (Db.fromKeys ids) 0).conseq
    (fun _ h => h) (fun _ _ h => h.1) fun _ h => h

/-- The ids of `delete_empty_faces` come out of the table. -/
theorem deleteEmptyFaces_leads :
    Leads svc oracle Album.Settled (deleteEmptyFaces svc auth) (fun _ => Album.Settled)
      Album.Settled := by
  refine Triple.bind (looks_keeps (within_perform (.query _))) fun rows => ?_
  refine (Triple.foldlM (I := fun ids _ s => (albumOf s).Settled ∧ FirstSpelled auth ids (albumOf s).db)
    (fun deleted cid ids => deleteListed_leads hready deleted cid ids) (rows.map (·.id.text)) 0).conseq
    (fun s h => ⟨h, fun row hrow hmine hcrop cid hcid => ?_⟩) (fun _ _ h => h.1) fun _ h => h
  have hcast := List.find?_some hcid
  rw [decide_eq_true_eq, toOption_castUuid] at hcast
  obtain ⟨r, hr, rfl⟩ := List.mem_map.mp (List.mem_of_find?_eq_some hcid)
  rw [Uuid.castUuid_text] at hcast
  rw [Except.ok.inj hcast]

/-- A cluster the caller may change, by a string. -/
def Mine (auth : AuthContext) (db : Database K) (clusterId : String) (row : Cluster K) : Prop :=
  rowOf db clusterId = some row ∧ ensureOwner auth row.ownerId.text = .ok ()

omit hready in
omit [Arithmetic K] in
theorem Owned.rowOf_eq {db : Database K} {clusterId ownerId : String} {id : Uuid} {row : Cluster K}
    (h : Owned db clusterId ownerId id row) : rowOf db clusterId = some row :=
  rowOf_eq_some.mpr ⟨id, h.cast, h.found⟩

/-- The string under which the caller deletes a cluster is its text. -/
def DeleteSpelled (auth : AuthContext) (clusterId : String) (db : Database K) : Prop :=
  ∀ row, Mine auth db clusterId row → row.cropObject ≠ none → clusterId = row.id.text

theorem deleteFace_leads (clusterId : String) :
    Leads svc oracle (fun a => a.Settled ∧ DeleteSpelled auth clusterId a.db)
      (deleteFace svc auth clusterId) (fun _ => Album.Settled) Album.Settled := by
  refine owned_leads (fun _ h => h.1) fun c howner => ?_
  refine Triple.bind (M := fun result s => Deleted (fun _ => True) clusterId result (albumOf s))
    ((deleteCluster_leads
      (P := fun db => DeleteSpelled auth clusterId db ∧ rowOf db clusterId = some c)
      (fun _ _ _ _ => trivial) ?_).conseq (fun _ h => ⟨h.1.1, h.1.2, h.2⟩) (fun _ _ h => h) fun _ h => h)
    fun result => ?_
  · rintro db db' id row - ⟨hspelled, hrow⟩ hown -
    have hsame : row = c := Option.some.inj ((Owned.rowOf_eq hown).symm.trans hrow)
    exact ⟨fun hcrop => hspelled row ⟨Owned.rowOf_eq hown, by rw [hsame]; exact howner⟩ hcrop, trivial⟩
  · cases result with
    | none => exact Triple.fail fun _ h => h.1
    | some d =>
        exact Triple.bind (settle_leads (R := fun _ => True) hready clusterId d.ownerId d.cropObject)
          fun _ => Triple.ret fun _ h => h.1

/-- What a detachment leaves, by what it reports. -/
def DetachLeft (clusterId ownerId : String) : Option DetachSummary → Album K → Prop
  | none, a => a.Settled
  | some d, a => Doomed (fun _ => True) clusterId ownerId d.cropObject a

/-- The string under which the caller detaches the last sightings of a cluster is
its text. -/
def DetachSpelled (auth : AuthContext) (streamId clusterId : String) (db : Database K) : Prop :=
  ∀ row, Mine auth db clusterId row → row.cropObject ≠ none →
    (∀ o ∈ db.occurrences, o.clusterId = row.id → castUuid streamId = .ok o.streamId) →
    clusterId = row.id.text

omit hready in
theorem detachClusterFromStream_leads {c : Cluster K} (howner : ensureOwner auth c.ownerId.text = .ok ())
    (streamId clusterId : String) :
    Leads svc oracle (fun a => (a.Settled ∧ DetachSpelled auth streamId clusterId a.db) ∧
        rowOf a.db clusterId = some c)
      (write (.detachClusterFromStream clusterId streamId c.ownerId.text))
      (DetachLeft clusterId c.ownerId.text) Album.Settled := by
  refine write_leads ?_ fun _ _ _ _ hA _ => hA.1.1
  rintro a fresh now commit ⟨⟨hset, hspelled⟩, hrow⟩ hrun
  rcases detachClusterFromStream_loses hset.ids hrun with ⟨hcolumn, hnone⟩ |
    ⟨id, row, d, stream, hown, hstream, hlast, hresult, hcrop, hloses⟩
  · have hkept := hset.keeps hcolumn
    cases hresult : commit.result with
    | none => exact hkept
    | some d => exact .inl ⟨hnone d hresult, hkept, trivial⟩
  · have hsame : row = c := Option.some.inj ((Owned.rowOf_eq hown).symm.trans hrow)
    rw [hresult, DetachLeft, hcrop]
    refine doomed_of_loses hset hown hloses (fun hne => ?_) trivial
    refine hspelled row ⟨Owned.rowOf_eq hown, by rw [hsame]; exact howner⟩ hne fun o ho hoid => ?_
    rw [hstream, hlast o ho (hoid.trans hown.mem.2)]

theorem detachStreamFace_leads (streamId clusterId : String) :
    Leads svc oracle (fun a => a.Settled ∧ DetachSpelled auth streamId clusterId a.db)
      (detachStreamFace svc auth streamId clusterId) (fun _ => Album.Settled) Album.Settled := by
  refine owned_leads (fun _ h => h.1) fun c howner => ?_
  refine Triple.bind (detachClusterFromStream_leads howner streamId clusterId) fun result => ?_
  cases result with
  | none => exact Triple.fail fun _ h => h
  | some d =>
      exact Triple.bind (settle_leads (R := fun _ => True) hready clusterId c.ownerId.text d.cropObject)
        fun _ => Triple.ret fun _ h => h.1

/-! ### Merging -/

/-- The crops of the sources of a merge are owed, under their own texts. -/
def Indebted (ownerId : String) (ids : List String) (a : Album K) : Prop :=
  a.Owing (fun owner id => owner.text = ownerId ∧ id.text ∈ ids) ∧
    ∀ cid ∈ ids, ∃ id, castUuid cid = .ok id ∧ ∀ c ∈ a.db.clusters, c.id ≠ id

theorem purgeAll_leads (ownerId : String) (ids : List String) :
    Leads svc oracle (Indebted ownerId ids) (ids.forM (purgeCrop svc true ownerId))
      (fun _ => Album.Settled) E := by
  refine (Triple.forM (I := fun ids s => Indebted ownerId ids (albumOf s)) ?_ ids).conseq
    (fun _ h => h) (fun _ s h => h.1.mono fun _ _ howed => by simp at howed) fun _ h => h
  rintro cid ids s ⟨howing, hdead⟩
  obtain ⟨⟨id, hid, hgone⟩, hrest⟩ := List.forall_mem_cons.mp hdead
  refine (purgeCrop_leads (R := fun db => ∀ cid ∈ ids, ∃ id, castUuid cid = .ok id ∧
    ∀ c ∈ db.clusters, c.id ≠ id) hready hid s ⟨howing, hgone, hrest⟩).mono
    (fun _ s h => ⟨h.1.mono ?_, h.2⟩) fun _ h => h
  rintro owner id' ⟨⟨howner, hmem⟩, hnot⟩
  refine ⟨howner, (List.mem_cons.mp hmem).resolve_left fun heq => hnot ⟨howner, heq⟩⟩

/-- Every source with a crop is among the sources in its own text. -/
def SourcesSpelled (ids : List String) (db : Database K) : Prop :=
  ∀ row ∈ db.clusters, row.cropObject ≠ none → row.id ∈ denoted ids → row.id.text ∈ ids

/-- What a merge leaves, by what it reports. -/
def MergeLeft (ownerId : String) (ids : List String) : Option Merged → Album K → Prop
  | none, a => a.Settled
  | some m, a => m.deletedClusterIds = ids ∧ Indebted ownerId ids a

omit hready in
theorem mergeClusters_leads (ownerId targetId : String) (ids : List String) :
    Leads svc oracle (fun a => a.Settled ∧ SourcesSpelled ids a.db)
      (write (.mergeClusters ownerId targetId ids)) (MergeLeft ownerId ids) Album.Settled := by
  refine write_leads ?_ fun _ _ _ _ hA _ => hA.1
  rintro a fresh now c ⟨hset, hspelled⟩ hrun
  rcases mergeClusters_loses hrun with ⟨hresult, hdb⟩ | ⟨m, hresult, hids, howned, hloses⟩
  · rw [hresult, hdb]
    exact hset
  · rw [hresult]
    refine ⟨hids, (hset.loses hloses).mono ?_, fun cid hcid => ?_⟩
    · rintro owner id ⟨hid, c', hc', rfl, rfl, hcrop⟩
      refine ⟨?_, hspelled c' hc' hcrop hid⟩
      obtain ⟨cid, hcid, hcast⟩ := mem_denoted.mp hid
      obtain ⟨id', row, hown⟩ := howned cid hcid
      have hsame : row.id = c'.id := hown.mem.2.trans (Except.ok.inj (hown.cast.symm.trans hcast))
      rw [← hown.owner, List.inj_on_of_nodup_map hset.ids hown.mem.1 hc' hsame]
    · obtain ⟨id, row, hown⟩ := howned cid hcid
      exact ⟨id, hown.cast, fun r hr heq =>
        (hloses.mem hr).1 (heq ▸ mem_denoted.mpr ⟨cid, hcid, hown.cast⟩)⟩

omit [Arithmetic K] hready in
theorem selectTarget_looks (ids : List String) :
    (selectTarget (K := K) auth ids).Within Looks fun _ => True := by
  have hchoose : ∀ target, (chooseTarget (K := K) auth ids target).Within Looks fun _ => True := by
    induction ids with
    | nil => exact fun target => within_pure _
    | cons cid ids ih =>
        exact fun target => within_bind (ownedCluster_looks cid) fun c => ih _
  unfold selectTarget
  refine within_bind (hchoose none) fun target => ?_
  cases target with
  | some t => exact within_pure _
  | none =>
      cases ids with
      | nil => trivial
      | cons cid ids =>
          refine within_bind (within_perform (.query _)) fun found => ?_
          cases found with
          | none => trivial
          | some c => exact within_pure _

theorem mergeFaces_leads (ids : List String) :
    Leads svc oracle (fun a => a.Settled ∧ ∀ targetId, mergeTarget a.db ids = some targetId →
        SourcesSpelled (ids.filter (· ≠ targetId)) a.db)
      (mergeFaces svc auth ids) (fun _ => Album.Settled) Album.Settled := by
  unfold mergeFaces
  refine Triple.bind ((looks_leads (A := fun a => a.Settled ∧ ∀ targetId,
    mergeTarget a.db ids = some targetId → SourcesSpelled (ids.filter (· ≠ targetId)) a.db)
    (selectTarget_looks ids)).conseq (fun _ h => h) (fun _ _ h => h) fun _ h => h.1) ?_
  rintro ⟨targetId, targetOwner⟩
  refine Triple.bind ((mergeClusters_leads targetOwner targetId (ids.filter (· ≠ targetId))).conseq
    ?_ (fun _ _ h => h) fun _ h => h) fun result => ?_
  · rintro s ⟨⟨hset, hspelled⟩, w, w', hdb, -, hexec⟩
    exact ⟨hset, hspelled targetId (hdb ▸ (selectTarget_ok hexec).2.2)⟩
  · cases result with
    | none => exact Triple.fail fun _ h => h
    | some m =>
        refine Triple.assuming (fun s h => h.1) fun hids => ?_
        dsimp only
        rw [hids]
        refine Triple.bind ((purgeAll_leads hready targetOwner _).conseq (fun _ h => h.2)
          (fun _ _ h => h) fun _ h => h) fun _ => ?_
        exact Triple.bind (looks_keeps (within_perform (.query _))) fun _ => Triple.ret fun _ h => h

theorem mergeGroup_leads (counts : MergeCounts) (g : Group K) :
    Leads svc oracle Album.Settled (mergeGroup svc auth counts g) (fun _ => Album.Settled)
      Album.Settled := by
  unfold mergeGroup
  set ids := (g.clusters.map (·.id.text)).filter (· ≠ (groupTarget g).id.text) with hids
  -- the sources are texts already
  have hspelled : ∀ db : Database K, SourcesSpelled ids db := by
    intro db row _ _ hmem
    obtain ⟨cid, hcid, hcast⟩ := mem_denoted.mp hmem
    obtain ⟨c, -, hc⟩ := List.mem_map.mp (List.mem_of_mem_filter hcid)
    rw [← hc, Uuid.castUuid_text] at hcast
    rw [← Except.ok.inj hcast, hc]
    exact hcid
  refine Triple.bind (M := fun result s => MergeLeft auth.userId ids result (albumOf s))
    (orElse_leads ((mergeClusters_leads auth.userId _ ids).conseq (fun s h => ⟨h, hspelled _⟩)
      (fun _ _ h => h) fun _ h => h) fun _ h => h) fun result => ?_
  cases result with
  | none => exact Triple.ret fun _ h => h
  | some m =>
      refine Triple.assuming (fun s h => h.1) fun hm => ?_
      dsimp only
      rw [hm]
      exact Triple.bind ((purgeAll_leads hready auth.userId ids).conseq (fun _ h => h.2)
        (fun _ _ h => h) fun _ h => h) fun _ => Triple.ret fun _ h => h

theorem mergeDuplicateGroups_leads (minSimilarity : Option K) :
    Leads svc oracle Album.Settled (mergeDuplicateGroups svc auth minSimilarity)
      (fun _ => Album.Settled) Album.Settled := by
  unfold mergeDuplicateGroups
  refine Triple.bind (looks_keeps (within_perform (.query _))) fun clusters => ?_
  refine Triple.bind (looks_keeps (within_perform (.query _))) fun videos => ?_
  refine Triple.bind (Triple.lifted (fun _ _ _ h => h) fun _ h => h) fun groups => ?_
  exact Triple.foldlM (I := fun _ _ s => (albumOf s).Settled)
    (fun counts g _ => mergeGroup_leads hready counts g) _ _

end Deleting

end FacesService.Reader
