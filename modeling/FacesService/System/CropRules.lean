import FacesService.Store.Bumps
import FacesService.Store.Crops
import FacesService.System.Regime

/-!
The discipline under which the table and the bucket stay together: a crop is put
before a row names it, and removed only once its cluster is gone. Ids are drawn only
once, so a cluster that is gone stays gone, and neither a put nor a removal that comes
late can harm another one.
-/

namespace FacesService

open Prog Database Db

variable {K : Type}

/-! ### What is relied on -/

/-- The cluster is not there, and will not be. -/
structure Gone (supply : Supply) (id : Uuid) (w : World K) : Prop where
  drawn : ∀ n, w.draws ≤ n → n < supply.limit → supply.oracle.fresh n ≠ id
  absent : ∀ c ∈ w.db.clusters, c.id ≠ id

/-- What the row names is in the bucket, under a key of its cluster. -/
def Cluster.Shown (objects : String → Option Blob) (c : Cluster K) : Prop :=
  ∀ key, c.cropObject = some key → objects key ≠ none ∧
    ∃ ownerId clusterId, castUuid clusterId = .ok c.id ∧ key = cropKey ownerId clusterId

structure Illustrated (supply : Supply) (w : World K) : Prop where
  ids : (w.db.clusters.map (·.id)).Nodup
  unborn : ∀ n, w.draws ≤ n → n < supply.limit → ∀ c ∈ w.db.clusters, c.id ≠ supply.oracle.fresh n
  shown : ∀ c ∈ w.db.clusters, c.Shown w.objects

/-- The crop is there, for as long as its cluster is. -/
def InBucket (supply : Supply) (ownerId clusterId : String) (w : World K) : Prop :=
  ∀ id, castUuid clusterId = .ok id → w.objects (cropKey ownerId clusterId) ≠ none ∨ Gone supply id w

/-- Nobody needs the object. -/
def Unneeded (supply : Supply) (name : String) (w : World K) : Prop :=
  ∀ ownerId clusterId id, castUuid clusterId = .ok id → name = cropKey ownerId clusterId → Gone supply id w

/-- What a step may do to the world. -/
def CropRely (supply : Supply) (w w' : World K) : Prop :=
  Illustrated supply w → Illustrated supply w' ∧ (∀ id, Gone supply id w → Gone supply id w') ∧
    ∀ ownerId clusterId, InBucket supply ownerId clusterId w → InBucket supply ownerId clusterId w'

theorem CropRely.refl {supply : Supply} (w : World K) : CropRely supply w w :=
  fun h => ⟨h, fun _ hgone => hgone, fun _ _ hbucket => hbucket⟩

theorem CropRely.trans {supply : Supply} {w w' w'' : World K} (h : CropRely supply w w')
    (h' : CropRely supply w' w'') : CropRely supply w w'' := by
  intro hw
  obtain ⟨hw', hgone, hbucket⟩ := h hw
  obtain ⟨hw'', hgone', hbucket'⟩ := h' hw'
  exact ⟨hw'', fun id hid => hgone' id (hgone id hid), fun o c hoc => hbucket' o c (hbucket o c hoc)⟩

/-! ### What is allowed -/

/-- A crop is removed that nobody needs, and noted that is there. -/
def Call.Tidy (supply : Supply) : Call K → World K → Prop
  | .deleteCrop ownerId clusterId, w => Unneeded supply (cropKey ownerId clusterId) w
  | .write (.setClusterCrop clusterId _ cropObject), w => ∀ key, cropObject = some key →
      ∃ ownerId, key = cropKey ownerId clusterId ∧ InBucket supply ownerId clusterId w
  | _, _ => True

def RouteCall.Tidy (supply : Supply) : RouteCall → World K → Prop
  | .removeObject name, w => Unneeded supply name w
  | _, _ => True

/-! ### The guarantee -/

section

variable {supply : Supply} {w w' : World K}

theorem Gone.of_db {id : Uuid} (h : Gone supply id w) (hdb : w'.db = w.db) (hdraws : w.draws ≤ w'.draws) :
    Gone supply id w' :=
  ⟨fun n hn => h.drawn n (le_trans hdraws hn), fun c hc => h.absent c (hdb ▸ hc)⟩

/-- The table is as it was, and no object went that somebody needs. -/
theorem CropRely.of_db (hdb : w'.db = w.db) (hdraws : w.draws ≤ w'.draws)
    (hobjects : ∀ ownerId clusterId id, castUuid clusterId = .ok id →
      w.objects (cropKey ownerId clusterId) ≠ none →
      w'.objects (cropKey ownerId clusterId) ≠ none ∨ Gone supply id w) : CropRely supply w w' := by
  intro hw
  refine ⟨⟨hdb ▸ hw.ids, fun n hn hlimit c hc => ?_, fun c hc key hkey => ?_⟩, fun id hid => hid.of_db hdb hdraws,
    fun ownerId clusterId hbucket id hid => ?_⟩
  · exact hw.unborn n (le_trans hdraws hn) hlimit c (hdb ▸ hc)
  · rw [hdb] at hc
    obtain ⟨hobj, ownerId, clusterId, hid, rfl⟩ := hw.shown c hc key hkey
    refine ⟨?_, ownerId, clusterId, hid, rfl⟩
    rcases hobjects ownerId clusterId c.id hid hobj with hstays | hgone
    · exact hstays
    · exact absurd rfl (hgone.absent c hc)
  · rcases hbucket id hid with hobj | hgone
    · exact (hobjects ownerId clusterId id hid hobj).imp_right fun hgone => hgone.of_db hdb hdraws
    · exact .inr (hgone.of_db hdb hdraws)

theorem CropRely.nothing (hdb : w'.db = w.db) (hobjects : w'.objects = w.objects)
    (hdraws : w.draws ≤ w'.draws) : CropRely supply w w' :=
  .of_db hdb hdraws fun _ _ _ _ hobj => .inl (hobjects ▸ hobj)

theorem CropRely.removed {name : String} (h : Unneeded supply name w) (hdb : w'.db = w.db)
    (hobjects : w'.objects = Function.update w.objects name none) (hdraws : w.draws ≤ w'.draws) :
    CropRely supply w w' := by
  refine .of_db hdb hdraws fun ownerId clusterId id hid hobj => ?_
  by_cases hname : cropKey ownerId clusterId = name
  · exact .inr (h ownerId clusterId id hid hname.symm)
  · rw [hobjects, Function.update_of_ne hname]
    exact .inl hobj

theorem CropRely.put {name : String} {blob : Blob} (hdb : w'.db = w.db)
    (hobjects : w'.objects = Function.update w.objects name (some blob)) (hdraws : w.draws ≤ w'.draws) :
    CropRely supply w w' := by
  refine .of_db hdb hdraws fun ownerId clusterId id _ hobj => .inl ?_
  by_cases hname : cropKey ownerId clusterId = name
  · rw [hobjects, hname, Function.update_self]
    simp
  · rw [hobjects, Function.update_of_ne hname]
    exact hobj

variable [Arithmetic K] {pf : Platform K}

theorem Gone.committed (hw : Illustrated supply w) {id : Uuid} (h : Gone supply id w) {wr : Write K}
    {c : Commit K wr.Answer}
    (hrun : wr.run pf (supply.oracle.fresh w.draws) (supply.oracle.clock w.calls) w.db = .ok c)
    (hdb : w'.db = c.db) (hdraws : w'.draws = w.draws + if wr.isUpsert then 1 else 0)
    (hlimit : w'.draws ≤ supply.limit) : Gone supply id w' where
  drawn n hn := h.drawn n (by omega)
  absent row hrow heq := by
    cases Write.run_leaves hw.ids hrun (hdb ▸ hrow) with
    | same old hold hid => exact h.absent old hold (hid.trans heq)
    | noted old hold hid => exact h.absent old hold (hid.trans heq)
    | new hupsert hid =>
        rw [if_pos hupsert] at hdraws
        exact h.drawn w.draws (le_refl _) (by omega) (hid.symm.trans heq)

theorem CropRely.committed {wr : Write K} {c : Commit K wr.Answer} (htidy : Call.Tidy supply (.write wr) w)
    (hrun : wr.run pf (supply.oracle.fresh w.draws) (supply.oracle.clock w.calls) w.db = .ok c)
    (hdb : w'.db = c.db) (hobjects : w'.objects = w.objects)
    (hdraws : w'.draws = w.draws + if wr.isUpsert then 1 else 0) (hlimit : w'.draws ≤ supply.limit) :
    CropRely supply w w' := by
  intro hw
  have hgone : ∀ id, Gone supply id w → Gone supply id w' :=
    fun id hid => hid.committed hw hrun hdb hdraws hlimit
  refine ⟨⟨hdb ▸ Write.run_ids hw.ids hrun, fun n hn hnlimit row hrow => ?_, fun row hrow key hkey => ?_⟩,
    hgone, fun ownerId clusterId hbucket id hid => ?_⟩
  · cases Write.run_leaves hw.ids hrun (hdb ▸ hrow) with
    | same old hold hid => exact hid ▸ hw.unborn n (by omega) hnlimit old hold
    | noted old hold hid => exact hid ▸ hw.unborn n (by omega) hnlimit old hold
    | new hupsert hid =>
        rw [if_pos hupsert] at hdraws
        rw [hid]
        intro heq
        have hdrawn : w.draws < supply.limit := by omega
        have hsame := supply.apart hdrawn hnlimit heq
        omega
  · rw [hobjects]
    cases Write.run_leaves hw.ids hrun (hdb ▸ hrow) with
    | same old hold hid hcrop =>
        rw [← hid]
        exact hw.shown old hold key (hcrop.trans hkey)
    | @noted old hold hid clusterId ownerId hwr hcast =>
        subst hwr
        obtain ⟨ownerId', rfl, hbucket⟩ := htidy key hkey
        rcases hbucket row.id hcast with hobj | hgone
        · exact ⟨hobj, ownerId', clusterId, hcast, rfl⟩
        · exact absurd hid (hgone.absent old hold)
    | new hupsert hid hcrop =>
        rw [hcrop] at hkey
        cases hkey
  · rw [hobjects]
    exact (hbucket id hid).imp_right (hgone id)

/-- A put that fails may have stored the crop all the same. -/
theorem Outcome.putCrop_cases {ownerId clusterId : String} {data : Bytes} {r : Except PyError String}
    (h : Outcome pf supply.oracle (.putCrop ownerId clusterId data) w r w') :
    w'.db = w.db ∧ w'.draws = w.draws ∧ ((∃ e, r = .error e) ∧ w'.objects = w.objects ∨
      (∀ key, r = .ok key → key = cropKey ownerId clusterId) ∧
        w'.objects = Function.update w.objects (cropKey ownerId clusterId) (some ⟨data, "image/jpeg"⟩)) := by
  cases h with
  | works => exact ⟨rfl, rfl, .inr ⟨fun key hkey => (Except.ok.inj hkey).symm, rfl⟩⟩
  | fails op w e => exact ⟨rfl, rfl, .inl ⟨⟨e, rfl⟩, rfl⟩⟩
  | unacknowledged op w e => exact ⟨rfl, rfl, .inr ⟨(fun key hkey => nomatch hkey), rfl⟩⟩

/-- **Every tidy call guarantees what the others rely on.** -/
theorem Outcome.cropRely {op : Call K} (htidy : op.Tidy supply w) {r : Except PyError op.Answer}
    (h : Outcome pf supply.oracle op w r w') (hlimit : w'.draws ≤ supply.limit) : CropRely supply w w' := by
  by_cases hput : ∃ ownerId clusterId data, op = .putCrop ownerId clusterId data
  · obtain ⟨ownerId, clusterId, data, rfl⟩ := hput
    obtain ⟨hdb, hdraws, ⟨-, hobjects⟩ | ⟨-, hobjects⟩⟩ := Outcome.putCrop_cases h
    · exact .nothing hdb hobjects (le_of_eq hdraws.symm)
    · exact .put hdb hobjects (le_of_eq hdraws.symm)
  · cases h.effect with
    | nothing hdb hobjects hdraws => exact .nothing hdb hobjects hdraws
    | committed hop hrun hdb hobjects hdraws =>
        subst hop
        exact .committed htidy hrun hdb hobjects hdraws hlimit
    | @crop ownerId clusterId blob hop hdb hobjects hdraws =>
        have hdelete : op = .deleteCrop ownerId clusterId := by
          cases op with
          | putCrop o c data => exact absurd ⟨o, c, data, rfl⟩ hput
          | deleteCrop o c =>
              cases hop
              rfl
          | _ => cases hop
        subst hdelete
        cases blob with
        | none => exact .removed htidy hdb hobjects (le_of_eq hdraws.symm)
        | some blob => exact .put hdb hobjects (le_of_eq hdraws.symm)

end

end FacesService
