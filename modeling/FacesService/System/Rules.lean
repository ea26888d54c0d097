import FacesService.Model.App
import FacesService.Reader.Views
import FacesService.Store.Tenants

/-!
The discipline of the service's calls. What every thread relies on is that the
tables stay in order, that an id keeps its owner, and that nobody touches the rows
and crops of an owner for whom no thread acts; and each call guarantees this, made
under the id of a user some thread acts for.
-/

namespace FacesService

open Prog Database Reader

variable {K : Type}

/-! ### What is relied on -/

/-- The ids Postgres draws, the first `limit` of them each only once. -/
structure Supply where
  oracle : Oracle
  limit : ℕ
  apart : Set.InjOn oracle.fresh (Set.Iio limit)

/-- The tables are in order, and no id that is still to be drawn is taken. -/
structure Sane (pf : Platform K) (supply : Supply) (w : World K) : Prop where
  store : StoreInvariant w.db
  names : w.db.NamesUnique pf
  unborn : ∀ n, w.draws ≤ n → n < supply.limit → ∀ c ∈ w.db.clusters, c.id ≠ supply.oracle.fresh n

/-- An owner for whom nobody acts. -/
def Spared (acts : String → Prop) (owner : Uuid) : Prop :=
  ∀ userId, acts userId → castUuid userId ≠ .ok owner

/-- The rows and crops of the owner are the same. -/
structure SamePart (owner : Uuid) (w₀ w : World K) : Prop where
  rows : w.db.of owner.text = w₀.db.of owner.text
  crops : ∀ key, OwnCrop owner.text key → w.objects key = w₀.objects key

structure InOrder (pf : Platform K) (supply : Supply) (acts : String → Prop) (w₀ w : World K) : Prop
    extends Sane pf supply w where
  spared : ∀ owner, Spared acts owner → SamePart owner w₀ w

/-- The id is not drawn again, and a cluster with it is the user's. -/
structure Belongs (supply : Supply) (userId : String) (id : Uuid) (w : World K) : Prop where
  drawn : ∀ n, w.draws ≤ n → n < supply.limit → supply.oracle.fresh n ≠ id
  mine : w.db.OnlyMine userId id

/-- What a step may do to the world. -/
def Rely (pf : Platform K) (supply : Supply) (acts : String → Prop) (w₀ w w' : World K) : Prop :=
  InOrder pf supply acts w₀ w → InOrder pf supply acts w₀ w' ∧
    ∀ userId id, Belongs supply userId id w → Belongs supply userId id w'

/-! ### What is allowed -/

/-- No owner for whom nobody acts has a sighting in the stream. -/
def Cascadable (acts : String → Prop) (db : Database K) (streamId : String) : Prop :=
  ∀ owner, Spared acts owner → ∀ stream, castUuid streamId = .ok stream →
    ∀ o ∈ db.occurrences, o.ownerId = owner → o.streamId ≠ stream

/-- The owner id and cluster id a call changes a crop under. -/
def Call.crop : Call K → Option (String × String)
  | putCrop ownerId clusterId _ => some (ownerId, clusterId)
  | deleteCrop ownerId clusterId => some (ownerId, clusterId)
  | _ => none

structure Write.Allowed (acts : String → Prop) (w₀ w : World K) (wr : Write K) : Prop where
  sound : wr.Sound w.db
  actor : ∀ userId, wr.actor = some userId → acts userId
  cascade : ∀ streamId, wr = .cascadeStream streamId → Cascadable acts w₀.db streamId

def Call.Allowed (acts : String → Prop) (w₀ : World K) : Call K → World K → Prop
  | .write wr, w => wr.Allowed acts w₀ w
  | op, _ => ∀ key, op.crop = some key → acts key.1

/-! ### What a call does -/

section

variable [Arithmetic K] {pf : Platform K} {oracle : Oracle} {acts : String → Prop} {w₀ w w' : World K}

/-- A call leaves tables and bucket as they are, commits a write, or changes a crop. -/
inductive Effect (pf : Platform K) (oracle : Oracle) (op : Call K) (w w' : World K) : Prop
  | nothing (hdb : w'.db = w.db) (hobjects : w'.objects = w.objects) (hdraws : w.draws ≤ w'.draws)
  | committed {wr : Write K} {c : Commit K wr.Answer} (hop : op = .write wr)
      (hrun : wr.run pf (oracle.fresh w.draws) (oracle.clock w.calls) w.db = .ok c) (hdb : w'.db = c.db)
      (hobjects : w'.objects = w.objects) (hdraws : w'.draws = w.draws + if wr.isUpsert then 1 else 0)
  | crop {ownerId clusterId : String} {blob : Option Blob} (hop : op.crop = some (ownerId, clusterId))
      (hdb : w'.db = w.db)
      (hobjects : w'.objects = Function.update w.objects (cropKey ownerId clusterId) blob)
      (hdraws : w'.draws = w.draws)

theorem answer_effect (op : Call K) (w : World K) : Effect pf oracle op w (answer pf oracle op w).2 := by
  cases op with
  | write wr =>
      cases hrun : wr.run pf (oracle.fresh w.draws) (oracle.clock w.calls) w.db with
      | error e =>
          refine .nothing ?_ ?_ ?_ <;> simp only [answer, Call.effect, hrun]
          exact Nat.le_add_right _ _
      | ok c =>
          refine .committed rfl hrun ?_ ?_ ?_ <;> simp only [answer, Call.effect, hrun]
          · exact bumps_db _ _
          · exact bumps_objects _ _
          · exact congrArg (· + _) (bumps_draws _ _)
  | putCrop ownerId clusterId data => exact .crop rfl rfl rfl rfl
  | deleteCrop ownerId clusterId => exact .crop rfl rfl rfl rfl
  | _ => exact .nothing rfl rfl (le_refl _)

theorem Outcome.effect {op : Call K} {r : Except PyError op.Answer} (h : Outcome pf oracle op w r w') :
    Effect pf oracle op w w' := by
  cases h with
  | works op w => exact answer_effect op w
  | unacknowledged op w e =>
      cases @answer_effect K _ pf oracle op w with
      | nothing hdb hobjects hdraws => exact .nothing hdb hobjects hdraws
      | committed hop hrun hdb hobjects hdraws => exact .committed hop hrun hdb hobjects hdraws
      | crop hop hdb hobjects hdraws => exact .crop hop hdb hobjects hdraws
  | fails => exact .nothing rfl rfl (le_refl _)
  | cached => exact .nothing rfl rfl (le_refl _)
  | polled => exact .nothing rfl rfl (le_refl _)

theorem Effect.draws_le {op : Call K} (h : Effect pf oracle op w w') : w.draws ≤ w'.draws := by
  cases h with
  | nothing _ _ hdraws => exact hdraws
  | committed _ _ _ _ hdraws => exact hdraws ▸ Nat.le_add_right _ _
  | crop _ _ _ hdraws => exact le_of_eq hdraws.symm

/-! ### The guarantee -/

variable {supply : Supply}

omit [Arithmetic K] in
theorem InOrder.nothing (h : InOrder pf supply acts w₀ w) (hdb : w'.db = w.db)
    (hobjects : w'.objects = w.objects) (hdraws : w.draws ≤ w'.draws) :
    InOrder pf supply acts w₀ w' where
  store := hdb ▸ h.store
  names := hdb ▸ h.names
  unborn n hn hlimit c hc := h.unborn n (le_trans hdraws hn) hlimit c (hdb ▸ hc)
  spared owner hspared := ⟨hdb ▸ (h.spared owner hspared).rows, hobjects ▸ (h.spared owner hspared).crops⟩

omit [Arithmetic K] in
theorem Belongs.nothing {userId : String} {id : Uuid} (h : Belongs supply userId id w) (hdb : w'.db = w.db)
    (hdraws : w.draws ≤ w'.draws) : Belongs supply userId id w' :=
  ⟨fun n hn => h.drawn n (le_trans hdraws hn), hdb ▸ h.mine⟩

theorem InOrder.committed (h : InOrder pf supply acts w₀ w) {wr : Write K} {c : Commit K wr.Answer}
    (hallowed : wr.Allowed acts w₀ w)
    (hrun : wr.run pf (supply.oracle.fresh w.draws) (supply.oracle.clock w.calls) w.db = .ok c)
    (hdb : w'.db = c.db) (hobjects : w'.objects = w.objects)
    (hdraws : w'.draws = w.draws + if wr.isUpsert then 1 else 0) (hlimit : w'.draws ≤ supply.limit) :
    InOrder pf supply acts w₀ w' := by
  have hnew : wr.isUpsert = true → w.draws < supply.limit ∧ w'.draws = w.draws + 1 := by
    intro hupsert
    rw [if_pos hupsert] at hdraws
    omega
  refine ⟨⟨hdb ▸ h.store.run_sound hallowed.sound hrun,
    hdb ▸ Write.run_namesUnique h.store.ids h.names hallowed.sound hrun, fun n hn hnlimit r hr => ?_⟩,
    fun owner hspared => ?_⟩
  · rcases Write.run_owner hrun (hdb ▸ hr) with ⟨hupsert, hid⟩ | ⟨r₀, hr₀, hid, -⟩
    · rw [hid]
      intro heq
      obtain ⟨hdrawn, hnext⟩ := hnew hupsert
      have hsame := supply.apart hdrawn hnlimit heq
      omega
    · rw [← hid]
      exact h.unborn n (by omega) hnlimit r₀ hr₀
  · obtain ⟨hrows, hcrops⟩ := h.spared owner hspared
    refine ⟨?_, hobjects ▸ hcrops⟩
    rw [hdb, ← hrows]
    refine Write.run_spares h.store.toLinked ?_ ?_ ?_ hallowed.sound hrun
    · exact fun hupsert => h.unborn w.draws (le_refl _) (hnew hupsert).1
    · exact fun userId hactor => hspared userId (hallowed.actor userId hactor)
    · intro streamId stream hwr hstream o ho howner
      -- the owner has the rows there were at first
      have hmem : o ∈ (w.db.of owner.text).occurrences :=
        List.mem_filter.mpr ⟨ho, isMine_text_iff.mpr howner⟩
      rw [hrows] at hmem
      exact hallowed.cascade streamId hwr owner hspared stream hstream o (List.mem_filter.mp hmem).1 howner

theorem Belongs.committed {userId : String} {id : Uuid} (h : Belongs supply userId id w) {wr : Write K}
    {c : Commit K wr.Answer}
    (hrun : wr.run pf (supply.oracle.fresh w.draws) (supply.oracle.clock w.calls) w.db = .ok c)
    (hdb : w'.db = c.db) (hdraws : w'.draws = w.draws + if wr.isUpsert then 1 else 0)
    (hlimit : w'.draws ≤ supply.limit) : Belongs supply userId id w' where
  drawn n hn := h.drawn n (le_trans (Nat.le_add_right _ _) (hdraws ▸ hn))
  mine r hr hid := by
    rcases Write.run_owner hrun (hdb ▸ hr) with ⟨hupsert, hfresh⟩ | ⟨r₀, hr₀, hid₀, howner⟩
    · rw [if_pos hupsert] at hdraws
      exact absurd (hfresh.symm.trans hid) (h.drawn w.draws (le_refl _) (by omega))
    · rw [← howner]
      exact h.mine r₀ hr₀ (hid₀.trans hid)

omit [Arithmetic K] in
/-- The owner of a crop can be read off its key, whatever follows it. -/
theorem cropKey_owner {ownerId clusterId cid : String} {owner id : Uuid} (hcid : castUuid cid = .ok id)
    (hkey : cropKey ownerId clusterId = cropKey owner.text cid) : ownerId = owner.text := by
  have hlist := congrArg String.toList hkey
  rw [cropKey_toList, cropKey_toList] at hlist
  have hcount := congrArg (List.count '/') hlist
  have howner := List.count_eq_zero.mpr (slash_not_mem_text owner)
  have hcluster := List.count_eq_zero.mpr (slash_not_mem hcid)
  simp only [List.count_append, List.count_cons_self, howner, hcluster] at hcount
  have hslash : '/' ∉ clusterId.toList := List.count_eq_zero.mp (by omega)
  exact (cropKey_inj hslash (slash_not_mem hcid) hkey).1

omit [Arithmetic K] in
theorem InOrder.crop (h : InOrder pf supply acts w₀ w) {ownerId clusterId : String} {blob : Option Blob}
    (hacts : acts ownerId) (hdb : w'.db = w.db)
    (hobjects : w'.objects = Function.update w.objects (cropKey ownerId clusterId) blob)
    (hdraws : w'.draws = w.draws) : InOrder pf supply acts w₀ w' where
  store := hdb ▸ h.store
  names := hdb ▸ h.names
  unborn n hn hlimit c hc := h.unborn n (hdraws ▸ hn) hlimit c (hdb ▸ hc)
  spared owner hspared := by
    obtain ⟨hrows, hcrops⟩ := h.spared owner hspared
    refine ⟨hdb ▸ hrows, fun key hkey => ?_⟩
    rw [hobjects, Function.update_of_ne, hcrops key hkey]
    rintro rfl
    obtain ⟨owner', cid, id, hmine, hcid, heq⟩ := hkey
    rw [isMine_text_iff.mp hmine] at heq
    rw [cropKey_owner hcid heq] at hacts
    exact hspared _ hacts (Uuid.castUuid_text owner)

/-- **Every allowed call guarantees what the others rely on.** -/
theorem Effect.rely {op : Call K} (hallowed : op.Allowed acts w₀ w) (h : Effect pf supply.oracle op w w')
    (hlimit : w'.draws ≤ supply.limit) :
    Rely pf supply acts w₀ w w' := by
  intro horder
  cases h with
  | nothing hdb hobjects hdraws =>
      exact ⟨horder.nothing hdb hobjects hdraws, fun _ _ hbelongs => hbelongs.nothing hdb hdraws⟩
  | committed hop hrun hdb hobjects hdraws =>
      subst hop
      exact ⟨horder.committed hallowed hrun hdb hobjects hdraws hlimit,
        fun _ _ hbelongs => hbelongs.committed hrun hdb hdraws hlimit⟩
  | @crop ownerId clusterId blob hop hdb hobjects hdraws =>
      have hacts : acts ownerId := by
        cases op with
        | write wr => cases hop
        | _ => exact hallowed _ hop
      exact ⟨horder.crop hacts hdb hobjects hdraws,
        fun _ _ hbelongs => hbelongs.nothing hdb (le_of_eq hdraws.symm)⟩

end

end FacesService
