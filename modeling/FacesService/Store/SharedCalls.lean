import FacesService.Store.Calls
import FacesService.Store.Keys
import FacesService.Store.WindowCalls

/-!
The calls of a run and of an attachment, as they are seen through a window: on
the tables they do what their writes do, on the bucket they only touch crops.
-/

namespace FacesService

open Prog Database

variable {K : Type}

/-- What a run calls after it has read the clusters, and what an attachment calls. -/
inductive SharedCall (owner : Uuid) : Call K → Prop
  | write {wr : Write K} (h : wr.Sees owner) : SharedCall owner (.write wr)
  | read (q : Query K) : SharedCall owner (.query q)
  | getFrame (pre : String) (index : ℕ) : SharedCall owner (.getFrame pre index)
  | putCrop (ownerId clusterId : String) (data : Bytes) :
      SharedCall owner (.putCrop ownerId clusterId data)
  | poll : SharedCall owner .poll

namespace Call

/-- The call writes to this cluster, which is there already. -/
def Touches (id : Uuid) : Call K → Prop
  | write wr => wr.Touches id
  | _ => False

def setsCrop : Call K → Bool
  | write wr => wr.isCrop
  | _ => false

def setsCentroid : Call K → Bool
  | write (.updateClusterCentroid ..) => true
  | _ => false

def isRead : Call K → Bool
  | query _ => true
  | _ => false

def isPoll : Call K → Bool
  | poll => true
  | _ => false

end Call

variable [Arithmetic K] {pf : Platform K} {oracle : Oracle} {op : Call K} {v : Window}
  {w s t : World K}

theorem answer_write (wr : Write K) (w : World K) :
    (answer pf oracle (.write wr) w).1 =
        wr.outcome pf (oracle.fresh w.draws) (oracle.clock w.calls) w.db ∧
      (answer pf oracle (.write wr) w).2.db =
        wr.commit pf (oracle.fresh w.draws) (oracle.clock w.calls) w.db ∧
      (answer pf oracle (.write wr) w).2.objects = w.objects ∧
      (answer pf oracle (.write wr) w).2.polls = w.polls ∧
      (answer pf oracle (.write wr) w).2.draws = w.draws + if wr.isUpsert then 1 else 0 := by
  cases hrun : wr.run pf (oracle.fresh w.draws) (oracle.clock w.calls) w.db with
  | error e =>
      simp only [answer, Call.effect, Write.outcome, Write.commit, hrun, Except.map]
      exact ⟨trivial, trivial, trivial, trivial, rfl⟩
  | ok c =>
      simp only [answer, Call.effect, Write.outcome, Write.commit, hrun, Except.map, bumps_db,
        bumps_objects, bumps_polls, bumps_draws]
      exact ⟨trivial, trivial, trivial, trivial, rfl⟩

/-- What holds of the tables holds after the call too, if its commit keeps it. -/
theorem SharedCall.keeps {owner : Uuid} {I : Database K → Prop} (hop : SharedCall owner op)
    (hcommit : ∀ wr, op = .write wr → wr.Sees owner →
      I (wr.commit pf (oracle.fresh w.draws) (oracle.clock w.calls) w.db)) (h : I w.db) :
    I (answer pf oracle op w).2.db := by
  cases hop with
  | @write wr hwr =>
      rw [(answer_write wr w).2.1]
      exact hcommit wr rfl hwr
  | read q => exact h
  | getFrame pre index => exact h
  | putCrop ownerId clusterId data => exact h
  | poll => exact h

theorem SharedCall.counted {owner : Uuid} (hop : SharedCall owner op) (h : Tallied owner w.db) :
    Tallied owner (answer pf oracle op w).2.db :=
  hop.keeps (fun _ _ hwr => h.commit hwr) h

theorem SharedCall.has {owner id : Uuid} (hop : SharedCall owner op) (h : w.db.has id = true) :
    (answer pf oracle op w).2.db.has id = true :=
  hop.keeps (I := fun db => db.has id = true) (fun _ _ hwr => Write.has_commit hwr h) h

theorem SharedCall.hasOwner {owner rowOwner X : Uuid} (hop : SharedCall owner op)
    (h : HasOwner X rowOwner w.db) : HasOwner X rowOwner (answer pf oracle op w).2.db :=
  hop.keeps (fun _ _ hwr => h.commit hwr) h

theorem SharedCall.cropIs {owner X : Uuid} {key : String} (hop : SharedCall owner op)
    (h : CropIs X key w.db) (hthere : w.db.has X = true)
    (hcrop : op.Touches X → ∀ clusterId ownerId a, op = .write (.setClusterCrop clusterId ownerId a) →
      a = some key) : CropIs X key (answer pf oracle op w).2.db := by
  refine hop.keeps (fun wr hwrite hwr => ?_) h
  subst hwrite
  exact h.commit hthere hwr fun htouch clusterId ownerId a hset =>
    hcrop htouch clusterId ownerId a (congrArg _ hset)

/-- What a call to hidden clusters does is not seen. -/
theorem SharedCall.unseen (hop : SharedCall v.owner op)
    (htouch : ∀ id, op.Touches id → v.hidden id = true ∨ (op.setsCrop = true ∧ v.bare id = true))
    (hnew : op.draws = true →
      v.hidden (oracle.fresh w.draws) = true ∨ w.db.has (oracle.fresh w.draws) = true) :
    v.Same (answer pf oracle op w).2.db w.db := by
  refine hop.keeps (I := fun db => v.Same db w.db) (fun wr hwrite hwr => ?_) (.refl v w.db)
  subst hwrite
  exact Write.commit_unseen hwr htouch hnew

/-! ### Two worlds -/

/-- No crop of a cluster lies there. -/
def BesideCrops (key : String) : Prop :=
  ∀ ownerId clusterId id, castUuid clusterId = .ok id → key ≠ cropKey ownerId clusterId

/-- The same is seen of the tables, and the rest is the same where it matters. -/
structure Alongside (v : Window) (s t : World K) : Prop where
  tables : v.Same s.db t.db
  ids : s.db.clusters.map (·.id) = t.db.clusters.map (·.id)
  objects : ∀ key, BesideCrops key → s.objects key = t.objects key
  draws : s.draws = t.draws
  polls : s.polls = t.polls

omit [Arithmetic K] in
theorem Alongside.frame (h : Alongside v s t) (pre : String) (idx : ℕ) :
    s.objects (frameKey pre idx) = t.objects (frameKey pre idx) :=
  h.objects _ fun _ _ _ hid => (cropKey_ne_frameKey hid pre idx).symm

/-- Both make a call. -/
theorem Alongside.both (h : Alongside v s t) (hdated : v.dated = false) (hop : SharedCall v.owner op)
    (hread : op.isRead = false) (htouch : ∀ id, op.Touches id → v.hidden id = false) :
    (answer pf oracle op s).1 = (answer pf oracle op t).1 ∧
      Alongside v (answer pf oracle op s).2 (answer pf oracle op t).2 := by
  cases hop with
  | @write wr hwr =>
      have hhas : s.db.has (oracle.fresh t.draws) = t.db.has (oracle.fresh t.draws) := by
        rw [Bool.eq_iff_iff, has_iff, has_iff, h.ids]
      obtain ⟨hanswer, hdb, hobjects, hpolls, hdraws⟩ := @answer_write K _ pf oracle wr s
      obtain ⟨hanswer', hdb', hobjects', hpolls', hdraws'⟩ := @answer_write K _ pf oracle wr t
      rw [h.draws] at hanswer hdb hdraws
      obtain ⟨houtcome, htables⟩ := @Write.commit_seen K _ pf (oracle.fresh t.draws)
        (oracle.clock s.calls) (oracle.clock t.calls) s.db t.db v wr hwr htouch
        (fun _ => ⟨hdated, hhas⟩) h.tables
      refine ⟨by rw [hanswer, hanswer', houtcome], ?_, ?_, ?_, by rw [hdraws, hdraws'], ?_⟩
      · rw [hdb, hdb']
        exact htables
      · rw [hdb, hdb']
        exact Write.ids_seen hwr h.ids
      · rw [hobjects, hobjects']
        exact h.objects
      · rw [hpolls, hpolls', h.polls]
  | read q => cases hread
  | getFrame pre index =>
      refine ⟨?_, h.tables, h.ids, h.objects, h.draws, h.polls⟩
      show Except.ok ((s.objects (frameKey pre index)).map (·.data)) = _
      rw [h.frame]
      rfl
  | putCrop ownerId clusterId data =>
      refine ⟨rfl, h.tables, h.ids, fun key hkey => ?_, h.draws, h.polls⟩
      show Function.update s.objects _ _ key = Function.update t.objects _ _ key
      rw [Function.update_apply, Function.update_apply, h.objects key hkey]
  | poll =>
      refine ⟨?_, h.tables, h.ids, h.objects, h.draws, congrArg (· + 1) h.polls⟩
      show Except.ok (oracle.gone s.polls) = _
      rw [h.polls]
      rfl

omit [Arithmetic K] in
theorem Alongside.symm (h : Alongside v s t) : Alongside v t s :=
  ⟨h.tables.symm, h.ids.symm, fun key hkey => (h.objects key hkey).symm, h.draws.symm, h.polls.symm⟩

omit [Arithmetic K] in
theorem Alongside.trans {u : World K} (h : Alongside v s t) (h' : Alongside v t u) : Alongside v s u :=
  ⟨h.tables.trans h'.tables, h.ids.trans h'.ids, fun key hkey =>
    (h.objects key hkey).trans (h'.objects key hkey), h.draws.trans h'.draws, h.polls.trans h'.polls⟩

omit [Arithmetic K] in
theorem Alongside.refl (v : Window) (s : World K) : Alongside v s s :=
  ⟨.refl v s.db, rfl, fun _ _ => rfl, rfl, rfl⟩

/-- A reading changes nothing of this. -/
theorem Alongside.afterRead (v : Window) (pf : Platform K) (oracle : Oracle) (q : Query K) (s : World K) :
    Alongside v (answer pf oracle (.query q) s).2 s :=
  ⟨.refl v s.db, rfl, fun _ _ => rfl, rfl, rfl⟩

theorem Alongside.reads (h : Alongside v s t) (pf : Platform K) (oracle : Oracle) (q : Query K) :
    Alongside v (answer pf oracle (.query q) s).2 (answer pf oracle (.query q) t).2 :=
  (Alongside.afterRead v pf oracle q s).trans (h.trans (Alongside.afterRead v pf oracle q t).symm)

/-- A call that only one of the two makes, and that the other does not notice. -/
structure Aside (v : Window) (op : Call K) : Prop where
  shared : SharedCall v.owner op
  poll : op.isPoll = false
  draws : op.draws = false
  crop : ∀ ownerId clusterId data, op = .putCrop ownerId clusterId data →
    ∃ id, castUuid clusterId = .ok id
  touches : ∀ id, op.Touches id → v.hidden id = true ∨ (op.setsCrop = true ∧ v.bare id = true)

theorem Alongside.one (h : Alongside v s t) (hop : Aside v op) :
    Alongside v (answer pf oracle op s).2 t := by
  obtain ⟨hshared, hpoll, hnew, hcrop, htouch⟩ := hop
  have htables : v.Same (answer pf oracle op s).2.db s.db :=
    hshared.unseen htouch fun hdraws => by rw [hnew] at hdraws; cases hdraws
  cases hshared with
  | @write wr hwr =>
      obtain ⟨-, hdb, hobjects, hpolls, hdraws⟩ := @answer_write K _ pf oracle wr s
      have hupsert : wr.isUpsert = false := hnew
      refine ⟨htables.trans h.tables, ?_, ?_, ?_, hpolls.trans h.polls⟩
      · rw [hdb, Write.commit_ids hwr hupsert, h.ids]
      · rw [hobjects]
        exact h.objects
      · rw [hdraws, hupsert, h.draws]
        rfl
  | read q => exact ⟨h.tables, h.ids, h.objects, h.draws, h.polls⟩
  | getFrame pre index => exact ⟨h.tables, h.ids, h.objects, h.draws, h.polls⟩
  | putCrop ownerId clusterId data =>
      obtain ⟨id, hid⟩ := hcrop _ _ _ rfl
      refine ⟨h.tables, h.ids, fun key hkey => ?_, h.draws, h.polls⟩
      show Function.update s.objects _ _ key = _
      rw [Function.update_of_ne (hkey ownerId clusterId id hid), h.objects key hkey]
  | poll => cases hpoll

end FacesService
