import FacesService.Base.Twin
import FacesService.Store.Keys
import FacesService.Store.PrivateCalls
import FacesService.Reader.Steps

/-!
What a user can see of the world, and what a call of the user's does to it. A
world is compared with the private world that has nothing but the user's own
rows: on the two, a call under the user's id answers the same, changes the
user's part in the same way and leaves the rest as it was.
-/

namespace FacesService.Reader

open Prog Database Db

variable {K : Type}

/-! ### The view of a user -/

/-- The key of a crop of the user's, in any spelling of its cluster. -/
def OwnCrop (userId key : String) : Prop :=
  ∃ owner cid id, isMine userId owner = true ∧ castUuid cid = .ok id ∧ key = cropKey owner.text cid

/-- A crop is the user's if it was put under the user's id. -/
theorem ownCrop_iff {userId cid : String} {owner id : Uuid} (hcid : castUuid cid = .ok id) :
    OwnCrop userId (cropKey owner.text cid) ↔ isMine userId owner = true := by
  constructor
  · rintro ⟨owner', cid', id', hmine, hcid', hkey⟩
    obtain ⟨howner, -⟩ := cropKey_inj (slash_not_mem hcid) (slash_not_mem hcid') hkey
    rw [Uuid.text_injective howner]
    exact hmine
  · exact fun hmine => ⟨owner, cid, id, hmine, hcid, rfl⟩

/-- The keys the requests of the user may read: own crops, and frames. -/
def Visible (userId key : String) : Prop :=
  OwnCrop userId key ∨ ∃ pre index, key = frameKey pre index

/-- The two worlds differ in nothing the user can see. -/
structure SameView (userId : String) (w v : World K) : Prop where
  own : w.db.of userId = v.db.of userId
  objects : ∀ key, Visible userId key → w.objects key = v.objects key
  epoch : w.epoch userId = v.epoch userId
  entries : w.entries userId = v.entries userId

/-- Between the two worlds nothing happened to the rows and crops of others, nor
to any other object. -/
structure Untouched (userId : String) (w₀ w : World K) : Prop where
  others : w.db.others userId = w₀.db.others userId
  objects : ∀ key, ¬ OwnCrop userId key → w.objects key = w₀.objects key

/-- `v` is `w` for the user alone; since `w₀`, only the user's part of `w` has
changed. -/
structure Shadows (userId : String) (w₀ w v : World K) : Prop where
  inv : StoreInvariant w.db
  db : v.db = w.db.of userId
  objects : ∀ key, Visible userId key → v.objects key = w.objects key
  epoch : v.epoch userId = w.epoch userId
  entries : v.entries userId = w.entries userId
  untouched : Untouched userId w₀ w

/-- Moreover the two runs have made as many calls and drawn as many ids. -/
structure InStep (userId : String) (w₀ w v : World K) : Prop extends Shadows userId w₀ w v where
  draws : v.draws = w.draws
  calls : v.calls = w.calls

/-- In step, with something known about the tables and the ids drawn. -/
def Knowing (userId : String) (w₀ : World K) (X : Database K → ℕ → Prop) (w v : World K) : Prop :=
  InStep userId w₀ w v ∧ X w.db w.draws

theorem ownCrop_text {owner cid : String} {o id : Uuid} (ho : o.text = owner)
    (hid : castUuid cid = .ok id) : OwnCrop owner (cropKey owner cid) :=
  ⟨o, cid, id, ho ▸ isMine_text o, hid, by rw [ho]⟩

variable {userId : String} {w₀ w v : World K}

/-- The answer to a call counts it. -/
theorem InStep.tick (h : InStep userId w₀ w v) (drawn : ℕ) :
    InStep userId w₀ { w with calls := w.calls + 1, draws := w.draws + drawn }
      { v with calls := v.calls + 1, draws := v.draws + drawn } where
  inv := h.inv
  db := h.db
  objects := h.objects
  epoch := h.epoch
  entries := h.entries
  untouched := ⟨h.untouched.others, h.untouched.objects⟩
  draws := congrArg (· + drawn) h.draws
  calls := congrArg (· + 1) h.calls

/-- Only a write bumps, and of the bumped owners the user sees one. -/
theorem bumps_view {w v : World K} (owners : List String) (hepoch : v.epoch userId = w.epoch userId)
    (hentries : v.entries userId = w.entries userId) :
    (owners.foldl World.bump v).epoch userId = (owners.foldl World.bump w).epoch userId ∧
      (owners.foldl World.bump v).entries userId = (owners.foldl World.bump w).entries userId := by
  induction owners generalizing w v with
  | nil => exact ⟨hepoch, hentries⟩
  | cons owner owners ih =>
      by_cases howner : userId = owner
      · subst howner
        exact ih (by simp [World.bump, hepoch]) (by simp [World.bump])
      · exact ih (by simp [World.bump, Function.update_of_ne howner, hepoch])
          (by simp [World.bump, Function.update_of_ne howner, hentries])

theorem InStep.setObject (h : InStep userId w₀ w v) {key : String} (hkey : OwnCrop userId key)
    (blob : Option Blob) : InStep userId w₀ (w.setObject key blob) (v.setObject key blob) where
  inv := h.inv
  db := h.db
  objects := by
    intro key' hvisible
    by_cases heq : key' = key
    · simp [World.setObject, heq]
    · simp [World.setObject, Function.update_of_ne heq, h.objects key' hvisible]
  epoch := h.epoch
  entries := h.entries
  untouched := by
    refine ⟨h.untouched.others, fun key' hnot => ?_⟩
    have hne : key' ≠ key := fun heq => hnot (heq ▸ hkey)
    simp [World.setObject, Function.update_of_ne hne, h.untouched.objects key' hnot]
  draws := h.draws
  calls := h.calls

theorem InStep.setEntry (h : InStep userId w₀ w v) (entry : Option (CacheEntry K)) :
    InStep userId w₀ { w with entries := Function.update w.entries userId entry }
      { v with entries := Function.update v.entries userId entry } where
  inv := h.inv
  db := h.db
  objects := h.objects
  epoch := h.epoch
  entries := by simp
  untouched := ⟨h.untouched.others, h.untouched.objects⟩
  draws := h.draws
  calls := h.calls

theorem InStep.commit [DecidableEq K] (h : InStep userId w₀ w v) {α : Type} {c c' : Commit K α}
    (hinv : StoreInvariant c.db) (hlocal : LocalCommit userId w.db c c') :
    InStep userId w₀ (c.bumps.foldl World.bump { w with db := c.db })
      (c'.bumps.foldl World.bump { v with db := c'.db }) := by
  rw [hlocal.bumps]
  obtain ⟨hepoch, hentries⟩ := bumps_view (w := { w with db := c.db })
    (v := { v with db := c'.db }) c.bumps h.epoch h.entries
  refine ⟨⟨?_, ?_, ?_, hepoch, hentries, ?_, ?_⟩, ?_, ?_⟩
  · simpa using hinv
  · simpa using hlocal.own
  · simpa using h.objects
  · simpa using hlocal.others.trans h.untouched.others
  · simpa using h.untouched.objects
  · simpa using h.draws
  · simpa using h.calls

theorem Knowing.mono {X Y : Database K → ℕ → Prop} (h : Knowing userId w₀ X w v)
    (hXY : ∀ db n, X db n → Y db n) : Knowing userId w₀ Y w v :=
  ⟨h.1, hXY _ _ h.2⟩

theorem InStep.knowing (h : InStep userId w₀ w v) : Knowing userId w₀ (fun _ _ => True) w v :=
  ⟨h, trivial⟩

/-! ### Calls -/

variable [Arithmetic K] {pf : Platform K} {oracle : Oracle} {X : Database K → ℕ → Prop}

/-- Two runs of a program of the service, the second on the private world. -/
abbrev Mirrors (pf : Platform K) (oracle : Oracle) {α : Type} (R : World K → World K → Prop)
    (p : Program K α) (S : α → World K → World K → Prop) (E : World K → World K → Prop) : Prop :=
  Twin (answer pf oracle) (answer pf oracle) R p S E

/-- A read that answers the same on the user's own tables. -/
theorem query_mirrors {q : Query K}
    (hq : ∀ db n, StoreInvariant db → X db n → q.run pf (db.of userId) = q.run pf db) :
    Mirrors pf oracle (Knowing userId w₀ X) (query q)
      (fun a => Knowing userId w₀ fun db n => X db n ∧ q.run pf db = .ok a) (InStep userId w₀) := by
  refine Twin.performed fun w v ⟨h, hX⟩ => ?_
  have hrun : q.run pf v.db = q.run pf w.db := by
    rw [h.db, hq _ _ h.inv hX]
  simp only [answer, Call.effect, hrun]
  cases hres : q.run pf w.db with
  | error e => exact ⟨rfl, h.tick 0⟩
  | ok a => exact ⟨rfl, h.tick 0, hX, hres⟩

/-- The same of a read that needs to know nothing. -/
theorem read_mirrors {q : Query K}
    (hq : ∀ db : Database K, db.Linked → q.run pf (db.of userId) = q.run pf db) :
    Mirrors pf oracle (InStep userId w₀) (query q) (fun _ => InStep userId w₀) (InStep userId w₀) :=
  (query_mirrors fun db _ h _ => hq db h.toLinked).conseq (fun _ _ h => h.knowing)
    (fun _ _ _ h => h.1) fun _ _ h => h

/-- A write that committed, and the tables after it. -/
def Wrote (pf : Platform K) (oracle : Oracle) (X : Database K → ℕ → Prop) (wr : Write K)
    (a : wr.Answer) (db' : Database K) : Prop :=
  ∃ db n now c, StoreInvariant db ∧ X db n ∧ wr.run pf (oracle.fresh n) now db = .ok c ∧
    c.result = a ∧ db' = c.db

/-- A write of the user's own. -/
theorem write_mirrors {wr : Write K}
    (hown : ∀ db n, StoreInvariant db → X db n → wr.OwnWrite userId (oracle.fresh n) db) :
    Mirrors pf oracle (Knowing userId w₀ X) (write wr)
      (fun a => Knowing userId w₀ fun db _ => Wrote pf oracle X wr a db) (InStep userId w₀) := by
  refine Twin.performed fun w v ⟨h, hX⟩ => ?_
  have hwrite := hown _ _ h.inv hX
  have hagree := Write.run_of pf (oracle.clock w.calls) h.inv.toLinked hwrite
  have hprivate : wr.run pf (oracle.fresh v.draws) (oracle.clock v.calls) v.db =
      wr.run pf (oracle.fresh w.draws) (oracle.clock w.calls) (w.db.of userId) := by
    rw [h.db, h.draws, h.calls]
  simp only [answer, Call.effect, hprivate]
  cases hrun : wr.run pf (oracle.fresh w.draws) (oracle.clock w.calls) w.db with
  | error e =>
      cases hrun' : wr.run pf (oracle.fresh w.draws) (oracle.clock w.calls) (w.db.of userId) with
      | error e' =>
          rw [hrun, hrun'] at hagree
          exact ⟨hagree, h.tick _⟩
      | ok c' =>
          rw [hrun, hrun'] at hagree
          exact hagree.elim
  | ok c =>
      cases hrun' : wr.run pf (oracle.fresh w.draws) (oracle.clock w.calls) (w.db.of userId) with
      | error e' =>
          rw [hrun, hrun'] at hagree
          exact hagree.elim
      | ok c' =>
          rw [hrun, hrun'] at hagree
          have hadm := hwrite.admitted pf (oracle.clock w.calls)
          have hinv : StoreInvariant c.db := h.inv.run hadm.1 hadm.2 hrun
          refine ⟨hagree.result.symm, (h.commit hinv hagree).tick _, ?_⟩
          exact ⟨w.db, w.draws, _, c, h.inv, hX, hrun, rfl, bumps_db _ _⟩

/-- A write that is the user's own on any tables. -/
theorem ownWrite_mirrors {wr : Write K} (hown : ∀ db fresh, wr.OwnWrite userId fresh db) :
    Mirrors pf oracle (InStep userId w₀) (write wr)
      (fun a => Knowing userId w₀ fun db _ => Wrote pf oracle (fun _ _ => True) wr a db)
      (InStep userId w₀) :=
  (write_mirrors fun db _ _ _ => hown db _).conseq (fun _ _ h => h.knowing) (fun _ _ _ h => h)
    fun _ _ h => h

/-! ### The bucket and the cache -/

theorem putCrop_mirrors {owner cid : String} (hkey : OwnCrop userId (cropKey owner cid))
    (data : Bytes) :
    Mirrors pf oracle (Knowing userId w₀ X) (call (.putCrop owner cid data))
      (fun key => Knowing userId w₀ fun db n => X db n ∧ key = cropKey owner cid)
      (InStep userId w₀) := by
  refine Twin.performed fun w v ⟨h, hX⟩ => ⟨rfl, ?_, hX, rfl⟩
  exact (h.setObject hkey _).tick 0

theorem deleteCrop_mirrors {owner cid : String} (hkey : OwnCrop userId (cropKey owner cid)) :
    Mirrors pf oracle (Knowing userId w₀ X) (call (.deleteCrop owner cid))
      (fun _ => Knowing userId w₀ X) (InStep userId w₀) := by
  refine Twin.performed fun w v ⟨h, hX⟩ => ⟨rfl, ?_, hX⟩
  exact (h.setObject hkey none).tick 0

theorem getCrop_mirrors {owner cid : String} (hkey : OwnCrop userId (cropKey owner cid)) :
    Mirrors pf oracle (Knowing userId w₀ X) (call (.getCrop owner cid))
      (fun _ => Knowing userId w₀ X) (InStep userId w₀) := by
  refine Twin.performed fun w v ⟨h, hX⟩ => ⟨(h.objects _ (.inl hkey)).symm, h.tick 0, hX⟩

theorem getFrame_mirrors (pre : String) (index : ℕ) :
    Mirrors pf oracle (Knowing userId w₀ X) (call (.getFrame pre index))
      (fun _ => Knowing userId w₀ X) (InStep userId w₀) := by
  refine Twin.performed fun w v ⟨h, hX⟩ => ⟨?_, h.tick 0, hX⟩
  rw [h.objects _ (.inr ⟨pre, index, rfl⟩)]

theorem cacheLookup_mirrors :
    Mirrors pf oracle (Knowing userId w₀ X) (call (.cacheLookup userId))
      (fun _ => Knowing userId w₀ X) (InStep userId w₀) := by
  refine Twin.performed fun w v ⟨h, hX⟩ => ⟨?_, h.tick 0, hX⟩
  simp only [World.cached, h.epoch, h.entries, h.calls]

theorem cacheStore_mirrors (epoch : ℕ) (value : SuggestionIndex K) :
    Mirrors pf oracle (Knowing userId w₀ X) (call (.cacheStore userId epoch value))
      (fun _ => Knowing userId w₀ X) (InStep userId w₀) := by
  refine Twin.performed fun w v ⟨h, hX⟩ => ⟨rfl, ?_, hX⟩
  have hstep := (h.setEntry (some ⟨epoch, oracle.clock w.calls, value⟩)).tick 0
  simp only [h.calls] at hstep ⊢
  exact hstep

/-! ### What the endpoints share -/

variable {svc : Service K} {auth : AuthContext}

omit [Arithmetic K] in
theorem ensureOwner_self (auth : AuthContext) : ensureOwner auth auth.userId = .ok () := by
  unfold ensureOwner
  simp

omit [Arithmetic K] in
theorem ensureOwner_other (hrole : auth.role ≠ some "admin") {ownerId : String}
    (h : ownerId ≠ auth.userId) : ensureOwner auth ownerId = .error (.auth 404 "not found") := by
  unfold ensureOwner
  rw [if_neg hrole, if_pos h.symm]

omit [Arithmetic K] in
/-- A foreign cluster and a missing one get the same 404. -/
theorem checkOwner_of {db : Database K} (hl : db.Linked) (hrole : auth.role ≠ some "admin")
    (clusterId : String) :
    (getCluster (db.of auth.userId) clusterId none >>= checkOwner auth) =
        (getCluster db clusterId none >>= checkOwner auth) ∧
      ∀ c, (getCluster db clusterId none >>= checkOwner auth) = .ok c →
        ∃ id, Owned db clusterId auth.userId id c := by
  cases hcast : castUuid clusterId with
  | error e =>
      rw [getCluster, getCluster, hcast]
      exact ⟨rfl, fun c hc => by cases hc⟩
  | ok id =>
      rcases owned_or_not hl auth.userId id with ⟨row, hrow, hrow', howner⟩ | ⟨hnot, hnot'⟩
      · rw [getCluster, getCluster, hcast, Fallible.ok_bind, Fallible.ok_bind, hrow, hrow']
        refine ⟨rfl, fun c hc => ?_⟩
        simp only [Fallible.ok_bind, checkOwner, howner, ensureOwner_self, Except.ok.injEq] at hc
        subst hc
        exact ⟨id, hcast, hrow, howner⟩
      · have hrefused : ∀ d : Database K, NotOwned d auth.userId id →
            (getCluster d clusterId none >>= checkOwner auth) = .error (.http 404 "not found") := by
          intro d hd
          rw [getCluster, hcast, Fallible.ok_bind]
          cases hrow : d.clusterById id with
          | none => rfl
          | some row =>
              simp [checkOwner, ensureOwner_other hrole (hd row hrow), asHttp]
        refine ⟨(hrefused _ hnot').trans (hrefused _ hnot).symm, fun c hc => ?_⟩
        cases (hrefused _ hnot).symm.trans hc

theorem ownedCluster_mirrors (hrole : auth.role ≠ some "admin") (clusterId : String) :
    Mirrors pf oracle (Knowing auth.userId w₀ X) (ownedCluster auth clusterId)
      (fun c => Knowing auth.userId w₀ fun db n => X db n ∧ ∃ id, Owned db clusterId auth.userId id c)
      (InStep auth.userId w₀) := by
  intro w v ⟨h, hX⟩
  obtain ⟨hsame, hown⟩ := checkOwner_of h.inv.toLinked hrole clusterId
  rw [← h.db] at hsame
  rw [exec_ownedCluster, exec_ownedCluster, hsame]
  cases hres : getCluster w.db clusterId none >>= checkOwner auth with
  | error e => exact ⟨rfl, h.tick 0⟩
  | ok c => exact ⟨rfl, h.tick 0, hX, hown c hres⟩

/-- A handler for what failed, on top of a call that is known to answer alike. -/
theorem orElse_mirrors {α : Type} {p : Program K α} {other : α} {Y : α → Database K → ℕ → Prop}
    (hp : Mirrors pf oracle (Knowing userId w₀ X) p (fun a => Knowing userId w₀ (Y a))
      (InStep userId w₀)) (hother : ∀ db n, Y other db n) :
    Mirrors pf oracle (Knowing userId w₀ X) (orElse p other) (fun a => Knowing userId w₀ (Y a))
      (InStep userId w₀) := by
  refine Twin.caught hp fun e => ?_
  split
  · exact Twin.fail fun _ _ h => h
  · exact Twin.ret fun _ _ h => ⟨h, hother _ _⟩

theorem purgeCrop_mirrors {owner cid : String} (hkey : OwnCrop userId (cropKey owner cid))
    (due : Bool) :
    Mirrors pf oracle (InStep userId w₀) (purgeCrop svc due owner cid)
      (fun _ => InStep userId w₀) (InStep userId w₀) := by
  unfold purgeCrop
  split
  · refine Twin.conseq (orElse_mirrors (deleteCrop_mirrors hkey) fun _ _ => trivial) ?_ ?_
      fun _ _ h => h
    · exact fun _ _ h => h.knowing
    · exact fun _ _ _ h => h.1
  · exact Twin.ret fun _ _ h => h

end FacesService.Reader
