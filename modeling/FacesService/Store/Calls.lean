import FacesService.Store.Specs
import FacesService.Model.Service

/-!
What a call leaves of the world. A write runs one transaction on the tables and
then empties cache entries; bucket, polls and drawn ids are not its business.
-/

namespace FacesService

open Prog Database

variable {K : Type}

@[simp] theorem bumps_db (w : World K) (owners : List String) :
    (owners.foldl World.bump w).db = w.db := by
  induction owners generalizing w with
  | nil => rfl
  | cons o owners ih => exact ih (w.bump o)

@[simp] theorem bumps_objects (w : World K) (owners : List String) :
    (owners.foldl World.bump w).objects = w.objects := by
  induction owners generalizing w with
  | nil => rfl
  | cons o owners ih => exact ih (w.bump o)

@[simp] theorem bumps_draws (w : World K) (owners : List String) :
    (owners.foldl World.bump w).draws = w.draws := by
  induction owners generalizing w with
  | nil => rfl
  | cons o owners ih => exact ih (w.bump o)

@[simp] theorem bumps_calls (w : World K) (owners : List String) :
    (owners.foldl World.bump w).calls = w.calls := by
  induction owners generalizing w with
  | nil => rfl
  | cons o owners ih => exact ih (w.bump o)

@[simp] theorem bumps_polls (w : World K) (owners : List String) :
    (owners.foldl World.bump w).polls = w.polls := by
  induction owners generalizing w with
  | nil => rfl
  | cons o owners ih => exact ih (w.bump o)

variable [Arithmetic K] {oracle : Oracle} {pf : Platform K}

/-- A write that returned committed its transaction and touched nothing else. -/
theorem write_ok {wr : Write K} {a : wr.Answer} {w w' : World K}
    (h : (write wr).exec (answer pf oracle) w = (.ok a, w')) :
    ∃ c, wr.run pf (oracle.fresh w.draws) (oracle.clock w.calls) w.db = .ok c ∧ c.result = a ∧
      w'.db = c.db ∧ w'.objects = w.objects ∧ w'.polls = w.polls ∧
      w'.draws = w.draws + if wr.isUpsert then 1 else 0 := by
  rw [exec_perform, answer, Call.effect] at h
  cases hrun : wr.run pf (oracle.fresh w.draws) (oracle.clock w.calls) w.db with
  | error e =>
      rw [hrun] at h
      cases h
  | ok c =>
      rw [hrun] at h
      cases h
      exact ⟨c, rfl, rfl, by simp, by simp, by simp,
        congrArg (· + _) (bumps_draws _ _)⟩

/-- A write that raised rolled back. -/
theorem write_error {wr : Write K} {e : PyError} {w w' : World K}
    (h : (write wr).exec (answer pf oracle) w = (.error e, w')) :
    wr.run pf (oracle.fresh w.draws) (oracle.clock w.calls) w.db = .error e := by
  rw [exec_perform, answer, Call.effect] at h
  cases hrun : wr.run pf (oracle.fresh w.draws) (oracle.clock w.calls) w.db with
  | error e' =>
      rw [hrun] at h
      cases h
      rfl
  | ok c =>
      rw [hrun] at h
      cases h

theorem answer_write_db (wr : Write K) (w : World K) :
    (answer pf oracle (.write wr) w).2.db =
      match wr.run pf (oracle.fresh w.draws) (oracle.clock w.calls) w.db with
      | .ok c => c.db
      | .error _ => w.db := by
  rw [answer, Call.effect]
  cases wr.run pf (oracle.fresh w.draws) (oracle.clock w.calls) w.db with
  | error e => rfl
  | ok c => exact bumps_db _ _

theorem exec_write_ok {wr : Write K} {c : Commit K wr.Answer} {w : World K}
    (h : wr.run pf (oracle.fresh w.draws) (oracle.clock w.calls) w.db = .ok c) :
    ∃ w', (write wr).exec (answer pf oracle) w = (.ok c.result, w') := by
  rw [exec_perform, answer, Call.effect, h]
  exact ⟨_, rfl⟩

omit [Arithmetic K] in
theorem getClustersForOwner_ok {db : Database K} {ownerId : String} {rows : List (Cluster K)}
    (h : Db.getClustersForOwner db ownerId = .ok rows) :
    ∃ owner, castUuid ownerId = .ok owner ∧ rows.Perm (db.clusters.filter fun c => c.ownerId = owner) := by
  unfold Db.getClustersForOwner at h
  obtain ⟨owner, howner, h⟩ := Fallible.bind_eq_ok.mp h
  cases h
  exact ⟨owner, howner, List.perm_insertionSort _ _⟩

/-! ### A deployment to look at -/

/-- A model that sees the given faces, as vectors of the plane, on the frame
whose first byte is their position; no threshold is above one half. -/
def sceneService (scenes : List (List (ℚ × ℚ))) : Service ℚ where
  pf := Platform.exact
  vision :=
    { imdecode := fun raw => some ⟨100, 100, raw⟩
      imencode := fun img => some img.pixels
      slice := fun img _ _ _ _ => img
      embed := fun img _ _ _ => ((scenes[(img.pixels.headD 0).toNat]?).getD []).map fun e =>
        ⟨[e.1, e.2], 9 / 10, some (10, 10, 50, 50)⟩
      dim := 2
      length_embedding := by
        intro img threshold size ratio det hdet
        obtain ⟨e, -, rfl⟩ := List.mem_map.mp hdet
        rfl }
  config :=
    { matchThreshold := 2 / 5
      unknownThreshold := 1 / 2
      detectThreshold := 1 / 2
      assistAutoThreshold := 3 / 5
      assistDetSize := 0
      assistMinFaceRatio := 0 }
  storeReady := true
  engineReady := true

/-- Postgres draws `3333…`, `4444…` and so on; the caller leaves at one poll. -/
def sceneOracle (leaves : ℕ) : Oracle where
  fresh n := .fill (Fin.ofNat 16 (n + 3))
  clock n := n
  gone n := n = leaves

/-- An empty database and the two frames of one stream. -/
def sceneWorld : World ℚ where
  db := ⟨[], []⟩
  objects key :=
    if key = frameKey "faces/v" 0 then some ⟨[0], "image/jpeg"⟩
    else if key = frameKey "faces/v" 1 then some ⟨[1], "image/jpeg"⟩
    else none
  epoch _ := 0
  entries _ := none
  draws := 0
  calls := 0
  polls := 0

end FacesService
