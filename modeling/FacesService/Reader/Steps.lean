import FacesService.Model.Reader
import FacesService.Store.Calls

/-!
What the endpoints are built from, run alone: reads, the check of the owner and
the purge of a crop. None of them writes to the tables.
-/

namespace FacesService.Reader

open Prog Database Db

variable {K : Type} {svc : Service K} {auth : AuthContext}

/-- The row a string denotes. -/
def rowOf (db : Database K) (clusterId : String) : Option (Cluster K) :=
  match castUuid clusterId with
  | .error _ => none
  | .ok id => db.clusterById id

theorem rowOf_eq_some {db : Database K} {clusterId : String} {row : Cluster K} :
    rowOf db clusterId = some row ↔
      ∃ id, castUuid clusterId = .ok id ∧ db.clusterById id = some row := by
  unfold rowOf
  split
  · rename_i e he
    simp [he]
  · rename_i id hid
    simp [hid]

theorem getCluster_some {db : Database K} {clusterId : String} {row : Cluster K} :
    getCluster db clusterId none = .ok (some row) ↔ rowOf db clusterId = some row := by
  unfold getCluster rowOf
  cases castUuid clusterId with
  | error e => simp
  | ok id =>
      simp only [Fallible.ok_bind]
      cases db.clusterById id <;> simp

/-- What `ownedCluster` makes of the row it found. -/
def checkOwner (auth : AuthContext) : Option (Cluster K) → Except PyError (Cluster K)
  | none => .error (.http 404 "not found")
  | some c =>
      match ensureOwner auth c.ownerId.text with
      | .error e => .error (asHttp e)
      | .ok () => .ok c

/-- The call of a purge. -/
inductive Purge : Call K → Prop
  | crop (ownerId clusterId : String) : Purge (.deleteCrop ownerId clusterId)

theorem purgeCrop_within (svc : Service K) {P : Call K → Prop} {E : PyError → Prop} (hP : ∀ c, Purge c → P c)
    (hE : E .hangs) (due : Bool) (ownerId clusterId : String) :
    (purgeCrop svc due ownerId clusterId).Within P E := by
  unfold purgeCrop
  split
  · refine within_tryCatch (within_perform (hP _ (.crop ownerId clusterId))) fun e => ?_
    split
    · rename_i he
      exact he ▸ hE
    · exact within_pure ()
  · exact within_pure ()

variable [Arithmetic K] {pf : Platform K} {oracle : Oracle}

theorem exec_query (q : Query K) (w : World K) :
    (query q).exec (answer pf oracle) w = (q.run pf w.db, { w with calls := w.calls + 1 }) := by
  rw [exec_perform]
  rfl

theorem exec_ownedCluster (clusterId : String) (w : World K) :
    (ownedCluster auth clusterId).exec (answer pf oracle) w =
      (getCluster w.db clusterId none >>= checkOwner auth, { w with calls := w.calls + 1 }) := by
  unfold ownedCluster
  rw [exec_bind, exec_query]
  simp only [Query.run]
  cases getCluster w.db clusterId none with
  | error e => rfl
  | ok found =>
      cases found with
      | none => rfl
      | some c =>
          simp only [Fallible.ok_bind, checkOwner]
          cases ensureOwner auth c.ownerId.text <;> rfl

theorem ownedCluster_ok {clusterId : String} {row : Cluster K} {w w' : World K}
    (h : (ownedCluster auth clusterId).exec (answer pf oracle) w = (.ok row, w')) :
    rowOf w.db clusterId = some row ∧ ensureOwner auth row.ownerId.text = .ok () ∧
      w' = { w with calls := w.calls + 1 } := by
  unfold ownedCluster at h
  obtain ⟨found, w₁, hquery, h⟩ := exec_bind_eq_ok.mp h
  rw [exec_query, Prod.mk.injEq] at hquery
  obtain ⟨hrun, rfl⟩ := hquery
  cases found with
  | none => cases h
  | some c =>
      simp only at h
      split at h
      · cases h
      · rename_i howner
        cases h
        exact ⟨getCluster_some.mp hrun, howner, rfl⟩

/-- Purging touches the bucket only. -/
theorem purges_db (pf : Platform K) (oracle : Oracle) {α : Type} {p : Program K α}
    (hp : p.Within Purge fun _ => True) (w : World K) : (p.exec (answer pf oracle) w).2.db = w.db := by
  refine (exec_within (I := fun w' : World K => w'.db = w.db) ?_ (fun _ _ _ _ _ => trivial) hp rfl).1
  intro op w' hop hdb
  cases hop with
  | crop ownerId clusterId => exact hdb

end FacesService.Reader
