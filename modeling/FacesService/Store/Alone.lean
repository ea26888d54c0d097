import FacesService.Base.Projection
import FacesService.Store.Tenants

/-!
Tenants do not meet. Whatever transactions of however many owners come in whatever
order, an owner's rows in the end and the replies to the owner's transactions are
those of a database that only ever had this owner in it, where only the owner's
transactions and the cascades of streams took place.

A transaction is seen from an owner's part if it is made under the owner's id or is
a cascade; the rest is `Projection.Projects.play`.
-/

namespace FacesService

open Database Fallible Db

variable {K : Type}

/-! ### Transactions -/

/-- The owner id a read asks for, if it asks for one. The other reads are made for a
cluster that is known to be the caller's, or for all the owners of a stream. -/
def Query.actor : Query K → Option String
  | searchNamedClusters ownerId .. => some ownerId
  | getClustersForOwner ownerId => some ownerId
  | getCluster _ ownerId => ownerId
  | getClustersVideos ownerId => some ownerId
  | getStreamsForClusters ownerId .. => some ownerId
  | getClustersWithoutOccurrences ownerId => some ownerId
  | getClusterVideos _ => none
  | getClusterOccurrences _ => none
  | getClusterOccurrence .. => none
  | getOccurrencesForStream _ => none

/-- A read, or a write with the id drawn for it and the time. -/
inductive Transaction (K : Type)
  | read (q : Query K)
  | write (fresh : Uuid) (now : ℕ) (w : Write K)

namespace Transaction

/-- What the caller is told; of a write also whose suggestions are dropped. -/
@[reducible] def Answer : Transaction K → Type
  | read q => Except PyError q.Answer
  | write _ _ w => Except PyError (w.Answer × List String)

def actor : Transaction K → Option String
  | read q => q.actor
  | write _ _ w => w.actor

/-- Made under an id of the owner, in any spelling. -/
def isBy (owner : Uuid) (x : Transaction K) : Bool := x.actor.any (isMine · owner)

def isCascade : Transaction K → Bool
  | write _ _ (.cascadeStream _) => true
  | _ => false

/-- Seen from the part of the owner. -/
def concerns (owner : Uuid) (x : Transaction K) : Bool := x.isBy owner || x.isCascade

/-- As the service makes it: see `Write.Sound`. Postgres draws new ids. -/
def Sound (x : Transaction K) (db : Database K) : Prop :=
  match x with
  | read _ => True
  | write fresh _ w => w.Sound db ∧ (w.isUpsert = true → ∀ c ∈ db.clusters, c.id ≠ fresh)

def run [LinearOrder K] (pf : Platform K) : Projection.Machine (Database K) (Transaction K) Answer
  | read q, db => (q.run pf db, db)
  | write fresh now w, db =>
      match w.run pf fresh now db with
      | .ok c => (.ok (c.result, c.bumps), c.db)
      | .error e => (.error e, db)

end Transaction

/-! ### One transaction -/

section

variable {db : Database K} {owner : Uuid} {userId : String}

/-- However the owner's id is spelt. -/
theorem of_text_of_cast (h : castUuid userId = .ok owner) (db : Database K) :
    db.of userId = db.of owner.text := by
  have hsame : isMine userId = isMine owner.text := by
    funext o
    rw [Bool.eq_iff_iff, isMine_text_iff, isMine_iff, h, Except.ok.injEq]
    exact eq_comm
  rw [Database.of, Database.of, hsame]

theorem Transaction.isBy_iff {x : Transaction K} :
    x.isBy owner = true ↔ ∃ userId, x.actor = some userId ∧ castUuid userId = .ok owner := by
  simp only [isBy, Option.any_eq_true, isMine_iff]

variable [LinearOrder K] {pf : Platform K}

/-- A read for an owner's rows finds them in the owner's part. -/
theorem Query.run_of (hl : db.Linked) {q : Query K} (h : q.actor = some userId) :
    q.run pf (db.of userId) = q.run pf db := by
  cases q with
  | searchNamedClusters ownerId pre limit =>
      cases h
      exact searchNamedClusters_of pre limit
  | getClustersForOwner ownerId =>
      cases h
      exact getClustersForOwner_of
  | getCluster clusterId ownerId =>
      obtain rfl : ownerId = some userId := h
      exact getCluster_owned_of hl clusterId
  | getClustersVideos ownerId =>
      cases h
      exact getClustersVideos_of hl
  | getStreamsForClusters ownerId clusterIds mode =>
      cases h
      exact getStreamsForClusters_of clusterIds mode
  | getClustersWithoutOccurrences ownerId =>
      cases h
      exact getClustersWithoutOccurrences_of hl
  | getClusterVideos clusterId => cases h
  | getClusterOccurrences clusterId => cases h
  | getClusterOccurrence clusterId streamId tSeconds => cases h
  | getOccurrencesForStream streamId => cases h

theorem Transaction.run_keeps {x : Transaction K} (h : StoreInvariant db) (hx : x.Sound db) :
    StoreInvariant (x.run pf db).2 := by
  cases x with
  | read q => exact h
  | write fresh now w =>
      rw [run]
      cases hrun : w.run pf fresh now db with
      | error e => exact h
      | ok c => exact h.run_sound hx.1 hrun

/-- A transaction of an owner's does in the owner's part what it does in the whole. -/
theorem Transaction.run_by {x : Transaction K} (hl : db.Linked) (hx : x.Sound db)
    (hby : x.isBy owner = true) : x.run pf (db.of owner.text) =
      ((x.run pf db).1, (x.run pf db).2.of owner.text) := by
  obtain ⟨userId, hactor, hcast⟩ := isBy_iff.mp hby
  rw [← of_text_of_cast hcast, ← of_text_of_cast hcast]
  cases x with
  | read q => rw [run, run, Query.run_of hl hactor]
  | write fresh now w =>
      have hlocal := @Write.run_local K _ pf fresh now db hl w hx.2 userId hactor hx.1
      rw [run, run]
      revert hlocal
      cases w.run pf fresh now db with
      | error e =>
          cases w.run pf fresh now (db.of userId) with
          | error e' =>
              rintro ⟨⟩
              rfl
          | ok c' => exact False.elim
      | ok c =>
          cases w.run pf fresh now (db.of userId) with
          | error e' => exact False.elim
          | ok c' =>
              intro h
              simp only [h.result, h.bumps, h.own]

/-- A cascade does in each part what it does in the whole. -/
theorem Transaction.run_cascade {x : Transaction K} (hl : db.Linked)
    (hcascade : x.isCascade = true) :
    (x.run pf (db.of owner.text)).2 = (x.run pf db).2.of owner.text := by
  cases x with
  | read q => cases hcascade
  | write fresh now w =>
      cases w with
      | cascadeStream streamId =>
          rw [run, run, Write.run, Write.run]
          cases hcast : castUuid streamId with
          | error e => rw [cascadeStream, cascadeStream, hcast, error_bind, error_bind]
          | ok stream =>
              have hids : ((db.of owner.text).clusters.map (·.id)).Nodup :=
                hl.ids.sublist (List.filter_sublist.map _)
              obtain ⟨c, hc, hdb, -⟩ := cascadeStream_purges hl.ids hcast now
              obtain ⟨c', hc', hdb', -⟩ := cascadeStream_purges hids hcast now
              rw [hc, hc']
              simp only
              rw [hdb, hdb', purge_of hl]
      | _ => cases hcascade

/-- A transaction of somebody else's does nothing there. -/
theorem Transaction.run_hidden {x : Transaction K} (hl : db.Linked) (hx : x.Sound db)
    (hconcerns : x.concerns owner = false) : (x.run pf db).2.of owner.text = db.of owner.text := by
  simp only [concerns, Bool.or_eq_false_iff] at hconcerns
  cases x with
  | read q => rfl
  | write fresh now w =>
      rw [run]
      cases hrun : w.run pf fresh now db with
      | error e => rfl
      | ok c =>
          refine Write.run_spares hl hx.2 ?_ ?_ hx.1 hrun
          · intro userId hactor hcast
            have hby : (write fresh now w).isBy owner = true := isBy_iff.mpr ⟨userId, hactor, hcast⟩
            rw [hconcerns.1] at hby
            cases hby
          · rintro streamId stream rfl
            cases hconcerns.2

/-! ### Histories -/

theorem Transaction.projects (pf : Platform K) (owner : Uuid) :
    Projection.Projects (Transaction.run pf) (Transaction.run pf) Transaction.Sound StoreInvariant
      (fun db => db.of owner.text) (Transaction.concerns owner) (Transaction.isBy owner) where
  kept := Transaction.run_keeps
  hidden h hx hconcerns := Transaction.run_hidden h.toLinked hx hconcerns
  state := by
    intro x db h hx hconcerns
    rcases Bool.or_eq_true_iff.mp hconcerns with hby | hcascade
    · rw [Transaction.run_by h.toLinked hx hby]
    · exact Transaction.run_cascade h.toLinked hcascade
  answer := by
    intro x db h hx hby
    rw [Transaction.run_by h.toLinked hx hby]
  heardSeen hby := Bool.or_eq_true_iff.mpr (.inl hby)

/-- **Every owner is alone.** After any history of transactions of any owners, the rows
of an owner are those the owner's own transactions and the cascades make of the rows
the owner had, and so are the replies to them. -/
theorem owners_are_alone (h : StoreInvariant db) {history : List (Transaction K)}
    (hsound : Projection.InOrder (Transaction.run pf) Transaction.Sound history db) (owner : Uuid) :
    let whole := Projection.play (Transaction.run pf) history db
    let own := Projection.play (Transaction.run pf) (history.filter (Transaction.concerns owner))
        (db.of owner.text)
    own.2 = whole.2.of owner.text ∧
      own.1.filter (fun reply => reply.1.isBy owner) =
        whole.1.filter fun reply => reply.1.isBy owner :=
  (Transaction.projects pf owner).play h hsound

end

/-- Two owners, the second of whom tries to delete a cluster of the first; then the stream goes. -/
def twoOwners : List (Transaction ℚ) :=
  [.write (.fill 5) 0 (.upsertCluster (Uuid.fill 1).text none false [1]),
    .write (.fill 6) 1 (.upsertCluster (Uuid.fill 2).text none false [1]),
    .write (.fill 0) 2 (.appendStreamOccurrences (Uuid.fill 1).text (Uuid.fill 8).text
      [⟨(Uuid.fill 5).text, [1], 10, 1⟩]),
    .read (.getClustersVideos (Uuid.fill 1).text),
    .write (.fill 0) 3 (.deleteCluster (Uuid.fill 5).text (Uuid.fill 2).text),
    .write (.fill 0) 4 (.cascadeStream (Uuid.fill 8).text),
    .read (.getClustersForOwner (Uuid.fill 1).text)]

theorem owners_are_alone_twoOwners :
    let whole := Projection.play (Transaction.run Platform.exact) twoOwners ⟨[], []⟩
    let own := Projection.play (Transaction.run Platform.exact)
      (twoOwners.filter (Transaction.concerns (.fill 1))) ⟨[], []⟩
    own.2 = whole.2.of (Uuid.fill 1).text ∧
      own.1.filter (fun reply => reply.1.isBy (.fill 1)) =
        whole.1.filter fun reply => reply.1.isBy (.fill 1) := by
  refine owners_are_alone StoreInvariant.empty ?_ (.fill 1)
  refine ⟨⟨⟨rfl, rfl⟩, fun _ => by decide⟩, ⟨⟨rfl, rfl⟩, fun _ => by decide⟩, ⟨?_, nofun⟩, trivial,
    ⟨trivial, nofun⟩, ⟨trivial, nofun⟩, trivial, trivial⟩
  intro it hit id hcast
  rw [List.mem_singleton.mp hit, Uuid.castUuid_text] at hcast
  cases hcast
  unfold Database.OnlyMine
  decide

end FacesService
