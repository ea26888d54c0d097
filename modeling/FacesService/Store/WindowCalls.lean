import FacesService.Store.Window

/-!
The writes of a run and of an attachment, as they are seen through a window. They
insert clusters, set one column of a cluster, or append sightings and recount the
clusters of their owner. An append is seen where its items are, a column where
its cluster is, and a recount nowhere.
-/

namespace FacesService

open Database Db Fallible

variable {K : Type} [DecidableEq K]

/-! ### What an append inserts -/

section Append

variable (pf : Platform K) (ownerId streamId : String)

/-- The rows after the insert loop, from those before and the clusters there are. -/
def insertRows (now : ℕ) (has : Uuid → Bool) :
    List (Item K) → ℕ → List (Occurrence K) → Except PyError (ℕ × List (Occurrence K))
  | [], n, rows => .ok (n, rows)
  | it :: items, n, rows => do
      let owner ← castUuid ownerId
      let stream ← castUuid streamId
      let id ← castUuid it.clusterId
      if rows.any fun r => r.key = (stream, id, it.tSeconds) then insertRows now has items n rows
      else if has id then
        insertRows now has items (n + 1) (rows ++ [it.row pf now owner stream id])
      else .error .integrity

/-- The insert loop and the cast after it. -/
def appended (now : ℕ) (has : Uuid → Bool) (items : List (Item K)) (rows : List (Occurrence K)) :
    Except PyError (ℕ × List (Occurrence K)) := do
  let r ← insertRows pf ownerId streamId now has items 0 rows
  let _ ← castUuid streamId
  .ok r

variable {pf ownerId streamId} {now now' : ℕ} {db : Database K}

theorem insertItems_eq (items : List (Item K)) (n : ℕ) (db : Database K) :
    insertItems pf now ownerId streamId items n db =
      (insertRows pf ownerId streamId now db.has items n db.occurrences).map fun r =>
        (r.1, { db with occurrences := r.2 }) := by
  induction items generalizing n db with
  | nil => rfl
  | cons it items ih =>
      unfold insertItems insertRows
      cases castUuid ownerId with
      | error e => rfl
      | ok owner =>
          cases castUuid streamId with
          | error e => rfl
          | ok stream =>
              cases castUuid it.clusterId with
              | error e => rfl
              | ok id =>
                  simp only [ok_bind]
                  by_cases hkey : (db.occurrences.any fun r => r.key = (stream, id, it.tSeconds)) = true
                  · have hins : db.insertOccurrenceIfNew (it.row pf now owner stream id) = .ok (0, db) :=
                      if_pos hkey
                    rw [hins, ok_bind, if_pos hkey]
                    exact ih n db
                  · rw [if_neg hkey]
                    have hnew : ¬ (db.occurrences.any fun r => r.key = (it.row pf now owner stream id).key) =
                        true := hkey
                    cases hrow : db.clusterById id with
                    | none =>
                        have hhas : db.has id = false := by rw [Database.has, hrow]; rfl
                        have hins : db.insertOccurrenceIfNew (it.row pf now owner stream id) =
                            .error .integrity := by
                          rw [insertOccurrenceIfNew, if_neg hnew, Item.row, hrow]
                        rw [hins, hhas]
                        rfl
                    | some c =>
                        have hhas : db.has id = true := by rw [Database.has, hrow]; rfl
                        have hins : db.insertOccurrenceIfNew (it.row pf now owner stream id) =
                            .ok (1, { db with
                              occurrences := db.occurrences ++ [it.row pf now owner stream id] }) := by
                          rw [insertOccurrenceIfNew, if_neg hnew, Item.row, hrow]
                        rw [hins, hhas]
                        exact ih (n + 1) _

/-- What the insert loop adds to the rows. -/
def Added (has : Uuid → Bool) (streamId : String) (items : List (Item K)) (new : List (Occurrence K)) :
    Prop :=
  ∀ r ∈ new, castUuid streamId = .ok r.streamId ∧ has r.clusterId = true ∧
    ∃ it ∈ items, castUuid it.clusterId = .ok r.clusterId

omit [DecidableEq K] in
theorem Added.later {has : Uuid → Bool} {it : Item K} {items : List (Item K)} {new : List (Occurrence K)}
    (h : Added has streamId items new) : Added has streamId (it :: items) new := by
  intro r hr
  obtain ⟨hstream, hhas, it', hit', hid⟩ := h r hr
  exact ⟨hstream, hhas, it', List.mem_cons_of_mem _ hit', hid⟩

/-- Two insert loops that find the same keys taken and the same clusters there
insert the same rows. -/
theorem insertRows_agree {has has' : Uuid → Bool} {items : List (Item K)} {n : ℕ}
    {rows rows' : List (Occurrence K)}
    (hhas : ∀ it ∈ items, ∀ id, castUuid it.clusterId = .ok id → has id = has' id)
    (hkeys : ∀ it ∈ items, ∀ id, castUuid it.clusterId = .ok id → ∀ stream t,
      (rows.any fun r => r.key = (stream, id, t)) = rows'.any fun r => r.key = (stream, id, t)) :
    Agree (fun a b => a.1 = b.1 ∧ ∃ new new', a.2 = rows ++ new ∧ b.2 = rows' ++ new' ∧
        new.map (·.undated) = new'.map (·.undated) ∧ Added has streamId items new)
      (insertRows pf ownerId streamId now has items n rows)
      (insertRows pf ownerId streamId now' has' items n rows') := by
  induction items generalizing n rows rows' with
  | nil => exact ⟨rfl, [], [], by simp, by simp, rfl, by simp [Added]⟩
  | cons it items ih =>
      obtain ⟨hhas₁, hhas⟩ := List.forall_mem_cons.mp hhas
      obtain ⟨hkeys₁, hkeys⟩ := List.forall_mem_cons.mp hkeys
      unfold insertRows
      refine agree_bind_same fun owner _ => agree_bind_same fun stream hstream =>
        agree_bind_same fun id hid => ?_
      rw [← hkeys₁ id hid stream it.tSeconds, ← hhas₁ id hid]
      split
      · refine agree_mono (ih hhas hkeys) ?_
        rintro a b ⟨hn, new, new', ha, hb, hnew, hadded⟩
        exact ⟨hn, new, new', ha, hb, hnew, hadded.later⟩
      · split
        · rename_i hid'
          have hkeys' : ∀ it' ∈ items, ∀ id', castUuid it'.clusterId = .ok id' → ∀ stream' t,
              ((rows ++ [it.row pf now owner stream id]).any fun r => r.key = (stream', id', t)) =
                (rows' ++ [it.row pf now' owner stream id]).any fun r => r.key = (stream', id', t) := by
            intro it' hit' id' hid' stream' t
            rw [List.any_append, List.any_append, hkeys it' hit' id' hid' stream' t]
            rfl
          refine agree_mono (ih hhas hkeys') ?_
          rintro a b ⟨hn, new, new', ha, hb, hnew, hadded⟩
          refine ⟨hn, it.row pf now owner stream id :: new, it.row pf now' owner stream id :: new',
            by rw [ha]; simp, by rw [hb]; simp, ?_, ?_⟩
          · rw [List.map_cons, List.map_cons, hnew]
            rfl
          · exact List.forall_mem_cons.mpr ⟨⟨hstream, hid', it, List.mem_cons_self, hid⟩, hadded.later⟩
        · rfl

theorem appended_agree {has has' : Uuid → Bool} {items : List (Item K)} {rows rows' : List (Occurrence K)}
    (hhas : ∀ it ∈ items, ∀ id, castUuid it.clusterId = .ok id → has id = has' id)
    (hkeys : ∀ it ∈ items, ∀ id, castUuid it.clusterId = .ok id → ∀ stream t,
      (rows.any fun r => r.key = (stream, id, t)) = rows'.any fun r => r.key = (stream, id, t)) :
    Agree (fun a b => a.1 = b.1 ∧ ∃ new new', a.2 = rows ++ new ∧ b.2 = rows' ++ new' ∧
        new.map (·.undated) = new'.map (·.undated) ∧ Added has streamId items new)
      (appended pf ownerId streamId now has items rows)
      (appended pf ownerId streamId now' has' items rows') := by
  refine agree_bind (insertRows_agree hhas hkeys) fun a b _ _ hab => ?_
  exact agree_bind_same fun _ _ => hab

theorem appended_ok {has : Uuid → Bool} {items : List (Item K)} {rows : List (Occurrence K)}
    {r : ℕ × List (Occurrence K)} (h : appended pf ownerId streamId now has items rows = .ok r) :
    ∃ new stream, castUuid streamId = .ok stream ∧ r.2 = rows ++ new ∧ Added has streamId items new := by
  have hagree := @appended_agree K _ pf ownerId streamId now now has has items rows rows
    (fun _ _ _ _ => rfl) fun _ _ _ _ _ _ => rfl
  rw [h] at hagree
  obtain ⟨-, new, -, hrows, -, -, hadded⟩ := hagree
  obtain ⟨r', -, hcast⟩ := bind_eq_ok.mp h
  obtain ⟨stream, hstream, -⟩ := bind_eq_ok.mp hcast
  exact ⟨new, stream, hstream, hrows, hadded⟩

end Append

/-! ### The writes -/

namespace Write

/-- The writes of a run of the owner and of an attachment to a cluster of theirs. -/
inductive Sees (owner : Uuid) : Write K → Prop
  | upsert (ownerId : String) (a : List K) : Sees owner (.upsertCluster ownerId none false a)
  | append {ownerId : String} (howner : castUuid ownerId = .ok owner) (streamId : String)
      (items : List (Item K)) : Sees owner (.appendStreamOccurrences ownerId streamId items)
  | centroid (clusterId ownerId : String) (a : List K) :
      Sees owner (.updateClusterCentroid clusterId ownerId a)
  | crop (clusterId ownerId : String) (a : Option String) :
      Sees owner (.setClusterCrop clusterId ownerId a)

/-- The write is to this cluster, which is there already. -/
def Touches (id : Uuid) : Write K → Prop
  | appendStreamOccurrences _ _ items => ∃ it ∈ items, castUuid it.clusterId = .ok id
  | updateClusterCentroid clusterId _ _ => castUuid clusterId = .ok id
  | setClusterCrop clusterId _ _ => castUuid clusterId = .ok id
  | _ => False

/-- The write sets a crop. -/
def isCrop : Write K → Bool
  | setClusterCrop .. => true
  | _ => false

/-- What the call answers. -/
def outcome (pf : Platform K) (fresh : Uuid) (now : ℕ) (db : Database K) (wr : Write K) :
    Except PyError wr.Answer :=
  (wr.run pf fresh now db).map (·.result)

variable {pf : Platform K} {fresh owner id : Uuid} {now now' : ℕ} {db db' : Database K} {v : Window}

/-! One lemma for each shape says what a write does. -/

/-- The column a write sets, with the ids it names. -/
def columnOf : Write K → Option (String × String × Column K)
  | updateClusterCentroid clusterId ownerId a => some (clusterId, ownerId, .centroid a)
  | setClusterCrop clusterId ownerId a => some (clusterId, ownerId, .crop a)
  | _ => none

/-- A write that casts its two ids and sets a column there. -/
theorem run_column {wr : Write K} {clusterId ownerId : String} {col : Column K}
    (h : wr.columnOf = some (clusterId, ownerId, col)) (pf : Platform K) :
    (∃ e, ∀ fresh now db, wr.outcome pf fresh now db = .error e ∧ wr.commit pf fresh now db = db) ∨
    ∃ id rowOwner r, castUuid clusterId = .ok id ∧ ∀ fresh now db, wr.outcome pf fresh now db = .ok r ∧
      wr.commit pf fresh now db = db.updateClusters (ofOwner id rowOwner) (col.put pf now) := by
  have hrun : ∃ (r : wr.Answer) (bumps : List String), ∀ fresh now db, wr.run pf fresh now db = (do
      let id ← castUuid clusterId
      let rowOwner ← castUuid ownerId
      .ok ⟨r, db.updateClusters (ofOwner id rowOwner) (col.put pf now), bumps⟩) := by
    cases wr <;> cases h <;> exact ⟨(), _, fun _ _ _ => rfl⟩
  obtain ⟨r, bumps, hrun⟩ := hrun
  simp only [outcome, commit, hrun]
  cases castUuid clusterId with
  | error e => exact .inl ⟨e, fun fresh now db => ⟨rfl, rfl⟩⟩
  | ok id =>
      cases castUuid ownerId with
      | error e => exact .inl ⟨e, fun fresh now db => ⟨rfl, rfl⟩⟩
      | ok rowOwner => exact .inr ⟨id, rowOwner, r, rfl, fun fresh now db => ⟨rfl, rfl⟩⟩

theorem append_outcome {ownerId streamId : String} {items : List (Item K)}
    (howner : castUuid ownerId = .ok owner) :
    (Write.appendStreamOccurrences ownerId streamId items).outcome pf fresh now db =
      (appended pf ownerId streamId now db.has items db.occurrences).map (·.1) := by
  unfold outcome appended
  rw [Write.run, Db.appendStreamOccurrences, insertItems_eq]
  cases insertRows pf ownerId streamId now db.has items 0 db.occurrences with
  | error e => rfl
  | ok r =>
      cases hstream : castUuid streamId with
      | error e =>
          simp only [Except.map, ok_bind, howner]
          rfl
      | ok stream => simp only [Except.map, ok_bind, howner]

/-- The clusters an append recounts. -/
def recounted (owner stream : Uuid) (rows : List (Occurrence K)) (c : Cluster K) : Bool :=
  c.ownerId = owner && rows.any fun r => r.streamId = stream && r.clusterId = c.id

theorem append_commit {ownerId streamId : String} {items : List (Item K)} {r : ℕ × List (Occurrence K)}
    (howner : castUuid ownerId = .ok owner)
    (h : appended pf ownerId streamId now db.has items db.occurrences = .ok r) :
    ∃ stream, castUuid streamId = .ok stream ∧
      (Write.appendStreamOccurrences ownerId streamId items).commit pf fresh now db =
        Database.recount { db with occurrences := r.2 } now (recounted owner stream r.2) := by
  unfold appended at h
  obtain ⟨r', hrows, h⟩ := bind_eq_ok.mp h
  obtain ⟨stream, hstream, h⟩ := bind_eq_ok.mp h
  cases h
  refine ⟨stream, hstream, ?_⟩
  unfold commit
  rw [Write.run, Db.appendStreamOccurrences, insertItems_eq, hrows]
  simp only [Except.map, ok_bind, howner, hstream]
  rfl

theorem append_refused {ownerId streamId : String} {items : List (Item K)} {e : PyError}
    (howner : castUuid ownerId = .ok owner)
    (h : appended pf ownerId streamId now db.has items db.occurrences = .error e) :
    (Write.appendStreamOccurrences ownerId streamId items).commit pf fresh now db = db := by
  refine @commit_of_error K _ pf fresh now db _ e ?_
  rw [Write.run, Db.appendStreamOccurrences, insertItems_eq]
  unfold appended at h
  rcases bind_eq_error.mp h with hrows | ⟨r, hrows, h⟩
  · rw [hrows]
    rfl
  · rw [hrows]
    rcases bind_eq_error.mp h with hstream | ⟨stream, -, h⟩
    · simp only [Except.map, ok_bind, howner, hstream]
      rfl
    · cases h

/-- The row of a new cluster. -/
def newRow (pf : Platform K) (fresh rowOwner : Uuid) (now : ℕ) (a : List K) : Cluster K :=
  ⟨fresh, rowOwner, none, false, toListArray pf a, 0, none, now, now⟩

theorem upsert_cases (pf : Platform K) (ownerId : String) (a : List K) (fresh : Uuid) :
    (∃ e, ∀ now db, (Write.upsertCluster ownerId none false a).outcome pf fresh now db = .error e ∧
      (Write.upsertCluster ownerId none false a).commit pf fresh now db = db) ∨
    ∃ rowOwner, ∀ (now : ℕ) (db : Database K), if db.has fresh then
        (Write.upsertCluster ownerId none false a).outcome pf fresh now db = .error .integrity ∧
          (Write.upsertCluster ownerId none false a).commit pf fresh now db = db
      else (Write.upsertCluster ownerId none false a).outcome pf fresh now db = .ok fresh ∧
        (Write.upsertCluster ownerId none false a).commit pf fresh now db =
          { db with clusters := db.clusters ++ [newRow pf fresh rowOwner now a] } := by
  simp only [outcome, commit, Write.run, Db.upsertCluster]
  cases castUuid ownerId with
  | error e => exact .inl ⟨e, fun now db => ⟨rfl, rfl⟩⟩
  | ok rowOwner =>
      refine .inr ⟨rowOwner, fun now db => ?_⟩
      split
      · rename_i hhas
        obtain ⟨c, hrow⟩ := Option.isSome_iff_exists.mp hhas
        simp [insertCluster, hrow, Except.map, Write.Answer]
      · rename_i hhas
        have hrow : db.clusterById fresh = none := by simpa [Database.has] using hhas
        simp [insertCluster, hrow, Except.map, newRow]

/-- No new cluster gets the id of one that is there. -/
theorem upsert_ne {ownerId : String} {a : List K} (hthere : db.has id = true) :
    (Write.upsertCluster ownerId none false a).outcome pf fresh now db ≠ .ok id := by
  rcases upsert_cases pf ownerId a fresh with ⟨e, he⟩ | ⟨rowOwner, hok⟩
  · rw [(he now db).1]
    exact fun h => by cases h
  · have hdb := hok now db
    split at hdb
    · rw [hdb.1]
      exact fun h => by cases h
    · rename_i hfresh
      rw [hdb.1]
      intro h
      cases h
      exact hfresh hthere

/-! ### Writes through a window -/

section Window

omit [DecidableEq K] in
theorem rows_append {new : List (Occurrence K)} :
    v.rows { db with occurrences := db.occurrences ++ new } =
      v.rows db ++ (new.filter fun r => !v.hidden r.clusterId).map (·.undated) := by
  simp only [Window.rows, List.filter_append, List.map_append]

/-- An append shows in the rows only. -/
theorem append_shows {ownerId streamId : String} {items : List (Item K)} {r : ℕ × List (Occurrence K)}
    (howner : castUuid ownerId = .ok v.owner)
    (h : appended pf ownerId streamId now db.has items db.occurrences = .ok r) :
    v.Same ((Write.appendStreamOccurrences ownerId streamId items).commit pf fresh now db)
      { db with occurrences := r.2 } := by
  obtain ⟨stream, -, hcommit⟩ := @append_commit K _ pf fresh v.owner now db ownerId streamId items r
    howner h
  rw [hcommit]
  refine Window.recount_unseen fun c hc => ?_
  rw [recounted, Bool.and_eq_true, decide_eq_true_eq] at hc
  exact hc.1

/-- An append changes no more of the clusters than counts. -/
theorem append_clusters {ownerId streamId : String} {items : List (Item K)}
    (howner : castUuid ownerId = .ok v.owner) :
    v.clusters ((Write.appendStreamOccurrences ownerId streamId items).commit pf fresh now db) =
      v.clusters db := by
  cases happ : appended pf ownerId streamId now db.has items db.occurrences with
  | error e => rw [append_refused howner happ]
  | ok r => exact (append_shows howner happ).clusters

theorem column_unseen {wr : Write K} {clusterId ownerId : String} {col : Column K}
    (h : wr.columnOf = some (clusterId, ownerId, col))
    (hid : ∀ id, castUuid clusterId = .ok id → v.hidden id = true ∨ col.Unseen v id) :
    v.Same (wr.commit pf fresh now db) db := by
  rcases run_column h pf with ⟨e, he⟩ | ⟨id, rowOwner, r, hcast, hok⟩
  · rw [(he fresh now db).2]
    exact .refl v db
  · rw [(hok fresh now db).2]
    exact Window.put_unseen (hid id hcast)

/-- A write to hidden clusters is not seen, nor is the crop of a bare one. -/
theorem commit_unseen {wr : Write K} (hwr : Sees v.owner wr)
    (htouch : ∀ id, wr.Touches id → v.hidden id = true ∨ (wr.isCrop = true ∧ v.bare id = true))
    (hnew : wr.isUpsert = true → v.hidden fresh = true ∨ db.has fresh = true) :
    v.Same (wr.commit pf fresh now db) db := by
  cases hwr with
  | upsert ownerId a =>
      rcases upsert_cases pf ownerId a fresh with ⟨e, he⟩ | ⟨rowOwner, hok⟩
      · rw [(he now db).2]
        exact .refl v db
      · have hdb := hok now db
        split at hdb
        · rw [hdb.2]
          exact .refl v db
        · rename_i hfresh
          have hhidden : v.hidden fresh = true := (hnew rfl).resolve_right hfresh
          rw [hdb.2]
          refine ⟨?_, rfl⟩
          simp [Window.clusters, List.filter_append, newRow, hhidden]
  | @append ownerId howner streamId items =>
      cases happ : appended pf ownerId streamId now db.has items db.occurrences with
      | error e =>
          rw [append_refused howner happ]
          exact .refl v db
      | ok r =>
          obtain ⟨new, -, -, hrows, hadded⟩ := appended_ok happ
          refine (append_shows howner happ).trans ⟨rfl, ?_⟩
          have hnone : (new.filter fun r => !v.hidden r.clusterId) = [] := by
            rw [List.filter_eq_nil_iff]
            intro o ho
            obtain ⟨-, -, it, hit, hid⟩ := hadded o ho
            have hhidden := (htouch _ ⟨it, hit, hid⟩).resolve_right fun h => by cases h.1
            simp [hhidden]
          rw [hrows, rows_append, hnone, List.map_nil, List.append_nil]
  | centroid clusterId ownerId a =>
      refine column_unseen rfl fun id hid => ?_
      exact .inl ((htouch id hid).resolve_right fun h => by cases h.1)
  | crop clusterId ownerId a =>
      exact column_unseen rfl fun id hid => (htouch id hid).imp_right And.right

/-- Only an upsert draws an id. -/
theorem no_draw {fresh' : Uuid} {wr : Write K} (hnew : wr.isUpsert = false) :
    wr.outcome pf fresh now db = wr.outcome pf fresh' now db ∧
      wr.commit pf fresh now db = wr.commit pf fresh' now db := by
  cases wr <;> first | exact ⟨rfl, rfl⟩ | cases hnew

theorem column_seen {wr : Write K} {clusterId ownerId : String} {col : Column K}
    (hcol : wr.columnOf = some (clusterId, ownerId, col)) (h : v.Same db db') :
    wr.outcome pf fresh now db = wr.outcome pf fresh now' db' ∧
      v.Same (wr.commit pf fresh now db) (wr.commit pf fresh now' db') := by
  rcases run_column hcol pf with ⟨e, he⟩ | ⟨id, rowOwner, r, hcast, hok⟩
  · rw [(he fresh now db).1, (he fresh now db).2, (he fresh now' db').1, (he fresh now' db').2]
    exact ⟨rfl, h⟩
  · rw [(hok fresh now db).1, (hok fresh now db).2, (hok fresh now' db').1, (hok fresh now' db').2]
    exact ⟨rfl, h.put col⟩

/-- What is seen of a write depends on what is seen before it. -/
theorem commit_seen {wr : Write K} (hwr : Sees v.owner wr)
    (htouch : ∀ id, wr.Touches id → v.hidden id = false)
    (hnew : wr.isUpsert = true → v.dated = false ∧ db.has fresh = db'.has fresh) (h : v.Same db db') :
    wr.outcome pf fresh now db = wr.outcome pf fresh now' db' ∧
      v.Same (wr.commit pf fresh now db) (wr.commit pf fresh now' db') := by
  cases hwr with
  | upsert ownerId a =>
      rcases upsert_cases pf ownerId a fresh with ⟨e, he⟩ | ⟨rowOwner, hok⟩
      · rw [(he now db).1, (he now db).2, (he now' db').1, (he now' db').2]
        exact ⟨rfl, h⟩
      · obtain ⟨hdated, hhas⟩ := hnew rfl
        have hdb := hok now db
        have hdb' := hok now' db'
        rw [← hhas] at hdb'
        split at hdb
        · rename_i hfresh
          rw [if_pos hfresh] at hdb'
          rw [hdb.1, hdb.2, hdb'.1, hdb'.2]
          exact ⟨rfl, h⟩
        · rename_i hfresh
          rw [if_neg hfresh] at hdb'
          rw [hdb.1, hdb.2, hdb'.1, hdb'.2]
          refine ⟨rfl, ?_, h.rows⟩
          have hclusters : ∀ (db : Database K) (now : ℕ),
              v.clusters { db with clusters := db.clusters ++ [newRow pf fresh rowOwner now a] } =
                v.clusters db ++ v.clusters ⟨[newRow pf fresh rowOwner 0 a], []⟩ := by
            intro db now
            simp only [Window.clusters, List.filter_append, List.map_append]
            cases hhidden : v.hidden fresh <;> simp [newRow, Window.row, hhidden, hdated]
          rw [hclusters, hclusters, h.clusters]
  | @append ownerId howner streamId items =>
      have hagree := @appended_agree K _ pf ownerId streamId now now' db.has db'.has items
        db.occurrences db'.occurrences (fun it hit id hid => h.has (htouch id ⟨it, hit, hid⟩))
        fun it hit id hid stream t => by
          refine h.any (p := fun key => key = (stream, id, t)) fun key hkey => ?_
          rw [of_decide_eq_true hkey]
          exact htouch id ⟨it, hit, hid⟩
      rw [append_outcome howner, append_outcome howner]
      cases happ : appended pf ownerId streamId now db.has items db.occurrences with
      | error e =>
          cases happ' : appended pf ownerId streamId now' db'.has items db'.occurrences with
          | error e' =>
              rw [happ, happ'] at hagree
              obtain rfl : e = e' := hagree
              rw [append_refused howner happ, append_refused howner happ']
              exact ⟨rfl, h⟩
          | ok r' =>
              rw [happ, happ'] at hagree
              exact hagree.elim
      | ok r =>
          cases happ' : appended pf ownerId streamId now' db'.has items db'.occurrences with
          | error e' =>
              rw [happ, happ'] at hagree
              exact hagree.elim
          | ok r' =>
              rw [happ, happ'] at hagree
              obtain ⟨hn, new, new', hrows, hrows', hnew, -⟩ := hagree
              have hrow : v.Same { db with occurrences := r.2 } { db' with occurrences := r'.2 } := by
                refine ⟨h.clusters, ?_⟩
                have hfilter : (new.filter fun r => !v.hidden r.clusterId).map (·.undated) =
                    (new'.filter fun r => !v.hidden r.clusterId).map (·.undated) := by
                  have hseen := congrArg (List.filter fun r => !v.hidden r.clusterId) hnew
                  rwa [List.filter_map, List.filter_map] at hseen
                rw [hrows, hrows', rows_append, rows_append, hfilter, h.rows]
              exact ⟨congrArg Except.ok hn, (append_shows howner happ).trans
                (hrow.trans (append_shows howner happ').symm)⟩
  | centroid clusterId ownerId a => exact column_seen rfl h
  | crop clusterId ownerId a => exact column_seen rfl h

end Window

/-! ### The clusters there are -/

/-- Only an upsert changes which clusters there are. -/
theorem commit_ids {wr : Write K} (hwr : Sees owner wr) (hnew : wr.isUpsert = false) :
    (wr.commit pf fresh now db).clusters.map (·.id) = db.clusters.map (·.id) := by
  have hcolumn : ∀ {clusterId ownerId : String} {col : Column K},
      wr.columnOf = some (clusterId, ownerId, col) →
      (wr.commit pf fresh now db).clusters.map (·.id) = db.clusters.map (·.id) := by
    intro clusterId ownerId col hcol
    rcases run_column hcol pf with ⟨e, he⟩ | ⟨id, rowOwner, r, -, hok⟩
    · rw [(he fresh now db).2]
    · rw [(hok fresh now db).2, updateClusters_ids col.put_id]
  cases hwr with
  | upsert ownerId a => cases hnew
  | @append ownerId howner streamId items =>
      cases happ : appended pf ownerId streamId now db.has items db.occurrences with
      | error e => rw [append_refused howner happ]
      | ok r =>
          obtain ⟨stream, -, hcommit⟩ := @append_commit K _ pf fresh owner now db ownerId streamId
            items r howner happ
          rw [hcommit, Database.recount]
          exact updateClusters_ids fun _ => rfl
  | centroid clusterId ownerId a => exact hcolumn rfl
  | crop clusterId ownerId a => exact hcolumn rfl

/-- Where a cluster comes from: it was there, with the same owner and, but for a
write of its crop, with the same crop; or it is new. -/
theorem mem_commit {wr : Write K} (hwr : Sees owner wr) {c : Cluster K}
    (hc : c ∈ (wr.commit pf fresh now db).clusters) :
    (∃ c₀ ∈ db.clusters, c₀.id = c.id ∧ c₀.ownerId = c.ownerId ∧ (c.cropObject = c₀.cropObject ∨
      (wr.Touches c.id ∧ ∃ clusterId ownerId, wr = .setClusterCrop clusterId ownerId c.cropObject))) ∨
    (c.id = fresh ∧ ¬ db.has fresh = true) := by
  have hsame : c ∈ db.clusters → (∃ c₀ ∈ db.clusters, c₀.id = c.id ∧ c₀.ownerId = c.ownerId ∧
      (c.cropObject = c₀.cropObject ∨ (wr.Touches c.id ∧
        ∃ clusterId ownerId, wr = .setClusterCrop clusterId ownerId c.cropObject))) ∨
      (c.id = fresh ∧ ¬ db.has fresh = true) := fun hc => .inl ⟨c, hc, rfl, rfl, .inl rfl⟩
  cases hwr with
  | upsert ownerId a =>
      rcases upsert_cases pf ownerId a fresh with ⟨e, he⟩ | ⟨rowOwner, hok⟩
      · rw [(he now db).2] at hc
        exact hsame hc
      · have hdb := hok now db
        split at hdb
        · rw [hdb.2] at hc
          exact hsame hc
        · rename_i hfresh
          rw [hdb.2] at hc
          rcases List.mem_append.mp hc with hc | hc
          · exact hsame hc
          · rw [List.mem_singleton.mp hc]
            exact .inr ⟨rfl, hfresh⟩
  | @append ownerId howner streamId items =>
      cases happ : appended pf ownerId streamId now db.has items db.occurrences with
      | error e =>
          rw [append_refused howner happ] at hc
          exact hsame hc
      | ok r =>
          obtain ⟨stream, -, hcommit⟩ := @append_commit K _ pf fresh owner now db ownerId
            streamId items r howner happ
          rw [hcommit] at hc
          obtain ⟨c₀, hc₀, rfl⟩ := mem_updateClusters hc
          refine .inl ⟨c₀, hc₀, ?_⟩
          split <;> exact ⟨rfl, rfl, .inl rfl⟩
  | centroid clusterId ownerId a =>
      have hcolumn : (updateClusterCentroid clusterId ownerId a).columnOf =
          some (clusterId, ownerId, .centroid a) := rfl
      rcases run_column hcolumn pf with ⟨e, he⟩ | ⟨id, rowOwner, r, -, hok⟩
      · rw [(he fresh now db).2] at hc
        exact hsame hc
      · rw [(hok fresh now db).2] at hc
        obtain ⟨c₀, hc₀, rfl⟩ := mem_updateClusters hc
        refine .inl ⟨c₀, hc₀, ?_⟩
        split <;> exact ⟨rfl, rfl, .inl rfl⟩
  | crop clusterId ownerId a =>
      have hcolumn : (setClusterCrop clusterId ownerId a : Write K).columnOf =
          some (clusterId, ownerId, .crop a) := rfl
      rcases run_column hcolumn pf with ⟨e, he⟩ | ⟨id, rowOwner, r, hcast, hok⟩
      · rw [(he fresh now db).2] at hc
        exact hsame hc
      · rw [(hok fresh now db).2] at hc
        obtain ⟨c₀, hc₀, rfl⟩ := mem_updateClusters hc
        refine .inl ⟨c₀, hc₀, ?_⟩
        split
        · rename_i hhit
          have hid : c₀.id = id := by
            rw [ofOwner, Bool.and_eq_true, decide_eq_true_eq] at hhit
            exact hhit.1
          refine ⟨rfl, rfl, .inr ⟨?_, clusterId, ownerId, rfl⟩⟩
          show castUuid clusterId = .ok c₀.id
          rw [hcast, hid]
        · exact ⟨rfl, rfl, .inl rfl⟩

/-- Where the same clusters are there, they are afterwards. -/
theorem ids_seen {wr : Write K} (hwr : Sees owner wr)
    (h : db.clusters.map (·.id) = db'.clusters.map (·.id)) :
    (wr.commit pf fresh now db).clusters.map (·.id) = (wr.commit pf fresh now' db').clusters.map (·.id) := by
  cases hnew : wr.isUpsert with
  | false => rw [commit_ids hwr hnew, commit_ids hwr hnew, h]
  | true =>
      cases hwr with
      | upsert ownerId a =>
          have hhas : db.has fresh = db'.has fresh := by
            rw [Bool.eq_iff_iff, has_iff, has_iff, h]
          rcases upsert_cases pf ownerId a fresh with ⟨e, he⟩ | ⟨rowOwner, hok⟩
          · rw [(he now db).2, (he now' db').2, h]
          · have hdb := hok now db
            have hdb' := hok now' db'
            rw [← hhas] at hdb'
            split at hdb
            · rename_i hfresh
              rw [if_pos hfresh] at hdb'
              rw [hdb.2, hdb'.2, h]
            · rename_i hfresh
              rw [if_neg hfresh] at hdb'
              rw [hdb.2, hdb'.2, List.map_append, List.map_append, h]
              rfl
      | append howner streamId items => cases hnew
      | centroid clusterId ownerId a => cases hnew
      | crop clusterId ownerId a => cases hnew

/-- No cluster goes. -/
theorem has_commit {wr : Write K} (hwr : Sees owner wr) (h : db.has id = true) :
    (wr.commit pf fresh now db).has id = true := by
  rw [has_iff] at h ⊢
  cases hnew : wr.isUpsert with
  | false => rwa [commit_ids hwr hnew]
  | true =>
      cases hwr with
      | upsert ownerId a =>
          rcases upsert_cases pf ownerId a fresh with ⟨e, he⟩ | ⟨rowOwner, hok⟩
          · rwa [(he now db).2]
          · have hdb := hok now db
            split at hdb
            · rwa [hdb.2]
            · rw [hdb.2, List.map_append]
              exact List.mem_append_left _ h
      | append howner streamId items => cases hnew
      | centroid clusterId ownerId a => cases hnew
      | crop clusterId ownerId a => cases hnew

end Write

/-! ### One cluster -/

section One

variable {pf : Platform K} {fresh owner rowOwner X : Uuid} {now : ℕ} {db : Database K}

/-- The cluster is there, and it is this owner's. -/
structure HasOwner (X rowOwner : Uuid) (db : Database K) : Prop where
  there : db.has X = true
  owner : ∀ c ∈ db.clusters, c.id = X → c.ownerId = rowOwner

theorem HasOwner.commit (h : HasOwner X rowOwner db) {wr : Write K} (hwr : wr.Sees owner) :
    HasOwner X rowOwner (wr.commit pf fresh now db) := by
  refine ⟨Write.has_commit hwr h.there, fun c hc hid => ?_⟩
  rcases Write.mem_commit hwr hc with ⟨c₀, hc₀, hid₀, howner, -⟩ | ⟨hfresh, hnew⟩
  · rw [← howner]
    exact h.owner c₀ hc₀ (hid₀.trans hid)
  · rw [← hfresh, hid] at hnew
    exact absurd h.there hnew

/-- The crop of the cluster. -/
def CropIs (X : Uuid) (key : String) (db : Database K) : Prop :=
  ∀ c ∈ db.clusters, c.id = X → c.cropObject = some key

theorem CropIs.commit {key : String} (h : CropIs X key db) (hthere : db.has X = true) {wr : Write K}
    (hwr : wr.Sees owner)
    (hcrop : wr.Touches X → ∀ clusterId ownerId a, wr = .setClusterCrop clusterId ownerId a → a = some key) :
    CropIs X key (wr.commit pf fresh now db) := by
  intro c hc hid
  rcases Write.mem_commit hwr hc with ⟨c₀, hc₀, hid₀, -, hkept | ⟨htouch, clusterId, ownerId, hwrites⟩⟩ |
    ⟨hfresh, hnew⟩
  · rw [hkept]
    exact h c₀ hc₀ (hid₀.trans hid)
  · exact hcrop (hid ▸ htouch) _ _ _ hwrites
  · rw [← hfresh, hid] at hnew
    exact absurd hthere hnew

/-- A write of the crop with the ids of the row. -/
theorem CropIs.set (h : HasOwner X rowOwner db) (key : String) :
    (Write.setClusterCrop X.text rowOwner.text (some key)).outcome pf fresh now db = .ok () ∧
      CropIs X key ((Write.setClusterCrop X.text rowOwner.text (some key) : Write K).commit pf fresh now db) := by
  have hrun : (Write.setClusterCrop X.text rowOwner.text (some key)).run pf fresh now db =
      .ok ⟨(), db.updateClusters (ofOwner X rowOwner) ((Column.crop (some key)).put pf now), []⟩ := by
    rw [Write.run, Db.setClusterCrop, Uuid.castUuid_text, Uuid.castUuid_text]
    rfl
  rw [Write.outcome, Write.commit_of_ok hrun, hrun]
  refine ⟨rfl, fun c hc hid => ?_⟩
  obtain ⟨c₀, hc₀, rfl⟩ := mem_updateClusters hc
  split
  · rfl
  · rename_i hmiss
    rw [if_neg hmiss] at hid
    refine absurd ?_ hmiss
    rw [ofOwner, hid, h.owner c₀ hc₀ hid]
    simp

end One

/-! ### Counts -/

namespace Tallied

variable {pf : Platform K} {fresh owner : Uuid} {now : ℕ} {db : Database K}

omit [DecidableEq K] in
theorem put (h : Tallied owner db) {id rowOwner : Uuid} (col : Column K) :
    Tallied owner (db.updateClusters (ofOwner id rowOwner) (col.put pf now)) := by
  constructor
  · intro c hc howner
    obtain ⟨c₀, hc₀, rfl⟩ := mem_updateClusters hc
    rw [countFor_updateClusters]
    by_cases hhit : ofOwner id rowOwner c₀ = true
    · rw [if_pos hhit] at howner ⊢
      rw [col.put_sampleCount, col.put_id]
      exact h.counts c₀ hc₀ (by simpa using howner)
    · rw [if_neg hhit] at howner ⊢
      exact h.counts c₀ hc₀ howner
  · intro r hr
    rw [has_iff, updateClusters_ids col.put_id, ← has_iff]
    exact h.linked r hr

omit [DecidableEq K] in
theorem insert (h : Tallied owner db) {rowOwner : Uuid} {a : List K} (hfresh : ¬ db.has fresh = true) :
    Tallied owner { db with clusters := db.clusters ++ [Write.newRow pf fresh rowOwner now a] } := by
  constructor
  · intro c hc howner
    rcases List.mem_append.mp hc with hc | hc
    · exact h.counts c hc howner
    · rw [List.mem_singleton.mp hc]
      refine (List.countP_eq_zero.mpr fun r hr hid => hfresh ?_).symm
      have hrow : r.clusterId = fresh := of_decide_eq_true hid
      rw [← hrow]
      exact h.linked r hr
  · intro r hr
    have hrow := has_iff.mp (h.linked r hr)
    rw [has_iff, List.map_append]
    exact List.mem_append_left _ hrow

/-- The recount of an append covers the owner's clusters it gives rows to. -/
theorem append (h : Tallied owner db) {ownerId streamId : String} {items : List (Item K)}
    (howner : castUuid ownerId = .ok owner) :
    Tallied owner ((Write.appendStreamOccurrences ownerId streamId items).commit pf fresh now db) := by
  cases happ : appended pf ownerId streamId now db.has items db.occurrences with
  | error e =>
      rw [Write.append_refused howner happ]
      exact h
  | ok r =>
      obtain ⟨new, -, -, hrows, hadded⟩ := appended_ok happ
      obtain ⟨stream, hstream, hcommit⟩ := @Write.append_commit K _ pf fresh owner now db ownerId
        streamId items r howner happ
      constructor
      · intro c hc hcowner
        rw [hcommit, Database.recount] at hc ⊢
        obtain ⟨c₀, hc₀, rfl⟩ := mem_updateClusters hc
        rw [countFor_updateClusters]
        by_cases hhit : Write.recounted owner stream r.2 c₀ = true
        · rw [if_pos hhit]
        · rw [if_neg hhit] at hcowner ⊢
          rw [h.counts c₀ hc₀ hcowner]
          unfold countFor
          rw [hrows, List.countP_append]
          -- a new row of the cluster would have had it recounted
          have hnone : (new.countP fun o => decide (o.clusterId = c₀.id)) = 0 := by
            rw [List.countP_eq_zero]
            intro o ho hid
            refine hhit ?_
            obtain ⟨hostream, -⟩ := hadded o ho
            rw [hstream] at hostream
            cases hostream
            rw [Write.recounted, Bool.and_eq_true, hrows, List.any_eq_true]
            refine ⟨decide_eq_true hcowner, o, List.mem_append_right _ ho, ?_⟩
            simpa using hid
          rw [hnone, Nat.add_zero]
      · intro o ho
        have hwr : Write.Sees owner (.appendStreamOccurrences ownerId streamId items) :=
          .append howner streamId items
        refine Write.has_commit hwr ?_
        rw [hcommit] at ho
        change o ∈ r.2 at ho
        rw [hrows] at ho
        rcases List.mem_append.mp ho with ho | ho
        · exact h.linked o ho
        · exact (hadded o ho).2.1

theorem commit (h : Tallied owner db) {wr : Write K} (hwr : wr.Sees owner) :
    Tallied owner (wr.commit pf fresh now db) := by
  have hcolumn : ∀ {clusterId ownerId : String} {col : Column K},
      wr.columnOf = some (clusterId, ownerId, col) → Tallied owner (wr.commit pf fresh now db) := by
    intro clusterId ownerId col hcol
    rcases Write.run_column hcol pf with ⟨e, he⟩ | ⟨id, rowOwner, r, -, hok⟩
    · rw [(he fresh now db).2]
      exact h
    · rw [(hok fresh now db).2]
      exact h.put col
  cases hwr with
  | upsert ownerId a =>
      rcases Write.upsert_cases pf ownerId a fresh with ⟨e, he⟩ | ⟨rowOwner, hok⟩
      · rw [(he now db).2]
        exact h
      · have hdb := hok now db
        split at hdb
        · rw [hdb.2]
          exact h
        · rename_i hfresh
          rw [hdb.2]
          exact h.insert hfresh
  | append howner streamId items => exact h.append howner
  | centroid clusterId ownerId a => exact hcolumn rfl
  | crop clusterId ownerId a => exact hcolumn rfl

end Tallied

end FacesService
