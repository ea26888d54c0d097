import FacesService.Base.Lists
import FacesService.Reader.Views

/-!
`stream_faces`, the one endpoint that reads rows of everybody and sorts them out
afterwards. The rows of others make it ask for more clusters, and nothing of
that reaches the response.
-/

namespace FacesService.Reader

open Prog Database Db

variable {K : Type} [Arithmetic K] {auth : AuthContext} {pf : Platform K} {oracle : Oracle}

/-- What one round of the loop adds to the response. -/
def streamEntry (auth : AuthContext) (db : Database K)
    (entry : Uuid × List (StreamOccurrence K)) : Option (StreamCluster K) :=
  match db.clusterById entry.1 with
  | none => none
  | some c =>
      match ensureOwner auth c.ownerId.text with
      | .error _ => none
      | .ok () => some ⟨c, entry.2.length, entry.2⟩

theorem exec_streamFace (out : List (StreamCluster K)) (entry : Uuid × List (StreamOccurrence K))
    (w : World K) :
    (streamFace auth out entry).exec (answer pf oracle) w =
      (.ok (out ++ (streamEntry auth w.db entry).toList), { w with calls := w.calls + 1 }) := by
  unfold streamFace streamEntry
  rw [exec_bind, exec_query]
  simp only [Query.run, getCluster, Uuid.castUuid_text, Fallible.ok_bind]
  cases w.db.clusterById entry.1 with
  | none => simp
  | some c =>
      simp only
      cases ensureOwner auth c.ownerId.text <;> simp

theorem exec_streamFaces_loop (entries : List (Uuid × List (StreamOccurrence K)))
    (out : List (StreamCluster K)) (w : World K) :
    (entries.foldlM (streamFace auth) out).exec (answer pf oracle) w =
      (.ok (out ++ entries.filterMap (streamEntry auth w.db)),
        { w with calls := w.calls + entries.length }) := by
  induction entries generalizing out w with
  | nil => simp
  | cons entry entries ih =>
      rw [List.foldlM_cons, exec_bind, exec_streamFace]
      simp only
      rw [ih]
      have hcalls : w.calls + 1 + entries.length = w.calls + (entry :: entries).length := by
        rw [List.length_cons, Nat.add_assoc, Nat.add_comm 1]
      rw [hcalls]
      cases hentry : streamEntry auth w.db entry <;> simp [hentry]

/-- The order of `get_occurrences_for_stream`. -/
def streamOrder (a b : Occurrence K) : Bool :=
  a.clusterId.text < b.clusterId.text || (a.clusterId = b.clusterId && a.tSeconds ≤ b.tSeconds)

theorem streamOrder_iff {a b : Occurrence K} :
    streamOrder a b = true ↔ toLex (a.clusterId.text, a.tSeconds) ≤ toLex (b.clusterId.text, b.tSeconds) := by
  rw [Prod.Lex.le_iff]
  simp [streamOrder, Uuid.text_injective.eq_iff]

instance : IsTrans (Occurrence K) fun a b => streamOrder a b = true where
  trans a b c hab hbc := by
    rw [streamOrder_iff] at *
    exact hab.trans hbc

instance : Std.Total fun a b : Occurrence K => streamOrder a b = true where
  total a b := by
    rw [streamOrder_iff, streamOrder_iff]
    exact le_total _ _

/-- The rows of a stream, as the query returns them. -/
def streamRows (db : Database K) (stream : Uuid) : List (Occurrence K) :=
  orderBy streamOrder (db.occurrences.filter fun o => o.streamId = stream)

/-- The user's rows of a stream come in the same order as among the others'. -/
theorem streamRows_of (db : Database K) (userId : String) (stream : Uuid) :
    streamRows (db.of userId) stream =
      (streamRows db stream).filter fun o => isMine userId o.ownerId := by
  unfold streamRows orderBy
  rw [List.filter_insertionSort, occurrences_of, List.filter_filter, List.filter_filter]
  simp only [Bool.and_comm]

omit [Arithmetic K] in
/-- The clusters of others drop out, whatever rows are put down for them. -/
theorem streamEntry_of {db : Database K} (hl : db.Linked) (hrole : auth.role ≠ some "admin") (id : Uuid) :
    (∀ rows, streamEntry auth (db.of auth.userId) (id, rows) = streamEntry auth db (id, rows)) ∧
      (db.OnlyMine auth.userId id ∨ ∀ rows, streamEntry auth db (id, rows) = none) := by
  rcases owned_or_not hl auth.userId id with ⟨row, hrow, hrow', howner⟩ | ⟨hnot, hnot'⟩
  · refine ⟨fun rows => ?_, .inl (onlyMine_of_owner hl hrow howner)⟩
    simp only [streamEntry, hrow, hrow']
  · have hnone : ∀ d : Database K, NotOwned d auth.userId id → ∀ rows,
        streamEntry auth d (id, rows) = none := by
      intro d hd rows
      unfold streamEntry
      cases hrow : d.clusterById id with
      | none => rfl
      | some row => simp only [ensureOwner_other hrole (hd row hrow)]
    exact ⟨fun rows => (hnone _ hnot' rows).trans (hnone _ hnot rows).symm, .inr (hnone _ hnot)⟩

theorem mem_streamRows {db : Database K} {stream : Uuid} {o : Occurrence K}
    (h : o ∈ streamRows db stream) : o ∈ db.occurrences := by
  unfold streamRows orderBy at h
  rw [List.mem_insertionSort] at h
  exact (List.mem_filter.mp h).1

/-- The sightings put down for one cluster. -/
def sightingsOf (rows : List (Occurrence K)) (id : Uuid) : List (StreamOccurrence K) :=
  (rows.map .ofRow).filter fun r => r.clusterId = id

theorem filterMap_isSome {α β : Type} (f : α → Option β) (l : List α) :
    l.filterMap f = (l.filter fun a => (f a).isSome).filterMap f := by
  rw [List.filterMap_filter]
  congr 1
  funext a
  cases hfa : f a <;> simp

theorem filter_fromKeys {α : Type} [DecidableEq α] (p : α → Bool) (l : List α) :
    (fromKeys l).filter p = fromKeys (l.filter p) := by
  unfold fromKeys
  rw [List.filter_reverse, List.filter_dedup, List.filter_reverse]

omit [Arithmetic K] in
theorem byCluster_filterMap {β : Type} (rows : List (Occurrence K))
    (f : Uuid × List (StreamOccurrence K) → Option β) :
    (byCluster (rows.map .ofRow)).filterMap f =
      (fromKeys (rows.map (·.clusterId))).filterMap fun id => f (id, sightingsOf rows id) := by
  unfold byCluster
  rw [List.filterMap_map, List.map_map]
  rfl

/-- The response is made of the user's own rows. -/
theorem streamFaces_entries {db : Database K} (hl : db.Linked) (hrole : auth.role ≠ some "admin")
    (stream : Uuid) :
    (byCluster ((streamRows (db.of auth.userId) stream).map .ofRow)).filterMap
        (streamEntry auth (db.of auth.userId)) =
      (byCluster ((streamRows db stream).map .ofRow)).filterMap (streamEntry auth db) := by
  rw [byCluster_filterMap, byCluster_filterMap, streamRows_of]
  set rows := streamRows db stream with hrows
  have hmine : ∀ id, db.OnlyMine auth.userId id → ∀ o ∈ rows, o.clusterId = id →
      isMine auth.userId o.ownerId = true := by
    intro id honly o ho hid
    exact hl.isMine_row (mem_streamRows ho) (hid ▸ honly)
  -- an own cluster has the same sightings in both
  have hentry : ∀ id, streamEntry auth (db.of auth.userId)
        (id, sightingsOf (rows.filter fun o => isMine auth.userId o.ownerId) id) =
      streamEntry auth db (id, sightingsOf rows id) := by
    intro id
    obtain ⟨hsame, honly | hnone⟩ := streamEntry_of hl hrole id
    · rw [hsame]
      unfold sightingsOf
      rw [List.filter_map, List.filter_map, List.filter_filter]
      congr 2
      refine congrArg _ (List.filter_congr fun o ho => ?_)
      by_cases hid : o.clusterId = id
      · simp [StreamOccurrence.ofRow, hid, hmine id honly o ho hid]
      · simp [StreamOccurrence.ofRow, hid]
    · rw [hsame, hnone, hnone]
  simp only [hentry]
  set f := fun id => streamEntry auth db (id, sightingsOf rows id) with hf
  -- and only own clusters have an entry
  have hown : ∀ o ∈ rows, (f o.clusterId).isSome = true → isMine auth.userId o.ownerId = true := by
    intro o ho hsome
    obtain ⟨-, honly | hnone⟩ := streamEntry_of hl hrole o.clusterId
    · exact hmine _ honly o ho rfl
    · simp only [hf, hnone] at hsome
      cases hsome
  rw [filterMap_isSome f, filterMap_isSome f (fromKeys (rows.map (·.clusterId))), filter_fromKeys,
    filter_fromKeys, List.filter_map, List.filter_map, List.filter_filter]
  congr 3
  refine List.filter_congr fun o ho => ?_
  cases hsome : (f o.clusterId).isSome with
  | false => simp [hsome]
  | true => simp [hsome, hown o ho hsome]

/-- `stream_faces` on the world and on the private one: the counters of calls may
part, nothing else. -/
theorem streamFaces_mirrors {w₀ : World K} (hrole : auth.role ≠ some "admin") (streamId : String) :
    Mirrors pf oracle (InStep auth.userId w₀) (streamFaces auth streamId)
      (fun _ => Shadows auth.userId w₀) (Shadows auth.userId w₀) := by
  intro w v h
  cases hcast : castUuid streamId with
  | error e =>
      have hexec : ∀ w : World K, (streamFaces auth streamId).exec (answer pf oracle) w =
          (.error e, { w with calls := w.calls + 1 }) := by
        intro w
        unfold streamFaces
        rw [exec_bind, exec_query]
        simp only [Query.run, getOccurrencesForStream, hcast]
        rfl
      rw [hexec, hexec]
      exact ⟨rfl, (h.tick 0).toShadows⟩
  | ok stream =>
      have hexec : ∀ w : World K, (streamFaces auth streamId).exec (answer pf oracle) w =
          (.ok ((byCluster ((streamRows w.db stream).map .ofRow)).filterMap (streamEntry auth w.db)),
            { w with calls := w.calls + 1 +
                (byCluster ((streamRows w.db stream).map StreamOccurrence.ofRow)).length }) := by
        intro w
        unfold streamFaces
        rw [exec_bind, exec_query]
        simp only [Query.run, getOccurrencesForStream, hcast, Fallible.ok_bind]
        rw [exec_streamFaces_loop]
        rfl
      rw [hexec, hexec]
      refine ⟨?_, ?_⟩
      · rw [h.db, streamFaces_entries h.inv.toLinked hrole]
      · exact ⟨h.inv, h.db, h.objects, h.epoch, h.entries, ⟨h.untouched.others, h.untouched.objects⟩⟩

end FacesService.Reader
