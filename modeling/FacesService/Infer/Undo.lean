import FacesService.Infer.Accounting
import FacesService.Infer.Rerun
import FacesService.Store.Cascade

/-!
A video processed and deleted again. The run puts its clusters and its rows behind
those that are there, and changes of an old cluster only what the video has to do
with; so the cascade leaves the tables as they were, but for centroids and crops, and
but for clusters without a sighting that were recognized in the video.
-/

namespace FacesService

open Prog Database Db Fallible

variable {K : Type}

/-- A row but for its centroid, its crop and its `updated_at`. -/
def Cluster.bare (c : Cluster K) : Cluster K := { c with centroid := [], cropObject := none, updatedAt := 0 }

/-- The rows of `db`, as far as they are bare, come first. -/
structure Grown (db db' : Database K) : Prop where
  occurrences : db'.occurrences = db.occurrences
  clusters : db.clusters.map (·.bare) <+: db'.clusters.map (·.bare)

theorem bare_settleCluster (now : ℕ) (db : Database K) (ids : List Uuid) (c : Cluster K) :
    (settleCluster now db ids c).map (·.bare) = settleCluster 0 db ids c.bare := by
  have hid : c.bare.id = c.id := rfl
  unfold settleCluster
  rw [hid]
  split
  · split
    · rfl
    · rfl
  · rfl

theorem bare_filterMap (now : ℕ) (db : Database K) (ids : List Uuid) (rows : List (Cluster K)) :
    (rows.filterMap (settleCluster now db ids)).map (·.bare) =
      (rows.map (·.bare)).filterMap (settleCluster 0 db ids) := by
  rw [List.map_filterMap, List.filterMap_map]
  apply List.filterMap_congr
  intro c _
  exact bare_settleCluster now db ids c

theorem map_bare_updateClusters (db : Database K) (p : Cluster K → Bool) {f : Cluster K → Cluster K}
    (hf : ∀ c, (f c).bare = c.bare) : (db.updateClusters p f).clusters.map (·.bare) = db.clusters.map (·.bare) := by
  unfold Database.updateClusters
  rw [List.map_map]
  apply List.map_congr_left
  intro c _
  simp only [Function.comp_apply]
  split
  · exact hf c
  · rfl

/-- The clusters listed are counted anew, and go if nothing is left of them. -/
theorem settleCluster_of_count {db : Database K} {ids : List Uuid} {c : Cluster K}
    (hcount : c.sampleCount = db.countFor c.id) : settleCluster 0 db ids c.bare =
      if db.countFor c.id ≠ 0 ∨ c.id ∉ ids then some c.bare else none := by
  have hid : c.bare.id = c.id := rfl
  unfold settleCluster
  rw [hid]
  by_cases hmem : c.id ∈ ids
  · by_cases hzero : db.countFor c.id = 0
    · simp [hmem, hzero]
    · simp [hmem, ← hcount, Cluster.bare]
  · simp [hmem]

variable [Arithmetic K] {svc : Service K} {oracle : Oracle} {args : RunArgs}

/-! ### The loop -/

theorem loopCall_grown {db : Database K} {op : Call K} (hop : LoopCall op) {w : World K} (h : Grown db w.db) :
    Grown db (answer svc.pf oracle op w).2.db := by
  cases hop with
  | upsert ownerId centroid =>
      rw [answer_write_db]
      split
      · rename_i c hrun
        obtain ⟨owner, -, -, -, hinsert⟩ := Db.upsertCluster_ok hrun
        rw [(insertCluster_eq_ok hinsert).2]
        refine ⟨h.occurrences, h.clusters.trans ?_⟩
        rw [List.map_append]
        exact List.prefix_append _ _
      · exact h
  | setCrop clusterId ownerId key =>
      rw [answer_write_db]
      split
      · rename_i c hrun
        obtain ⟨id, owner, -, -, rfl⟩ := Db.setClusterCrop_ok hrun
        refine ⟨h.occurrences, ?_⟩
        rw [map_bare_updateClusters]
        · exact h.clusters
        · exact fun _ => rfl
      · exact h
  | getFrame pre index => exact h
  | putCrop ownerId clusterId data => exact h
  | poll => exact h

theorem seeFrames_grown {indices : List ℕ} {done : ℕ} {st : LoopState K} {w w' : World K}
    {r : Except PyError (LoopState K)}
    (h : (seeFrames svc args indices done st).exec (answer svc.pf oracle) w = (r, w')) : Grown w.db w'.db := by
  have hstart : Grown w.db w.db := ⟨rfl, List.prefix_refl _⟩
  exact exec_keeps (I := fun s : World K => Grown w.db s.db) (fun _ _ hop hs => loopCall_grown hop hs)
    (seeFrames_within args indices done st) h hstart

/-- The clusters at the end were there from the start, or took a sighting. -/
theorem matching_covers {ids : ℕ → String} {known final : List (Known K)} {n : ℕ} {ss : List (Sighting K)}
    {placed : List (String × Sighting K)} (h : matching svc ids known n ss = .ok (placed, final)) {id : String}
    (hid : id ∈ final.map (·.id)) : id ∈ known.map (·.id) ∨ id ∈ placed.map (·.1) := by
  induction ss generalizing known n placed with
  | nil =>
      cases h
      exact .inl hid
  | cons s ss ih =>
      rcases matching_cons h with ⟨placed', -, rfl, hrest⟩ | ⟨k, c, placed', hassign, habsorb, rfl, hrest⟩
      · rcases ih hrest with hknown | hplaced
        · rw [List.map_append, List.mem_append] at hknown
          rcases hknown with hknown | hnew
          · exact .inl hknown
          · right
            simp only [List.map_cons, List.map_nil, List.mem_singleton, Known.created] at hnew
            rw [hnew]
            exact List.mem_cons_self
        · exact .inr (List.mem_cons_of_mem _ hplaced)
      · rcases ih hrest with hknown | hplaced
        · rw [updateKnown_ids] at hknown
          exact .inl hknown
        · exact .inr (List.mem_cons_of_mem _ hplaced)

/-! ### The append -/

omit [Arithmetic K] in
/-- The new rows come last, and are of the stream. -/
theorem insertItems_tail [DecidableEq K] {pf : Platform K} {now : ℕ} {ownerId streamId : String} {stream : Uuid}
    (hstream : castUuid streamId = .ok stream) {items : List (Item K)} {n m : ℕ} {db db' : Database K}
    (h : insertItems pf now ownerId streamId items n db = .ok (m, db')) :
    ∃ rows, db'.occurrences = db.occurrences ++ rows ∧ (∀ o ∈ rows, o.streamId = stream) ∧
      m = n + rows.length := by
  induction items generalizing n db with
  | nil =>
      cases h
      exact ⟨[], by simp⟩
  | cons it items ih =>
      obtain ⟨owner, stream', id, k, db₁, -, hstream', -, hins, hrest⟩ := insertItems_cons h
      cases hstream.symm.trans hstream'
      obtain ⟨rows, hocc, hall, hm⟩ := ih hrest
      rcases insertOccurrenceIfNew_eq_ok hins with ⟨rfl, rfl, -⟩ | ⟨rfl, hinsert⟩
      · exact ⟨rows, hocc, hall, hm⟩
      · obtain ⟨-, -, rfl⟩ := insertOccurrence_eq_ok hinsert
        refine ⟨it.row pf now owner stream id :: rows, ?_, ?_, ?_⟩
        · rw [hocc, List.append_assoc]
          rfl
        · intro o ho
          rcases List.mem_cons.mp ho with rfl | ho
          · rfl
          · exact hall o ho
        · rw [hm, List.length_cons]
          omega

/-! ### The run -/

/-- What of a completed run is left to undo: rows of the stream behind those that were
there, and clusters behind those that were there, each of them with such a row. -/
structure Processed (db db' : Database K) (stream : Uuid) (created : List String) (written : ℕ) : Prop where
  ids : (db'.clusters.map (·.id)).Nodup
  rows : ∃ new, db'.occurrences = db.occurrences ++ new ∧ (∀ o ∈ new, o.streamId = stream) ∧
    written = new.length
  clusters : ∃ made : List (Cluster K), made.map (·.id.text) = created ∧
    db'.clusters.map (·.id) = db.clusters.map (·.id) ++ made.map (·.id) ∧
    (∀ c ∈ made, ∃ o ∈ db'.occurrences, o.streamId = stream ∧ o.clusterId = c.id) ∧
    ∀ db₀, (db'.clusters.map (·.bare)).filterMap (settleCluster 0 db₀ (hit (inStream stream) db')) =
      (db.clusters.map (·.bare) ++ made).filterMap (settleCluster 0 db₀ (hit (inStream stream) db'))

/-- The rows of the clusters a run made. -/
theorem created_rows {w w₁ : World K} {owner : Uuid} (howner : castUuid args.ownerId = .ok owner)
    (hids : (w.db.clusters.map (·.id)).Nodup) {st : LoopState K}
    (hframes : (seeFrames svc args (frameIndices args.count args.maxFrames) 0
      (startState w.db args.ownerId)).exec (answer svc.pf oracle) { w with calls := w.calls + 1 } = (.ok st, w₁)) :
    ∃ made : List (Cluster K), w₁.db.clusters.map (·.bare) = w.db.clusters.map (·.bare) ++ made ∧
      made.map (·.id.text) = st.createdIds := by
  obtain ⟨rows, -, hstart, hperm⟩ := startState_rows howner w.db
  have hgrown := seeFrames_grown hframes
  obtain ⟨made, hmade⟩ := hgrown.clusters
  rw [hstart] at hframes
  have hf₀ : Follows svc oracle owner args.framesPrefix w { w with calls := w.calls + 1 }
      (LoopState.start rows).known (LoopState.start rows) 0 [] :=
    follows_start hperm hids rfl rfl rfl
  have ht₀ : Tallies w { w with calls := w.calls + 1 } (LoopState.start rows) 0 0 :=
    ⟨rfl, rfl, (List.append_nil _).symm⟩
  have htable := (seeFrames_tallies howner hf₀ ht₀ hframes).table
  have htexts : ∀ rows : List (Cluster K), (rows.map (·.bare)).map (·.id.text) = rows.map (·.id.text) := by
    intro rows
    rw [List.map_map]
    rfl
  refine ⟨made, hmade.symm, ?_⟩
  rw [← htexts, ← hmade, List.map_append, htexts] at htable
  exact List.append_cancel_left htable

omit [Arithmetic K] in
/-- Where the cascade looks, a row after the run is the row before it. -/
theorem settle_persisted {owner stream : Uuid} {db₁ db' : Database K} (hocc : db'.occurrences = db₁.occurrences)
    (db₀ : Database K) (drift : List (String × List K)) (c : Cluster K) :
    settleCluster 0 db₀ (hit (inStream stream) db') (persisted svc.pf owner stream db₁ drift c).bare =
      settleCluster 0 db₀ (hit (inStream stream) db') c.bare := by
  have hid : (persisted svc.pf owner stream db₁ drift c).bare.id = c.bare.id := rfl
  unfold settleCluster
  rw [hid]
  by_cases hmem : c.bare.id ∈ hit (inStream stream) db'
  · rw [if_pos hmem, if_pos hmem]
    split
    · rfl
    · rfl
  · have hout : (db₁.occurrences.any fun o => o.streamId = stream && o.clusterId = c.id) = false := by
      rw [List.any_eq_false]
      intro o ho hboth
      rw [Bool.and_eq_true, decide_eq_true_eq, decide_eq_true_eq] at hboth
      exact hmem (mem_hit.mpr ⟨o, hocc ▸ ho, decide_eq_true hboth.1, hboth.2⟩)
    rw [if_neg hmem, if_neg hmem]
    simp [persisted, drifted, recounted, hout, Cluster.bare]

theorem run_processed {w w' : World K} {r : RunResult} (hids : (w.db.clusters.map (·.id)).Nodup)
    (h : (run svc args).exec (answer svc.pf oracle) w = (.ok r, w')) :
    ∃ stream, castUuid args.streamId = .ok stream ∧
      Processed w.db w'.db stream r.clustersCreated r.occurrencesWritten := by
  obtain ⟨owner, st, n, placed, w₁, howner, hframes, -, hf, hpersist, hreport⟩ := run_ok hids h
  obtain ⟨db₁, stream, hstream, hinsert, hocc, hrows, -⟩ :=
    persist_ok howner hf.drift_keys hf.drift_ids hpersist
  obtain ⟨made, hmade, htexts⟩ := created_rows howner hids hframes
  obtain ⟨new, hnew, hall, hwritten⟩ := insertItems_tail hstream hinsert
  have hcolumn : w'.db.clusters.map (·.id) = w₁.db.clusters.map (·.id) :=
    persisted_column (·.id) (fun _ => rfl) hrows
  refine ⟨stream, hstream, hcolumn ▸ hf.ids, ⟨new, ?_, hall, ?_⟩, made, ?_, ?_, ?_, ?_⟩
  · rw [hocc, hnew, hf.occurrences]
  · rw [hwritten, Nat.zero_add]
  · rw [htexts, hreport]
  · have htable := congrArg (List.map (·.id)) hmade
    rw [List.map_append, List.map_map, List.map_map] at htable
    rw [hcolumn]
    exact htable
  · intro c hc
    -- a cluster that was made has taken a sighting, whose item has its row
    have hcreated : c.id.text ∈ st.createdIds := htexts ▸ List.mem_map_of_mem hc
    have hnodup := hf.nodup
    rw [hf.created, List.nodup_append] at hnodup
    have hknown : c.id.text ∈ st.known.map (·.id) := by
      rw [hf.created]
      exact List.mem_append_right _ hcreated
    have hplaced : c.id.text ∈ placed.map (·.1) := by
      apply (matching_covers hf.matching_eq hknown).resolve_left
      exact fun hold => hnodup.2.2 _ hold _ hcreated rfl
    obtain ⟨p, hp, hpid⟩ := List.mem_map.mp hplaced
    have hitem : itemOf svc p ∈ st.items := hf.items ▸ List.mem_map_of_mem hp
    obtain ⟨id, hid, o, ho, hos, hoid, -⟩ := insertItems_row hstream hinsert _ hitem
    have hcast : castUuid p.1 = .ok id := hid
    rw [hpid, Uuid.castUuid_text] at hcast
    cases hcast
    exact ⟨o, hocc ▸ ho, hos, hoid⟩
  · intro db₀
    have hbare : w'.db.clusters.map (·.bare) =
        w₁.db.clusters.map fun c => (persisted svc.pf owner stream db₁ st.drift c).bare :=
      persisted_column (·.bare) (fun _ => rfl) hrows
    rw [hbare, ← hmade, List.filterMap_map, List.filterMap_map]
    apply List.filterMap_congr
    intro c _
    exact settle_persisted hocc db₀ st.drift c

/-! ### The cascade after it -/

/-- What is left when the video is gone. -/
structure Undone (db db' : Database K) (stream : Uuid) (r : RunResult) (c : Commit K CascadeResult) : Prop where
  occurrences : c.db.occurrences = db.occurrences
  clusters : c.db.clusters.map (·.bare) = (db.clusters.filter fun row =>
    decide (db.countFor row.id ≠ 0 ∨ row.id ∉ clustersIn db' stream)).map (·.bare)
  counted : c.result.occurrencesDeleted = r.occurrencesWritten
  reported : ∀ id : Uuid, id.text ∈ r.clustersCreated → ∃ owner, (owner, id) ∈ c.result.deletedClusters

omit [Arithmetic K] in
theorem Processed.undone [DecidableEq K] {db db' : Database K} {stream : Uuid} {r : RunResult}
    (h : Processed db db' stream r.clustersCreated r.occurrencesWritten) (hstore : StoreInvariant db)
    (hnew : ∀ o ∈ db.occurrences, o.streamId ≠ stream) {streamId : String}
    (hstream : castUuid streamId = .ok stream) (now : ℕ) :
    ∃ c, cascadeStream now db' streamId = .ok c ∧ Undone db db' stream r c := by
  obtain ⟨hids, ⟨new, hocc, hall, hwritten⟩, made, htexts, htable, hsighted, hclusters⟩ := h
  obtain ⟨c, hc, hdb, hdeleted, hreports, -⟩ := cascadeStream_purges hids hstream now
  have hrest : (db'.deleteOccurrences (inStream stream)).occurrences = db.occurrences := by
    change db'.occurrences.filter (fun o => !inStream stream o) = db.occurrences
    have hold : db.occurrences.filter (fun o => !inStream stream o) = db.occurrences := by
      apply List.filter_eq_self.mpr
      intro o ho
      simp [inStream, hnew o ho]
    have hgone : new.filter (fun o => !inStream stream o) = [] := by
      apply List.filter_eq_nil_iff.mpr
      intro o ho
      simp [inStream, hall o ho]
    rw [hocc, List.filter_append, hold, hgone, List.append_nil]
  have hcount : ∀ id, (db'.deleteOccurrences (inStream stream)).countFor id = db.countFor id := by
    intro id
    rw [countFor, countFor, hrest]
  -- a cluster that was made has rows of the stream only
  have hmade : ∀ m ∈ made, ∀ o ∈ db.occurrences, o.clusterId ≠ m.id := by
    intro m hm o ho hid
    obtain ⟨row, hrow, hrid, -⟩ := hstore.owned o ho
    rw [htable, List.nodup_append] at hids
    exact hids.2.2 _ (List.mem_map_of_mem hrow) _ (List.mem_map_of_mem hm) (hrid.trans hid)
  refine ⟨c, hc, ?_, ?_, ?_, ?_⟩
  · rw [hdb]
    exact hrest
  · have hhit : ∀ id, id ∈ hit (inStream stream) db' ↔ id ∈ clustersIn db' stream := by
      intro id
      rw [mem_hit, mem_clustersIn]
      simp [inStream]
    have hnone : made.filterMap (settleCluster 0 (db'.deleteOccurrences (inStream stream))
        (hit (inStream stream) db')) = [] := by
      apply List.filterMap_eq_nil_iff.mpr
      intro m hm
      obtain ⟨o, ho, hos, hoid⟩ := hsighted m hm
      apply settleCluster_eq_none.mpr
      refine ⟨mem_hit.mpr ⟨o, ho, decide_eq_true hos, hoid⟩, ?_⟩
      rw [hcount]
      apply List.countP_eq_zero.mpr
      intro o' ho'
      simpa using hmade m hm o' ho'
    rw [hdb]
    change (db'.clusters.filterMap (settleCluster now (db'.deleteOccurrences (inStream stream))
      (hit (inStream stream) db'))).map (·.bare) = _
    rw [bare_filterMap, hclusters, List.filterMap_append, hnone, List.append_nil, List.filterMap_map,
      ← List.filterMap_eq_map, List.filterMap_filter]
    apply List.filterMap_congr
    intro row hrow
    have hright : row.sampleCount = (db'.deleteOccurrences (inStream stream)).countFor row.id := by
      rw [hcount]
      exact hstore.counts row hrow not_false
    simp only [Function.comp_apply, settleCluster_of_count hright, hcount, hhit, decide_eq_true_eq]
  · rw [hdeleted, hocc, List.countP_append, hwritten]
    have hold : db.occurrences.countP (inStream stream) = 0 := by
      apply List.countP_eq_zero.mpr
      intro o ho
      simpa [inStream] using hnew o ho
    have hlast : new.countP (inStream stream) = new.length := by
      apply List.countP_eq_length.mpr
      intro o ho
      simpa [inStream] using hall o ho
    rw [hold, hlast, Nat.zero_add]
  · intro id hid
    rw [← htexts] at hid
    obtain ⟨m, hm, hmid⟩ := List.mem_map.mp hid
    cases Uuid.text_injective hmid
    obtain ⟨o, ho, -, hoid⟩ := hsighted m hm
    have hmem : m.id ∈ db'.clusters.map (·.id) := by
      rw [htable]
      exact List.mem_append_right _ (List.mem_map_of_mem hm)
    obtain ⟨row, hrow, hrid⟩ := List.mem_map.mp hmem
    refine ⟨row.ownerId.text, ?_⟩
    rw [hreports, mem_orphaned hids]
    refine ⟨row, hrow, hrid, rfl, ⟨o, ho, hoid⟩, fun o' ho' hid' => ?_⟩
    rw [hocc] at ho'
    rcases List.mem_append.mp ho' with hold | hlast
    · exact absurd hid' (hmade m hm o' hold)
    · exact hall o' hlast

/-- **To process a video and to delete it leaves nothing of it.** All rows are as they
were, in their order, and so are the clusters, with their owners, names and counts, in
their order, but for those without a row that were recognized in the video. The cascade
deletes as many rows as the run wrote, and reports every cluster the run created. -/
theorem run_then_cascade {w w' : World K} {r : RunResult} (hstore : StoreInvariant w.db)
    (hnew : ∀ stream, castUuid args.streamId = .ok stream → ∀ o ∈ w.db.occurrences, o.streamId ≠ stream)
    (h : (run svc args).exec (answer svc.pf oracle) w = (.ok r, w')) (now : ℕ) :
    ∃ stream c, castUuid args.streamId = .ok stream ∧ cascadeStream now w'.db args.streamId = .ok c ∧
      Undone w.db w'.db stream r c := by
  obtain ⟨stream, hstream, hprocessed⟩ := run_processed hstore.ids h
  obtain ⟨c, hc, hundone⟩ := hprocessed.undone hstore (hnew stream hstream) hstream now
  exact ⟨stream, c, hstream, hc, hundone⟩

/-- One person on the first of two frames, in empty tables. -/
theorem run_then_cascade_scene : ∃ c, cascadeStream 9 (sceneAfter [[(1, 0)]]).db sceneArgs.streamId = .ok c ∧
    c.db.occurrences = [] ∧ c.db.clusters.map (·.bare) = [] ∧ c.result.occurrencesDeleted = 1 := by
  have hrun := @scene_run [[(1, 0)]] ⟨1, 2, 0, 0, 1, [(Uuid.fill 3).text], 1⟩ (by decide +kernel)
  obtain ⟨stream, c, -, hc, hundone⟩ := run_then_cascade .empty (fun _ _ _ ho => absurd ho List.not_mem_nil) hrun 9
  exact ⟨c, hc, hundone.occurrences, hundone.clusters, hundone.counted⟩

end FacesService
