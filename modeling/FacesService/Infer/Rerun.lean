import FacesService.Infer.Abort
import FacesService.Infer.Persist
import FacesService.Store.Invariant

/-!
A second run with the same arguments. It sees what the first one saw, but
against the centroids the first one left. So it changes nothing exactly when
its sightings are settled in that state: each goes to a cluster that is there,
has its crop and already has the sighting, and no centroid moves.

Quiet runs are followed in both directions here: what a completed run that left
no trace must have been, and that a quiet run completes.
-/

namespace FacesService

open Prog Fallible Database

variable {K : Type} [Arithmetic K] {svc : Service K} {oracle : Oracle} {pf : Platform K}

/-! ### Stored items -/

/-- The item has its row. -/
def Stored (db : Database K) (streamId : String) (it : Db.Item K) : Prop :=
  ∃ o ∈ db.occurrences, castUuid streamId = .ok o.streamId ∧ castUuid it.clusterId = .ok o.clusterId ∧
    o.tSeconds = it.tSeconds

/-- The insert loop only counts up, and where it counts nothing it does nothing. -/
theorem insertItems_count {now : ℕ} {ownerId streamId : String} {items : List (Db.Item K)}
    {n m : ℕ} {db db' : Database K}
    (h : Db.insertItems pf now ownerId streamId items n db = .ok (m, db')) :
    n ≤ m ∧ (m = n → db' = db ∧ ∀ it ∈ items, Stored db streamId it) := by
  induction items generalizing n db with
  | nil =>
      cases h
      exact ⟨le_refl _, fun _ => ⟨rfl, by simp⟩⟩
  | cons it items ih =>
      obtain ⟨owner, stream, id, k, db₁, -, hstream, hid, hins, hrest⟩ := Db.insertItems_cons h
      obtain ⟨hle, hsame⟩ := ih hrest
      refine ⟨by omega, fun hmn => ?_⟩
      rcases insertOccurrenceIfNew_eq_ok hins with ⟨rfl, rfl, o, ho, hkey⟩ | ⟨rfl, -⟩
      · obtain ⟨rfl, hstored⟩ := hsame hmn
        refine ⟨rfl, fun it' hit' => ?_⟩
        rcases List.mem_cons.mp hit' with rfl | hit'
        · simp only [Occurrence.key, Db.Item.row, Prod.mk.injEq] at hkey
          exact ⟨o, ho, hkey.1 ▸ hstream, hkey.2.1 ▸ hid, hkey.2.2⟩
        · exact hstored it' hit'
      · omega

theorem insertItems_stored {now : ℕ} {ownerId streamId : String} {owner : Uuid}
    (howner : castUuid ownerId = .ok owner) {items : List (Db.Item K)} {db : Database K}
    (h : ∀ it ∈ items, Stored db streamId it) (n : ℕ) :
    Db.insertItems pf now ownerId streamId items n db = .ok (n, db) := by
  induction items generalizing n with
  | nil => rfl
  | cons it items ih =>
      obtain ⟨o, ho, hstream, hid, ht⟩ := h it List.mem_cons_self
      have hany : (db.occurrences.any fun o' =>
          o'.key = (it.row pf now owner o.streamId o.clusterId).key) = true :=
        List.any_eq_true.mpr ⟨o, ho, by simp [Occurrence.key, Db.Item.row, ht]⟩
      have hins : db.insertOccurrenceIfNew (it.row pf now owner o.streamId o.clusterId) =
          .ok (0, db) := if_pos hany
      rw [Db.insertItems, howner, ok_bind, hstream, ok_bind, hid, ok_bind, hins, ok_bind]
      exact ih (fun it' hit' => h it' (List.mem_cons_of_mem _ hit')) n

/-! ### Quiet runs complete -/

/-- What quiet sightings make of the clusters, whatever ids are at hand. -/
theorem Quiet.matching {crops : List (String × String)} {known : List (Known K)}
    {ss : List (Sighting K)} (h : Quiet svc crops known ss) :
    ∃ placed final, (∀ ids n, matching svc ids known n ss = .ok (placed, final)) ∧
      final.map (·.id) = known.map (·.id) := by
  induction ss generalizing known with
  | nil => exact ⟨[], known, fun _ _ => rfl, rfl⟩
  | cons s ss ih =>
      obtain ⟨k, c, hassign, habsorb, -, hrest⟩ := h
      obtain ⟨placed, final, hmatching, hids⟩ := ih hrest
      refine ⟨(c.id, s) :: placed, final, fun ids n => ?_, ?_⟩
      · rw [matching_matched hassign habsorb, hmatching]
        rfl
      · rw [hids, updateKnown_ids]

theorem seeDetection_quiet {ownerId : String} {s : Sighting K} {st : LoopState K} {w : World K}
    {k c : Known K} (hassign : assign svc st.known s.det.embedding = .ok (some k))
    (habsorb : absorb svc.pf k s.det.embedding = .ok c)
    (hcrop : newCrop svc s.img (st.crops.lookup c.id = none) s.det = none) :
    ∃ st', (seeDetection svc ownerId s.img s.time st s.det).exec (answer svc.pf oracle) w =
        (.ok st', w) ∧ st'.known = updateKnown st.known c ∧ st'.crops = st.crops := by
  have hlift₁ : (lift (assign svc st.known s.det.embedding) : Program K _).exec
      (answer svc.pf oracle) w = (.ok (some k), w) := by
    rw [exec_lift, hassign]
  have hlift₂ : (lift (absorb svc.pf k s.det.embedding) : Program K _).exec
      (answer svc.pf oracle) w = (.ok c, w) := by
    rw [exec_lift, habsorb]
  have hplace : (place svc ownerId { st with facesDetected := st.facesDetected + 1 }
      s.det.embedding).exec (answer svc.pf oracle) w = (.ok (c, decide (st.crops.lookup c.id = none),
        { st with facesDetected := st.facesDetected + 1, known := updateKnown st.known c,
                  drift := dictSet st.drift c.id c.centroid }), w) := by
    unfold place
    rw [exec_bind_ok hlift₁]
    dsimp only
    rw [exec_bind_ok hlift₂]
    rfl
  refine ⟨{ st with
    facesDetected := st.facesDetected + 1
    known := updateKnown st.known c
    drift := dictSet st.drift c.id c.centroid
    items := st.items ++ [itemOf svc (c.id, s)] }, ?_, rfl, rfl⟩
  unfold seeDetection
  rw [exec_bind_ok hplace]
  dsimp only
  rw [saveCrop, hcrop]
  rfl

theorem seeAll_quiet {ownerId : String} {ss rest : List (Sighting K)} {st : LoopState K} {w : World K}
    (h : Quiet svc st.crops st.known (ss ++ rest)) :
    ∃ st', (seeAll svc ownerId ss st).exec (answer svc.pf oracle) w = (.ok st', w) ∧
      Quiet svc st'.crops st'.known rest := by
  induction ss generalizing st with
  | nil => exact ⟨st, rfl, h⟩
  | cons s ss ih =>
      obtain ⟨k, c, hassign, habsorb, hcrop, hrest⟩ := h
      obtain ⟨st₁, hexec, hknown, hcrops⟩ := @seeDetection_quiet K _ svc oracle ownerId s st w k c
        hassign habsorb hcrop
      rw [← hknown, ← hcrops] at hrest
      obtain ⟨st', hexec', hquiet⟩ := ih hrest
      refine ⟨st', ?_, hquiet⟩
      rw [seeAll, List.foldlM_cons, exec_bind_ok hexec]
      exact hexec'

/-- A poll that finds the caller there, or none at all. -/
theorem pollCancel_stays {args : RunArgs} {idx done : ℕ} {rest : List ℕ} {w : World K}
    (hevery : args.cancel = true → args.cancelEvery ≠ 0)
    (h : framesRead oracle.gone args done w.polls (idx :: rest) = idx :: rest) :
    ∃ w', (pollCancel args done).exec (answer pf oracle) w = (.ok (), w') ∧
      framesRead oracle.gone args (done + 1) w'.polls rest = rest := by
  unfold framesRead at h
  unfold pollCancel
  split at h
  · rename_i hdue
    split at h
    · cases h
    · rename_i hgone
      rw [if_pos hdue.1, if_neg (hevery hdue.1), if_pos hdue.2, exec_bind_ok (exec_poll w),
        if_neg hgone]
      exact ⟨_, rfl, (List.cons.inj h).2⟩
  · rename_i hdue
    split
    · rename_i hcancel
      rw [if_neg (hevery hcancel), if_neg fun hmod => hdue ⟨hcancel, hmod⟩]
      exact ⟨w, rfl, (List.cons.inj h).2⟩
    · exact ⟨w, rfl, (List.cons.inj h).2⟩

theorem seeFrames_quiet {args : RunArgs} {indices : List ℕ} {done : ℕ} {st : LoopState K}
    {w : World K} (hevery : indices ≠ [] → args.cancel = true → args.cancelEvery ≠ 0)
    (hstays : framesRead oracle.gone args done w.polls indices = indices)
    (hquiet : Quiet svc st.crops st.known (sightings svc w.objects args.framesPrefix indices)) :
    ∃ st' w', (seeFrames svc args indices done st).exec (answer svc.pf oracle) w = (.ok st', w') := by
  induction indices generalizing done st w with
  | nil => exact ⟨st, w, rfl⟩
  | cons idx rest ih =>
      obtain ⟨w₁, hpoll, hrest⟩ := @pollCancel_stays K _ oracle svc.pf args idx done rest w
        (hevery (List.cons_ne_nil _ _)) hstays
      obtain ⟨-, hobj, -⟩ := pollCancel_keeps hpoll
      rw [sightings, List.flatMap_cons, ← sightings, ← hobj] at hquiet
      obtain ⟨skipped, hexec⟩ := @seeFrame_exec K _ svc oracle args idx st w₁
      have hsee := @seeAll_quiet K _ svc oracle args.ownerId
        (frameSightings svc w₁.objects args.framesPrefix idx)
        (sightings svc w₁.objects args.framesPrefix rest) { st with frameSkipped := skipped }
        { w₁ with calls := w₁.calls + 1 } hquiet
      obtain ⟨st₁, hsee, hquiet'⟩ := hsee
      obtain ⟨st', w', hseen⟩ := @ih (done + 1) st₁ { w₁ with calls := w₁.calls + 1 }
        (fun _ => hevery (List.cons_ne_nil _ _)) hrest hquiet'
      refine ⟨st', w', ?_⟩
      unfold seeFrames
      rw [exec_bind_ok hpoll, exec_bind_ok (hexec.trans hsee)]
      exact hseen

theorem writeDrift_returns {ownerId : String} {owner : Uuid} (howner : castUuid ownerId = .ok owner)
    {drift : List (String × List K)} (hids : ∀ e ∈ drift, ∃ id : Uuid, id.text = e.1) (w : World K) :
    ∃ w', (drift.forM fun e => write (.updateClusterCentroid e.1 ownerId e.2)).exec
      (answer pf oracle) w = (.ok (), w') := by
  induction drift generalizing w with
  | nil => exact ⟨w, rfl⟩
  | cons e drift ih =>
      obtain ⟨id, hid⟩ := hids e List.mem_cons_self
      have hrun : ∃ c, (Write.updateClusterCentroid e.1 ownerId e.2).run pf (oracle.fresh w.draws)
          (oracle.clock w.calls) w.db = .ok c := by
        rw [Write.run, Db.updateClusterCentroid, ← hid, Uuid.castUuid_text, ok_bind, howner, ok_bind]
        exact ⟨_, rfl⟩
      obtain ⟨c, hrun⟩ := hrun
      obtain ⟨w₁, hwrite⟩ := exec_write_ok hrun
      obtain ⟨w', hrest⟩ := ih (fun e he => hids e (List.mem_cons_of_mem _ he)) w₁
      refine ⟨w', ?_⟩
      rw [List.forM_eq_forM, List.forM_cons, exec_bind_ok hwrite]
      exact hrest

theorem persist_returns {args : RunArgs} {owner stream : Uuid}
    (howner : castUuid args.ownerId = .ok owner) (hstream : castUuid args.streamId = .ok stream)
    {st : LoopState K} {w : World K} (hids : ∀ e ∈ st.drift, ∃ id : Uuid, id.text = e.1)
    (hstored : ∀ it ∈ st.items, Stored w.db args.streamId it) :
    ∃ n w', (persist args st).exec (answer pf oracle) w = (.ok n, w') := by
  have hrun : ∃ c, (Write.appendStreamOccurrences args.ownerId args.streamId st.items).run pf
      (oracle.fresh w.draws) (oracle.clock w.calls) w.db = .ok c := by
    rw [Write.run, Db.appendStreamOccurrences, insertItems_stored howner hstored, ok_bind]
    dsimp only
    rw [howner, ok_bind, hstream, ok_bind]
    exact ⟨_, rfl⟩
  obtain ⟨c, hrun⟩ := hrun
  obtain ⟨w₁, hwrite⟩ := exec_write_ok hrun
  obtain ⟨w₂, hdrift⟩ := @writeDrift_returns K _ oracle pf _ _ howner _ hids w₁
  refine ⟨c.result, w₂, ?_⟩
  unfold persist
  rw [exec_bind_ok hwrite, exec_bind_ok hdrift]
  rfl

/-! ### Settled sightings -/

/-- The second run finds nothing new: every sighting goes to a cluster that is
there and has its crop, or shows no face to crop (`quiet`); the cluster has an
occurrence in the stream at that time (`stored`); and the embeddings a cluster
takes, merged into its centroid one after the other, give the centroid that is
stored (`fixed`). -/
structure Settled (svc : Service K) (args : RunArgs) (db : Database K) (ss : List (Sighting K)) :
    Prop where
  quiet : Quiet svc (startState db args.ownerId).crops (startState db args.ownerId).known ss
  stored : ∀ placed final,
    matching svc (fun _ => "") (startState db args.ownerId).known 0 ss = .ok (placed, final) →
    ∀ p ∈ placed, Stored db args.streamId (itemOf svc p)
  fixed : ∀ placed final,
    matching svc (fun _ => "") (startState db args.ownerId).known 0 ss = .ok (placed, final) →
    ∀ c ∈ db.clusters, c.id.text ∈ placed.map (·.1) → ∃ k,
      absorbAll svc.pf (Known.ofRow c) (received placed c.id.text) = .ok k ∧
      Db.toListArray svc.pf k.centroid = c.centroid

/-- What a re-run is to leave of a row. -/
def Cluster.shape (c : Cluster K) : Uuid × List K × ℕ × Option String :=
  (c.id, c.centroid, c.sampleCount, c.cropObject)

/-- The same clusters, with the same centroids, counts and crops, and the same
occurrences. -/
def Unchanged (db db' : Database K) : Prop :=
  db'.clusters.map (·.shape) = db.clusters.map (·.shape) ∧ db'.occurrences = db.occurrences

/-- The counts of the clusters of the stream are right. -/
def Counted (owner stream : Uuid) (db : Database K) : Prop :=
  ∀ c ∈ db.clusters, c.ownerId = owner →
    (∃ o ∈ db.occurrences, o.streamId = stream ∧ o.clusterId = c.id) → c.sampleCount = db.countFor c.id

omit [Arithmetic K] in
theorem footprint_congr {db db' : Database K}
    (h : db'.clusters.map (·.cropObject) = db.clusters.map (·.cropObject)) :
    db'.footprint = db.footprint := by
  have hlen := congrArg List.length h
  have hcount := congrArg (List.countP (·.isSome)) h
  rw [List.length_map, List.length_map] at hlen
  rw [List.countP_map, List.countP_map] at hcount
  rw [footprint, footprint, hlen]
  exact congrArg _ hcount

/-- A loop that gets through its frames found the caller there at every poll. -/
theorem seeFrames_stays {args : RunArgs} {indices : List ℕ} {done : ℕ} {st st' : LoopState K}
    {w w' : World K}
    (h : (seeFrames svc args indices done st).exec (answer svc.pf oracle) w = (.ok st', w')) :
    framesRead oracle.gone args done w.polls indices = indices := by
  induction indices generalizing done st w with
  | nil => rfl
  | cons idx rest ih =>
      unfold seeFrames at h
      obtain ⟨⟨⟩, w₁, hpoll, h⟩ := exec_bind_eq_ok.mp h
      obtain ⟨st₁, w₂, hframe, h⟩ := exec_bind_eq_ok.mp h
      obtain ⟨skipped, hexec⟩ := @seeFrame_exec K _ svc oracle args idx st w₁
      rw [hexec] at hframe
      have hpolls := seeAll_polls hframe
      simp only at hpolls
      rw [framesRead_of_ok hpoll, ← hpolls, ih h]

theorem seeFrames_every {args : RunArgs} {indices : List ℕ} {done : ℕ} {st st' : LoopState K}
    {w w' : World K}
    (h : (seeFrames svc args indices done st).exec (answer svc.pf oracle) w = (.ok st', w'))
    (hne : indices ≠ []) (hcancel : args.cancel = true) : args.cancelEvery ≠ 0 := by
  cases indices with
  | nil => exact absurd rfl hne
  | cons idx rest =>
      unfold seeFrames at h
      obtain ⟨⟨⟩, w₁, hpoll, -⟩ := exec_bind_eq_ok.mp h
      intro hzero
      rw [pollCancel, if_pos hcancel, if_pos hzero] at hpoll
      cases hpoll

/-- A completed run: the loop, which followed the matching and was quiet or
left a trace, and the rows after the writes that came after it. -/
structure Completed (svc : Service K) (oracle : Oracle) (args : RunArgs) (r : RunResult)
    (w w' : World K) (owner stream : Uuid) (st : LoopState K) (placed : List (String × Sighting K))
    (w₁ : World K) (db₁ : Database K) : Prop where
  owner_ok : castUuid args.ownerId = .ok owner
  stream_ok : castUuid args.streamId = .ok stream
  stays : framesRead oracle.gone args 0 w.polls (frameIndices args.count args.maxFrames) =
    frameIndices args.count args.maxFrames
  every : frameIndices args.count args.maxFrames ≠ [] → args.cancel = true → args.cancelEvery ≠ 0
  sighted : placed.map (·.2) = runSightings svc args w.objects
  follows : ∃ n, Follows svc oracle owner args.framesPrefix w w₁
    (startState w.db args.ownerId).known st n placed
  created : r.clustersCreated = st.createdIds
  inserted : ∃ now, Db.insertItems svc.pf now args.ownerId args.streamId st.items 0 w₁.db =
    .ok (r.occurrencesWritten, db₁)
  occurrences : w'.db.occurrences = db₁.occurrences
  rows : w'.db.clusters.map (·.untimed) =
    w₁.db.clusters.map (fun c => (persisted svc.pf owner stream db₁ st.drift c).untimed)
  trace : (w₁.db = w.db ∧ w'.objects = w.objects ∧
      Quiet svc (startState w.db args.ownerId).crops (startState w.db args.ownerId).known
        (runSightings svc args w.objects)) ∨
    (w.db.footprint < w'.db.footprint ∧
      ¬ Quiet svc (startState w.db args.ownerId).crops (startState w.db args.ownerId).known
        (runSightings svc args w.objects))

theorem run_completed {args : RunArgs} {r : RunResult} {w w' : World K}
    (hids : (w.db.clusters.map (·.id)).Nodup)
    (h : (run svc args).exec (answer svc.pf oracle) w = (.ok r, w')) :
    ∃ owner stream st placed w₁ db₁,
      Completed svc oracle args r w w' owner stream st placed w₁ db₁ := by
  obtain ⟨owner, st, n, placed, w₁, howner, hframes, hplaced, hf, hpersist, hreport⟩ := run_ok hids h
  obtain ⟨db₁, stream, hstream, hinsert, hocc, hrows, hobjects⟩ :=
    persist_ok howner hf.drift_keys hf.drift_ids hpersist
  have hstays := seeFrames_stays hframes
  refine ⟨owner, stream, st, placed, w₁, db₁, howner, hstream, hstays, seeFrames_every hframes, hplaced, ⟨n, hf⟩,
    congrArg (·.clustersCreated) hreport, ⟨_, hinsert⟩, hocc, hrows, ?_⟩
  have hfootprint : w'.db.footprint = w₁.db.footprint :=
    footprint_congr (persisted_column (·.cropObject) (fun _ => rfl) hrows)
  have htrace := fun hopen => seeFrames_trace howner (by rintro e ⟨⟩) hopen hframes
  rw [hstays] at htrace
  rw [hfootprint, hobjects]
  refine htrace ?_
  obtain ⟨rows, -, hstart, hperm⟩ := startState_rows howner w.db
  rw [hstart]
  exact cropsOpen_start hperm

namespace Completed

variable {args : RunArgs} {r : RunResult} {w w' w₁ : World K} {owner stream : Uuid}
  {st : LoopState K} {placed : List (String × Sighting K)} {db₁ : Database K}

theorem ids_nodup (h : Completed svc oracle args r w w' owner stream st placed w₁ db₁) :
    (w'.db.clusters.map (·.id)).Nodup := by
  obtain ⟨n, hf⟩ := h.follows
  have hids : w'.db.clusters.map (·.id) = w₁.db.clusters.map (·.id) :=
    persisted_column (·.id) (fun _ => rfl) h.rows
  rw [hids]
  exact hf.ids

/-- The append counts every cluster of the stream, those without a new row too. -/
theorem counted (h : Completed svc oracle args r w w' owner stream st placed w₁ db₁) :
    Counted owner stream w'.db := by
  intro c hc howner hsome
  have hmem : c.untimed ∈ w'.db.clusters.map (·.untimed) := List.mem_map_of_mem hc
  rw [h.rows] at hmem
  obtain ⟨c₀, -, heq⟩ := List.mem_map.mp hmem
  have hid : c₀.id = c.id := congrArg (·.id) heq
  have howner₀ : c₀.ownerId = c.ownerId := congrArg (·.ownerId) heq
  have hcount : (recounted owner stream db₁ c₀).sampleCount = c.sampleCount :=
    congrArg (·.sampleCount) heq
  have hcond : (c₀.ownerId = owner && db₁.occurrences.any fun o =>
      o.streamId = stream && o.clusterId = c₀.id) = true := by
    rw [h.occurrences] at hsome
    obtain ⟨o, ho, hos, hoc⟩ := hsome
    simp only [Bool.and_eq_true, decide_eq_true_eq, List.any_eq_true]
    exact ⟨howner₀.trans howner, o, ho, hos, hoc.trans hid.symm⟩
  rw [← hcount, recounted, if_pos hcond, hid, countFor, countFor, h.occurrences]

theorem matching_any (h : Completed svc oracle args r w w' owner stream st placed w₁ db₁)
    (hquiet : Quiet svc (startState w.db args.ownerId).crops (startState w.db args.ownerId).known
      (runSightings svc args w.objects)) (ids : ℕ → String) (n : ℕ) :
    matching svc ids (startState w.db args.ownerId).known n (runSightings svc args w.objects) =
      .ok (placed, st.known) ∧ st.createdIds = [] := by
  obtain ⟨m, hf⟩ := h.follows
  obtain ⟨placed', final, hmatching, hfinal⟩ := hquiet.matching
  have heq := hf.matching_eq
  rw [h.sighted, hmatching, Except.ok.injEq, Prod.mk.injEq] at heq
  obtain ⟨rfl, rfl⟩ := heq
  refine ⟨hmatching ids n, ?_⟩
  have hcreated := hf.created
  rw [hfinal] at hcreated
  exact List.self_eq_append_right.mp hcreated

/-- What a quiet run makes of a row it touched. -/
theorem row_final (h : Completed svc oracle args r w w' owner stream st placed w₁ db₁)
    (hdb : w₁.db = w.db) {c : Cluster K} (hc : c ∈ w.db.clusters)
    (hid : c.id.text ∈ placed.map (·.1)) :
    ∃ k ∈ st.known, k.id = c.id.text ∧
      absorbAll svc.pf (Known.ofRow c) (received placed c.id.text) = .ok k ∧
      driftOf owner st.drift c = some k.centroid := by
  obtain ⟨n, hf⟩ := h.follows
  obtain ⟨p, hp, hpid⟩ := List.mem_map.mp hid
  obtain ⟨k, hk, hkid⟩ := List.mem_map.mp (hf.placed_mem hp)
  obtain ⟨row, hrow, hrid, hro⟩ := hf.rows k hk
  have hsame : row = c := by
    rw [hdb] at hrow
    exact List.inj_on_of_nodup_map (hdb ▸ hf.ids) hrow hc
      (Uuid.text_injective ((hrid.trans hkid).trans hpid))
  subst hsame
  have hstart : Known.ofRow row ∈ (startState w.db args.ownerId).known := by
    obtain ⟨rows, -, hrows, hperm⟩ := startState_rows h.owner_ok w.db
    rw [hrows]
    exact List.mem_map_of_mem (hperm.mem_iff.mpr (List.mem_filter.mpr ⟨hc, by simp [hro]⟩))
  have hmatching := hf.matching_eq
  obtain ⟨k', hk', hid', habs⟩ := matching_known hmatching hf.nodup hstart
  refine ⟨k', hk', hid', habs, ?_⟩
  rw [driftOf, if_pos hro]
  exact lookup_of_mem hf.drift_keys ((hf.mem_drift _ _).mpr ⟨hid, k', hk', hid', rfl⟩)

/-- A completed run that changed nothing was settled. -/
theorem settled (h : Completed svc oracle args r w w' owner stream st placed w₁ db₁)
    (hwritten : r.occurrencesWritten = 0) (hsame : Unchanged w.db w'.db) :
    Settled svc args w.db (runSightings svc args w.objects) := by
  have hfootprint : w'.db.footprint = w.db.footprint := by
    refine footprint_congr ?_
    have hmap := congrArg (List.map (·.2.2.2)) hsame.1
    rwa [List.map_map, List.map_map] at hmap
  rcases h.trace with ⟨hdb, -, hquiet⟩ | ⟨hlt, -⟩
  · have hany := h.matching_any hquiet
    obtain ⟨n, hf⟩ := h.follows
    obtain ⟨now, hinsert⟩ := h.inserted
    rw [hwritten] at hinsert
    obtain ⟨-, hnothing⟩ := insertItems_count hinsert
    obtain ⟨-, hstored⟩ := hnothing rfl
    refine ⟨hquiet, fun placed' final hmatching p hp => ?_, fun placed' final hmatching c hc hid => ?_⟩
    · rw [(hany _ _).1, Except.ok.injEq, Prod.mk.injEq] at hmatching
      rw [← hmatching.1] at hp
      rw [← hdb]
      exact hstored _ (hf.items ▸ List.mem_map_of_mem hp)
    · rw [(hany _ _).1, Except.ok.injEq, Prod.mk.injEq] at hmatching
      rw [← hmatching.1] at hid ⊢
      obtain ⟨k, -, -, habs, hdrift⟩ := h.row_final hdb hc hid
      refine ⟨k, habs, ?_⟩
      have hshapes := persisted_column (·.shape) (fun _ => rfl) h.rows
      rw [hsame.1, hdb] at hshapes
      have hshape := List.map_inj_left.mp hshapes c hc
      have hcentroid : c.centroid = (persisted svc.pf owner stream db₁ st.drift c).centroid :=
        congrArg (·.2.1) hshape
      rw [hcentroid]
      have hdrift' : driftOf owner st.drift (recounted owner stream db₁ c) = some k.centroid := hdrift
      simp [persisted, drifted, hdrift']
  · omega

/-- A completed run that was settled changed nothing. -/
theorem unchanged (h : Completed svc oracle args r w w' owner stream st placed w₁ db₁)
    (hcounted : Counted owner stream w.db)
    (hsettled : Settled svc args w.db (runSightings svc args w.objects)) :
    r.clustersCreated = [] ∧ r.occurrencesWritten = 0 ∧ Unchanged w.db w'.db := by
  rcases h.trace with ⟨hdb, -, hquiet⟩ | ⟨-, hnot⟩
  · have hany := h.matching_any hquiet
    obtain ⟨n, hf⟩ := h.follows
    obtain ⟨now, hinsert⟩ := h.inserted
    have hstored : ∀ it ∈ st.items, Stored w.db args.streamId it := by
      rw [hf.items]
      intro it hit
      obtain ⟨p, hp, rfl⟩ := List.mem_map.mp hit
      exact hsettled.stored _ _ (hany _ _).1 p hp
    rw [hdb, insertItems_stored h.owner_ok hstored, Except.ok.injEq, Prod.mk.injEq] at hinsert
    obtain ⟨hwritten, rfl⟩ := hinsert
    refine ⟨h.created.trans (hany (fun _ => "") 0).2, hwritten.symm, ?_, h.occurrences⟩
    rw [persisted_column (·.shape) (fun _ => rfl) h.rows, hdb]
    refine List.map_congr_left fun c hc => ?_
    have hcount : (persisted svc.pf owner stream w.db st.drift c).sampleCount = c.sampleCount := by
      simp only [persisted, drifted, recounted]
      split
      · rename_i hcond
        simp only [Bool.and_eq_true, decide_eq_true_eq, List.any_eq_true] at hcond
        exact (hcounted c hc hcond.1 hcond.2).symm
      · rfl
    have hcentroid : (persisted svc.pf owner stream w.db st.drift c).centroid = c.centroid := by
      have hdrift : driftOf owner st.drift (recounted owner stream w.db c) =
        driftOf owner st.drift c := rfl
      simp only [persisted, drifted, hdrift]
      by_cases hid : c.id.text ∈ placed.map (·.1)
      · obtain ⟨k, -, -, habs, hk⟩ := h.row_final hdb hc hid
        obtain ⟨k', habs', hfixed⟩ := hsettled.fixed _ _ (hany _ _).1 c hc hid
        rw [habs, Except.ok.injEq] at habs'
        rw [hk, ← hfixed, habs']
        rfl
      · have hnone : driftOf owner st.drift c = none := by
          rw [driftOf]
          split
          · rw [List.lookup_eq_none_iff]
            intro e he
            have hmem := ((hf.mem_drift e.1 e.2).mp he).1
            have hne : c.id.text ≠ e.1 := fun heq => hid (heq ▸ hmem)
            simpa using hne
          · rfl
        rw [hnone]
        rfl
    rw [Cluster.shape, Cluster.shape, hcount, hcentroid]
    rfl
  · exact absurd hsettled.quiet hnot

end Completed

/-- A settled run completes, as long as the caller stays. -/
theorem settled_returns {args : RunArgs} {owner stream : Uuid}
    (howner : castUuid args.ownerId = .ok owner) (hstream : castUuid args.streamId = .ok stream)
    (hevery : frameIndices args.count args.maxFrames ≠ [] → args.cancel = true →
      args.cancelEvery ≠ 0) {w : World K} (hids : (w.db.clusters.map (·.id)).Nodup)
    (hsettled : Settled svc args w.db (runSightings svc args w.objects))
    (hstays : framesRead oracle.gone args 0 w.polls (frameIndices args.count args.maxFrames) =
      frameIndices args.count args.maxFrames) :
    ∃ r w', (run svc args).exec (answer svc.pf oracle) w = (.ok r, w') := by
  obtain ⟨rows, hrows, hstart, hperm⟩ := startState_rows howner w.db
  have hquery : (query (K := K) (.getClustersForOwner args.ownerId)).exec (answer svc.pf oracle) w =
      (.ok rows, { w with calls := w.calls + 1 }) := by
    rw [exec_getClusters, hrows]
  have hquiet := hsettled.quiet
  have hstored := hsettled.stored
  rw [hstart] at hquiet hstored
  obtain ⟨st, w₁, hframes⟩ := @seeFrames_quiet K _ svc oracle args _ 0 (.start rows)
    { w with calls := w.calls + 1 } hevery hstays hquiet
  have hstartf : Follows svc oracle owner args.framesPrefix w { w with calls := w.calls + 1 }
      (LoopState.start rows).known (LoopState.start rows) 0 [] :=
    follows_start hperm hids rfl rfl rfl
  obtain ⟨placed, n, hplaced, hf⟩ := seeFrames_follows howner hstartf hframes
  -- a quiet loop leaves the store as it was, and places as the matching without new ids does
  have htrace := fun hopen => seeFrames_trace howner (by rintro e ⟨⟩) hopen hframes
  have hdb : w₁.db = w.db := by
    rcases htrace (cropsOpen_start hperm) with ⟨hdb, -, -⟩ | ⟨-, hnot⟩
    · exact hdb
    · simp only at hnot
      rw [hstays] at hnot
      exact absurd hquiet hnot
  have hmatching : matching svc (fun _ => "") (LoopState.start rows).known 0
      (runSightings svc args w.objects) = .ok (placed, st.known) := by
    obtain ⟨placed', final, hany, -⟩ := hquiet.matching
    have heq := hf.matching_eq
    rw [List.nil_append, hplaced] at heq
    exact (hany _ _).trans ((hany _ _).symm.trans heq)
  have hitems : ∀ it ∈ st.items, Stored w₁.db args.streamId it := by
    rw [hf.items, hdb]
    intro it hit
    obtain ⟨p, hp, rfl⟩ := List.mem_map.mp hit
    exact hstored _ _ hmatching p hp
  obtain ⟨written, w₂, hpersist⟩ := @persist_returns K _ oracle svc.pf args owner stream howner
    hstream st w₁ hf.drift_ids hitems
  have hrun : ∃ r, (run svc args).exec (answer svc.pf oracle) w = (.ok r, w₂) := by
    unfold run
    rw [exec_bind_ok hquery, exec_bind_ok hframes, exec_bind_ok hpersist]
    exact ⟨_, rfl⟩
  exact hrun.imp fun r hr => ⟨w₂, hr⟩

/-- **Re-runs.** After a completed run, a second one completes with no cluster
created, no occurrence written and everything as the first left it, if and only
if what it sees is settled in the state the first left, and its caller stays. -/
theorem rerun_unchanged_iff_settled {args : RunArgs} {r : RunResult} {w w₁ : World K}
    (hids : (w.db.clusters.map (·.id)).Nodup)
    (h : (run svc args).exec (answer svc.pf oracle) w = (.ok r, w₁)) :
    (∃ r' w₂, (run svc args).exec (answer svc.pf oracle) w₁ = (.ok r', w₂) ∧
        r'.clustersCreated = [] ∧ r'.occurrencesWritten = 0 ∧ Unchanged w₁.db w₂.db) ↔
      Settled svc args w₁.db (runSightings svc args w₁.objects) ∧
        framesRead oracle.gone args 0 w₁.polls (frameIndices args.count args.maxFrames) =
          frameIndices args.count args.maxFrames := by
  obtain ⟨owner, stream, st, placed, wₗ, db₁, hfirst⟩ := run_completed hids h
  constructor
  · rintro ⟨r', w₂, hrun, -, hwritten, hsame⟩
    obtain ⟨_, _, _, _, _, _, hsecond⟩ := run_completed hfirst.ids_nodup hrun
    exact ⟨hsecond.settled hwritten hsame, hsecond.stays⟩
  · rintro ⟨hsettled, hstays⟩
    obtain ⟨r', w₂, hrun⟩ := settled_returns hfirst.owner_ok hfirst.stream_ok hfirst.every
      hfirst.ids_nodup hsettled hstays
    obtain ⟨owner', stream', _, _, _, _, hsecond⟩ := run_completed hfirst.ids_nodup hrun
    have howner : owner' = owner := by
      have heq := hsecond.owner_ok
      rw [hfirst.owner_ok, Except.ok.injEq] at heq
      exact heq.symm
    have hstream : stream' = stream := by
      have heq := hsecond.stream_ok
      rw [hfirst.stream_ok, Except.ok.injEq] at heq
      exact heq.symm
    subst howner hstream
    exact ⟨r', w₂, hrun, hsecond.unchanged hfirst.counted hsettled⟩

/-- A first run that enters one face; in the second the face stays what it is. -/
theorem rerun_unchanged_iff_settled_scene :
    (∃ r' w₂, (run (sceneService [[(1, 0)]]) sceneArgs).exec
        (answer (sceneService [[(1, 0)]]).pf (sceneOracle 9)) (sceneAfter [[(1, 0)]]) = (.ok r', w₂) ∧
        r'.clustersCreated = [] ∧ r'.occurrencesWritten = 0 ∧
        Unchanged (sceneAfter [[(1, 0)]]).db w₂.db) ∧
      Settled (sceneService [[(1, 0)]]) sceneArgs (sceneAfter [[(1, 0)]]).db
          (runSightings (sceneService [[(1, 0)]]) sceneArgs (sceneAfter [[(1, 0)]]).objects) ∧
        framesRead (sceneOracle 9).gone sceneArgs 0 (sceneAfter [[(1, 0)]]).polls
          (frameIndices sceneArgs.count sceneArgs.maxFrames) =
            frameIndices sceneArgs.count sceneArgs.maxFrames := by
  have hiff := @rerun_unchanged_iff_settled ℚ _ (sceneService [[(1, 0)]]) (sceneOracle 9) sceneArgs
    ⟨1, 2, 0, 0, 1, [(Uuid.fill 3).text], 1⟩ sceneWorld (sceneAfter [[(1, 0)]]) (by decide)
    (scene_run (by decide +kernel))
  have hagain : ∃ r' w₂, (run (sceneService [[(1, 0)]]) sceneArgs).exec
      (answer (sceneService [[(1, 0)]]).pf (sceneOracle 9)) (sceneAfter [[(1, 0)]]) = (.ok r', w₂) ∧
      r'.clustersCreated = [] ∧ r'.occurrencesWritten = 0 ∧
      Unchanged (sceneAfter [[(1, 0)]]).db w₂.db :=
    ⟨⟨1, 2, 0, 0, 0, [], 0⟩, _, Prod.ext (by decide +kernel) rfl, rfl, rfl, by decide +kernel,
      by decide +kernel⟩
  exact ⟨hagain, hiff.mp hagain⟩

/-- With two faces of one person, the second run moves the centroid again. -/
theorem rerun_moves_centroid :
    ¬ ∀ (svc : Service ℚ) (oracle : Oracle) (args : RunArgs) (r r' : RunResult) (w w₁ w₂ : World ℚ),
      Reached svc.pf w.db →
      (run svc args).exec (answer svc.pf oracle) w = (.ok r, w₁) →
      (run svc args).exec (answer svc.pf oracle) w₁ = (.ok r', w₂) →
      r'.clustersCreated = [] ∧ r'.occurrencesWritten = 0 ∧ Unchanged w₁.db w₂.db := by
  intro h
  have hsame := h (sceneService [[(1, 0)], [(3 / 5, 4 / 5)]]) (sceneOracle 9) sceneArgs
    ⟨2, 2, 0, 0, 2, [(Uuid.fill 3).text], 1⟩ ⟨2, 2, 0, 0, 0, [], 0⟩ sceneWorld
    (sceneAfter [[(1, 0)], [(3 / 5, 4 / 5)]]) _ .empty (scene_run (by decide +kernel))
    (Prod.ext (by decide +kernel) rfl)
  exact absurd hsame.2.2.1 (by decide +kernel)

end FacesService
