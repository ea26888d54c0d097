import FacesService.Infer.Simulation

/-!
The writes after the loop: one append for all items, and one update of the
centroid for each cluster the run touched. Their effect on the rows is given up
to `updated_at`.
-/

namespace FacesService

open Prog Fallible Database

variable {K : Type} [Arithmetic K] {pf : Platform K} {oracle : Oracle}

/-- A row but for its `updated_at`. -/
def Cluster.untimed (c : Cluster K) : Cluster K := { c with updatedAt := 0 }

/-- The centroid the run leaves a row, if it wrote one. -/
def driftOf (owner : Uuid) (drift : List (String × List K)) (r : Cluster K) : Option (List K) :=
  if r.ownerId = owner then drift.lookup r.id.text else none

def drifted (pf : Platform K) (owner : Uuid) (drift : List (String × List K)) (r : Cluster K) :
    Cluster K :=
  { r with centroid := ((driftOf owner drift r).map (Db.toListArray pf)).getD r.centroid }

omit [Arithmetic K] in
/-- One update more, for an id that comes only once. -/
theorem drifted_cons {owner id : Uuid} {centroid : List K} {drift : List (String × List K)} {now : ℕ}
    (hkey : id.text ∉ drift.map (·.1)) (r : Cluster K) :
    (drifted pf owner drift
        (if r.id = id && r.ownerId = owner then
          { r with centroid := Db.toListArray pf centroid, updatedAt := now } else r)).untimed =
      (drifted pf owner ((id.text, centroid) :: drift) r).untimed := by
  have hnone : drift.lookup id.text = none := by
    rw [List.lookup_eq_none_iff]
    intro e he
    have hne : id.text ≠ e.1 := fun heq => hkey (heq ▸ List.mem_map_of_mem he)
    simpa using hne
  by_cases howner : r.ownerId = owner
  · by_cases hid : r.id = id
    · simp [drifted, driftOf, howner, hid, hnone, Cluster.untimed]
    · have hne : (r.id.text == id.text) = false := by simpa using hid
      simp [drifted, driftOf, howner, hid, List.lookup_cons, hne]
  · simp [drifted, driftOf, howner]

/-- The updates of the centroids, one after the other. -/
theorem writeDrift_ok {ownerId : String} {owner : Uuid} (howner : castUuid ownerId = .ok owner)
    {drift : List (String × List K)} (hkeys : (drift.map (·.1)).Nodup)
    (hids : ∀ e ∈ drift, ∃ id : Uuid, id.text = e.1) {w w' : World K}
    (h : (drift.forM fun e => write (.updateClusterCentroid e.1 ownerId e.2)).exec
      (answer pf oracle) w = (.ok (), w')) :
    w'.db.clusters.map (·.untimed) = w.db.clusters.map (fun r => (drifted pf owner drift r).untimed) ∧
      w'.db.occurrences = w.db.occurrences ∧ w'.objects = w.objects := by
  induction drift generalizing w with
  | nil =>
      cases h
      refine ⟨List.map_congr_left fun r _ => ?_, rfl, rfl⟩
      simp [drifted, driftOf]
  | cons e drift ih =>
      rw [List.forM_eq_forM, List.forM_cons] at h
      obtain ⟨⟨⟩, w₁, hwrite, h⟩ := exec_bind_eq_ok.mp h
      obtain ⟨c, hrun, -, hdb, hobjects, -, -⟩ := write_ok hwrite
      obtain ⟨id, owner', hid, howner', rfl⟩ := Db.updateClusterCentroid_ok hrun
      rw [howner] at howner'
      cases howner'
      obtain ⟨id', hid'⟩ := hids e List.mem_cons_self
      rw [← hid', Uuid.castUuid_text] at hid
      cases hid
      rw [List.map_cons, List.nodup_cons] at hkeys
      obtain ⟨hclusters, hocc, hobj⟩ :=
        ih hkeys.2 (fun e he => hids e (List.mem_cons_of_mem _ he)) h
      refine ⟨?_, ?_, hobj.trans hobjects⟩
      · rw [hclusters, hdb, Database.updateClusters, List.map_map]
        refine List.map_congr_left fun r _ => ?_
        rw [← hid'] at hkeys
        have hstep := @drifted_cons K pf owner id e.2 drift (oracle.clock w.calls) hkeys.1 r
        rw [hid'] at hstep
        exact hstep
      · rw [hocc, hdb]
        rfl

/-- A row of the owner after the append: counted again if it is in the stream. -/
def recounted (owner stream : Uuid) (db : Database K) (r : Cluster K) : Cluster K :=
  { r with sampleCount :=
      if r.ownerId = owner && db.occurrences.any fun o => o.streamId = stream && o.clusterId = r.id
      then db.countFor r.id else r.sampleCount }

/-- What the writes after the loop leave of a row. -/
def persisted (pf : Platform K) (owner stream : Uuid) (db : Database K)
    (drift : List (String × List K)) (r : Cluster K) : Cluster K :=
  drifted pf owner drift (recounted owner stream db r)

theorem persist_ok {args : RunArgs} {owner : Uuid} (howner : castUuid args.ownerId = .ok owner)
    {st : LoopState K} (hkeys : (st.drift.map (·.1)).Nodup)
    (hids : ∀ e ∈ st.drift, ∃ id : Uuid, id.text = e.1) {w w' : World K} {written : ℕ}
    (h : (persist args st).exec (answer pf oracle) w = (.ok written, w')) :
    ∃ db₁ stream, castUuid args.streamId = .ok stream ∧
      Db.insertItems pf (oracle.clock w.calls) args.ownerId args.streamId st.items 0 w.db =
        .ok (written, db₁) ∧
      w'.db.occurrences = db₁.occurrences ∧
      w'.db.clusters.map (·.untimed) =
        w.db.clusters.map (fun r => (persisted pf owner stream db₁ st.drift r).untimed) ∧
      w'.objects = w.objects := by
  unfold persist at h
  obtain ⟨n, w₁, hwrite, h⟩ := exec_bind_eq_ok.mp h
  obtain ⟨⟨⟩, w₂, hdrift, h⟩ := exec_bind_eq_ok.mp h
  cases h
  obtain ⟨c, hrun, rfl, hdb, hobjects, -, -⟩ := write_ok hwrite
  obtain ⟨db₁, owner', stream, hinsert, howner', hstream, -, hcommit⟩ :=
    Db.appendStreamOccurrences_ok hrun
  rw [howner] at howner'
  cases howner'
  obtain ⟨hclusters, hocc, hobjects'⟩ := writeDrift_ok howner hkeys hids hdrift
  refine ⟨db₁, stream, hstream, hinsert, ?_, ?_, hobjects'.trans hobjects⟩
  · rw [hocc, hdb, hcommit]
    rfl
  · rw [hclusters, hdb, hcommit, recount, Database.updateClusters, List.map_map,
      (Db.insertItems_keeps hinsert).1]
    refine List.map_congr_left fun r _ => ?_
    simp only [Function.comp, persisted, recounted]
    split <;> rfl

omit [Arithmetic K] in
/-- The rows after the run, column by column. -/
theorem persisted_column {α : Type} (f : Cluster K → α) (hf : ∀ r : Cluster K, f r.untimed = f r)
    {owner stream : Uuid} {db₁ : Database K} {drift : List (String × List K)}
    {rows rows' : List (Cluster K)}
    (h : rows'.map (·.untimed) = rows.map fun r => (persisted pf owner stream db₁ drift r).untimed) :
    rows'.map f = rows.map fun r => f (persisted pf owner stream db₁ drift r) := by
  have hmap := congrArg (List.map f) h
  rw [List.map_map, List.map_map] at hmap
  refine (List.map_congr_left fun r _ => (hf r).symm).trans (hmap.trans ?_)
  exact List.map_congr_left fun r _ => hf _

/-! ### The run -/

/-- The sightings of a run are those in the frames it samples. -/
def runSightings (svc : Service K) (args : RunArgs) (objects : String → Option Blob) :
    List (Sighting K) :=
  sightings svc objects args.framesPrefix (frameIndices args.count args.maxFrames)

variable {svc : Service K}

/-- A completed run is a loop that follows the matching, and the writes after it. -/
theorem run_ok {args : RunArgs} {r : RunResult} {w w' : World K}
    (hids : (w.db.clusters.map (·.id)).Nodup)
    (h : (run svc args).exec (answer svc.pf oracle) w = (.ok r, w')) :
    ∃ owner st n placed w₁, castUuid args.ownerId = .ok owner ∧
      (seeFrames svc args (frameIndices args.count args.maxFrames) 0
        (startState w.db args.ownerId)).exec (answer svc.pf oracle)
        { w with calls := w.calls + 1 } = (.ok st, w₁) ∧
      placed.map (·.2) = runSightings svc args w.objects ∧
      Follows svc oracle owner args.framesPrefix w w₁ (startState w.db args.ownerId).known st n
        placed ∧
      (persist args st).exec (answer svc.pf oracle) w₁ = (.ok r.occurrencesWritten, w') ∧
      r = {
        facesDetected := st.facesDetected
        framesProcessed := (frameIndices args.count args.maxFrames).length - st.frameSkipped
        framesSkipped := st.frameSkipped
        framesSampledOut := args.count - (frameIndices args.count args.maxFrames).length
        occurrencesWritten := r.occurrencesWritten
        clustersCreated := st.createdIds
        cropsSaved := st.cropsSaved } := by
  unfold run at h
  obtain ⟨rows, w₀, hrows, h⟩ := exec_bind_eq_ok.mp h
  rw [exec_getClusters, Prod.mk.injEq] at hrows
  obtain ⟨hrows, rfl⟩ := hrows
  obtain ⟨st, w₁, hframes, h⟩ := exec_bind_eq_ok.mp h
  obtain ⟨written, w₂, hpersist, h⟩ := exec_bind_eq_ok.mp h
  cases h
  obtain ⟨owner, howner, hperm⟩ := getClustersForOwner_ok hrows
  have hstart : startState w.db args.ownerId = .start rows := by
    rw [startState, hrows]
  rw [hstart]
  have hfollows : Follows svc oracle owner args.framesPrefix w { w with calls := w.calls + 1 }
      (LoopState.start rows).known (LoopState.start rows) 0 [] :=
    follows_start hperm hids rfl rfl rfl
  obtain ⟨placed, n, hplaced, hf⟩ := seeFrames_follows howner hfollows hframes
  exact ⟨owner, st, n, placed, w₁, howner, hframes, hplaced, hf, hpersist, rfl⟩

end FacesService
