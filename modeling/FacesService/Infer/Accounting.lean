import FacesService.Infer.Abort
import FacesService.Infer.Persist
import Mathlib.Data.Finset.Card

/-!
The accounts of a run. Its calls are on record, so the numbers it reports can
be held against what it fetched, polled and appended. The frame loop is
followed twice: once for the record, which does not depend on what the
detections do, and once for the counters.
-/

namespace FacesService

open Prog Fallible Database

variable {K : Type}

/-! ### Reading the record -/

/-- The frames fetched, in order. -/
def framesIn (log : List (Event K)) : List ℕ :=
  log.filterMap fun e => match e.op with
    | .getFrame _ idx => some idx
    | _ => none

/-- The answers of the polls, in order. -/
def pollsIn (log : List (Event K)) : List Bool :=
  log.filterMap fun e => match e with
    | ⟨.poll, .ok gone, _, _⟩ => some gone
    | _ => none

/-- The items of each append, in order. -/
def appendsIn (log : List (Event K)) : List (List (Db.Item K)) :=
  log.filterMap fun e => match e.op with
    | .write (.appendStreamOccurrences _ _ items) => some items
    | _ => none

@[simp] theorem framesIn_append (log log' : List (Event K)) :
    framesIn (log ++ log') = framesIn log ++ framesIn log' := List.filterMap_append

@[simp] theorem pollsIn_append (log log' : List (Event K)) :
    pollsIn (log ++ log') = pollsIn log ++ pollsIn log' := List.filterMap_append

@[simp] theorem appendsIn_append (log log' : List (Event K)) :
    appendsIn (log ++ log') = appendsIn log ++ appendsIn log' := List.filterMap_append

/-- Nothing on record but what detections call. -/
structure Silent (log : List (Event K)) : Prop where
  frames : framesIn log = []
  polls : pollsIn log = []
  appends : appendsIn log = []

theorem silent_of_detections {log : List (Event K)} (h : ∀ e ∈ log, DetectionCall e.op) :
    Silent log := by
  constructor
  all_goals
    refine List.filterMap_eq_nil_iff.mpr fun e he => ?_
    have hop := h e he
    cases e
    cases hop <;> rfl

variable [Arithmetic K] {svc : Service K} {oracle : Oracle} {args : RunArgs}

/-! ### The record of the loop -/

theorem seeAll_silent (ownerId : String) (ss : List (Sighting K)) (st : LoopState K) (w : World K) :
    Silent ((seeAll svc ownerId ss st).steps (answer svc.pf oracle) w) :=
  silent_of_detections (steps_within (seeAll_within trivial ownerId ss st) _ w)

/-- A frame is fetched once, whatever is seen on it. -/
theorem seeFrame_log (idx : ℕ) (st : LoopState K) (w : World K) :
    framesIn ((seeFrame svc args idx st).steps (answer svc.pf oracle) w) = [idx] ∧
      pollsIn ((seeFrame svc args idx st).steps (answer svc.pf oracle) w) = [] ∧
      appendsIn ((seeFrame svc args idx st).steps (answer svc.pf oracle) w) = [] := by
  have hsilent := @seeAll_silent K _ svc oracle args.ownerId
    (frameSightings svc w.objects args.framesPrefix idx)
  rw [seeFrame_steps, framesIn_append, pollsIn_append, appendsIn_append, (hsilent _ _).frames,
    (hsilent _ _).polls, (hsilent _ _).appends, steps_perform]
  exact ⟨rfl, rfl, rfl⟩

/-- A poll the run survives found the caller there. -/
theorem pollCancel_log {done : ℕ} {w w' : World K}
    (h : (pollCancel args done).exec (answer svc.pf oracle) w = (.ok (), w')) :
    framesIn ((pollCancel args done).steps (answer svc.pf oracle) w) = [] ∧
      (∀ gone ∈ pollsIn ((pollCancel args done).steps (answer svc.pf oracle) w), gone = false) ∧
      appendsIn ((pollCancel args done).steps (answer svc.pf oracle) w) = [] := by
  generalize hlog : (pollCancel args done).steps (answer svc.pf oracle) w = log
  have hpolled := hlog ▸ pollCancel_ok h
  cases hpolled with
  | undue hdue => exact ⟨rfl, by simp [pollsIn], rfl⟩
  | there hcancel hdue hgone hw => exact ⟨rfl, by simp [pollsIn], rfl⟩

/-- The poll that ends the run is due, and is the first to find the caller gone. -/
theorem pollCancel_aborted_log {done n : ℕ} {w w' : World K}
    (h : (pollCancel args done).exec (answer svc.pf oracle) w =
      (.error (.inferenceAborted n), w')) :
    n = done ∧ args.cancelEvery ∣ done ∧
      framesIn ((pollCancel args done).steps (answer svc.pf oracle) w) = [] ∧
      pollsIn ((pollCancel args done).steps (answer svc.pf oracle) w) = [true] ∧
      appendsIn ((pollCancel args done).steps (answer svc.pf oracle) w) = [] := by
  rcases pollCancel_error h with ⟨he, -⟩ | ⟨he, -, hdue, -, -, hlog⟩
  · cases he
  · cases he
    rw [hlog]
    exact ⟨rfl, Nat.dvd_of_mod_eq_zero hdue, rfl, rfl, rfl⟩

/-- A loop that gets through has fetched its frames in order. -/
theorem seeFrames_log {indices : List ℕ} {done : ℕ} {st st' : LoopState K} {w w' : World K}
    (h : (seeFrames svc args indices done st).exec (answer svc.pf oracle) w = (.ok st', w')) :
    framesIn ((seeFrames svc args indices done st).steps (answer svc.pf oracle) w) = indices ∧
      appendsIn ((seeFrames svc args indices done st).steps (answer svc.pf oracle) w) = [] := by
  induction indices generalizing done st w with
  | nil => exact ⟨rfl, rfl⟩
  | cons idx rest ih =>
      unfold seeFrames at h ⊢
      obtain ⟨⟨⟩, w₁, hpoll, h⟩ := exec_bind_eq_ok.mp h
      obtain ⟨st₁, w₂, hframe, h⟩ := exec_bind_eq_ok.mp h
      obtain ⟨hframes, -, happends⟩ := pollCancel_log hpoll
      obtain ⟨hframes₁, -, happends₁⟩ := @seeFrame_log K _ svc oracle args idx st w₁
      obtain ⟨hframes₂, happends₂⟩ := ih h
      rw [steps_bind_ok hpoll, steps_bind_ok hframe]
      simp only [framesIn_append, appendsIn_append, hframes, hframes₁, hframes₂, happends,
        happends₁, happends₂]
      exact ⟨rfl, rfl⟩

/-- A loop that is aborted has fetched the frames before the abort, and no poll
before the last found the caller gone. -/
theorem seeFrames_aborted_log {indices : List ℕ} {done n : ℕ} {st : LoopState K} {w w' : World K}
    (h : (seeFrames svc args indices done st).exec (answer svc.pf oracle) w =
      (.error (.inferenceAborted n), w')) :
    args.cancelEvery ∣ n ∧ ∃ k earlier, n = done + k ∧ k < indices.length ∧
      framesIn ((seeFrames svc args indices done st).steps (answer svc.pf oracle) w) =
        indices.take k ∧
      pollsIn ((seeFrames svc args indices done st).steps (answer svc.pf oracle) w) =
        earlier ++ [true] ∧ ∀ gone ∈ earlier, gone = false := by
  induction indices generalizing done st w with
  | nil => cases h
  | cons idx rest ih =>
      unfold seeFrames at h ⊢
      rcases exec_bind_eq_error.mp h with hpoll | ⟨⟨⟩, w₁, hpoll, h⟩
      · obtain ⟨rfl, hdvd, hframes, hpolls, -⟩ := pollCancel_aborted_log hpoll
        rw [steps_bind_error hpoll]
        exact ⟨hdvd, 0, [], rfl, Nat.zero_lt_succ _, hframes, hpolls, by simp⟩
      · rcases exec_bind_eq_error.mp h with hframe | ⟨st₁, w₂, hframe, h⟩
        · exact absurd rfl (seeFrame_notAborted hframe n)
        · obtain ⟨hframes, hpolls, -⟩ := pollCancel_log hpoll
          obtain ⟨hframes₁, hpolls₁, -⟩ := @seeFrame_log K _ svc oracle args idx st w₁
          obtain ⟨hdvd, k, earlier, hn, hk, hframes₂, hpolls₂, hearlier⟩ := ih h
          rw [steps_bind_ok hpoll, steps_bind_ok hframe]
          refine ⟨hdvd, k + 1, pollsIn ((pollCancel args done).steps (answer svc.pf oracle) w) ++
            earlier, by omega, by simpa using hk, ?_, ?_, fun gone hgone => ?_⟩
          · simp only [framesIn_append, hframes, hframes₁, hframes₂]
            rfl
          · simp only [pollsIn_append, hpolls₁, hpolls₂, List.nil_append, List.append_assoc]
          · rcases List.mem_append.mp hgone with hgone | hgone
            · exact hpolls gone hgone
            · exact hearlier gone hgone

/-! ### The counters -/

/-- The faces detected on a frame; on one without a picture there are none. -/
def facesOn (svc : Service K) (objects : String → Option Blob) (pre : String) (idx : ℕ) : ℕ :=
  match decodedFrame svc objects pre idx with
  | none => 0
  | some img => (svc.vision.embed img svc.config.detectThreshold 0 0).length

/-- All sightings of a frame have its time. -/
theorem frameSightings_times (objects : String → Option Blob) (pre : String) (idx : ℕ) :
    (frameSightings svc objects pre idx).map (·.time) =
      List.replicate (facesOn svc objects pre idx) (sampleTime idx) := by
  unfold frameSightings facesOn decodedFrame
  cases objects (frameKey pre idx) with
  | none => rfl
  | some blob =>
      simp only [Option.bind_some]
      cases decodeImg svc.vision blob.data with
      | none => rfl
      | some img => simp only [List.map_map, Function.comp_def, List.map_const']

theorem length_frameSightings (objects : String → Option Blob) (pre : String) (idx : ℕ) :
    (frameSightings svc objects pre idx).length = facesOn svc objects pre idx := by
  have htimes := congrArg List.length (@frameSightings_times K _ svc objects pre idx)
  rwa [List.length_map, List.length_replicate] at htimes

/-- The counters of the loop, and the rows it made. -/
structure Tallies (w₀ w : World K) (st : LoopState K) (faces skipped : ℕ) : Prop where
  detected : st.facesDetected = faces
  skipped : st.frameSkipped = skipped
  table : w.db.clusters.map (·.id.text) = w₀.db.clusters.map (·.id.text) ++ st.createdIds

section Tallies

variable {w₀ w w' : World K} {st st' : LoopState K} {faces skipped : ℕ}

theorem seeDetection_tallies {ownerId : String} {s : Sighting K}
    (ht : Tallies w₀ w st faces skipped)
    (h : (seeDetection svc ownerId s.img s.time st s.det).exec (answer svc.pf oracle) w =
      (.ok st', w')) : Tallies w₀ w' st' (faces + 1) skipped := by
  obtain ⟨c, needCrop, st₁, st₂, w₁, hplaced, hsaved, rfl⟩ := seeDetection_ok h
  have hplace : Tallies w₀ w₁ st₁ (faces + 1) skipped := by
    cases hplaced with
    | matched hassign habsorb => exact ⟨congrArg (· + 1) ht.detected, ht.skipped, ht.table⟩
    | created hassign howner hinsert hobjects hpolls hdraws =>
        refine ⟨congrArg (· + 1) ht.detected, ht.skipped, ?_⟩
        rw [(insertCluster_eq_ok hinsert).2, List.map_append, ht.table, List.append_assoc]
        rfl
  -- a crop changes neither the counters nor the ids of the rows
  cases hsaved with
  | none hcrop => exact ⟨hplace.detected, hplace.skipped, hplace.table⟩
  | some hcrop hid howner hdb hobjects hpolls hdraws =>
      refine ⟨hplace.detected, hplace.skipped, ?_⟩
      have hids : w'.db.clusters.map (·.id) = w₁.db.clusters.map (·.id) := by
        rw [hdb]
        exact updateClusters_ids (by intro r; rfl)
      have htexts := congrArg (List.map Uuid.text) hids
      rw [List.map_map, List.map_map] at htexts
      exact htexts.trans hplace.table

theorem seeAll_tallies {ownerId : String} {ss : List (Sighting K)}
    (ht : Tallies w₀ w st faces skipped)
    (h : (seeAll svc ownerId ss st).exec (answer svc.pf oracle) w = (.ok st', w')) :
    Tallies w₀ w' st' (faces + ss.length) skipped := by
  induction ss generalizing st w faces with
  | nil =>
      cases h
      exact ht
  | cons s ss ih =>
      obtain ⟨st₁, w₁, hsee, hrest⟩ := seeAll_cons_ok h
      have hall := ih (seeDetection_tallies ht hsee) hrest
      rwa [Nat.add_assoc, Nat.add_comm 1] at hall

/-- The counters after the loop are those of the frames as they were before it. -/
theorem seeFrames_tallies {owner : Uuid} {known₀ : List (Known K)} {n : ℕ}
    {placed : List (String × Sighting K)} (howner : castUuid args.ownerId = .ok owner)
    {indices : List ℕ} {done : ℕ}
    (hf : Follows svc oracle owner args.framesPrefix w₀ w known₀ st n placed)
    (ht : Tallies w₀ w st faces skipped)
    (h : (seeFrames svc args indices done st).exec (answer svc.pf oracle) w = (.ok st', w')) :
    Tallies w₀ w' st' (faces + (indices.map (facesOn svc w₀.objects args.framesPrefix)).sum)
      (skipped + indices.countP fun idx =>
        (decodedFrame svc w₀.objects args.framesPrefix idx).isNone) := by
  induction indices generalizing done st w n placed faces skipped with
  | nil =>
      cases h
      exact ht
  | cons idx rest ih =>
      unfold seeFrames at h
      obtain ⟨⟨⟩, w₁, hpoll, h⟩ := exec_bind_eq_ok.mp h
      obtain ⟨st₁, w₂, hframe, h⟩ := exec_bind_eq_ok.mp h
      obtain ⟨hdb, hobj, hdraws⟩ := pollCancel_keeps hpoll
      have hframes := hf.frames idx
      rw [← hobj] at hframes
      have hdecoded : decodedFrame svc w₁.objects args.framesPrefix idx =
          decodedFrame svc w₀.objects args.framesPrefix idx := by
        unfold decodedFrame
        rw [hframes]
      rw [seeFrame_skips, frameSightings_congr hframes, hdecoded] at hframe
      have hf₁ : Follows svc oracle owner args.framesPrefix w₀ { w₁ with calls := w₁.calls + 1 }
          known₀ { st with frameSkipped := st.frameSkipped +
            (decodedFrame svc w₀.objects args.framesPrefix idx).isNone.toNat } n placed :=
        hf.of_eq hdb hobj hdraws rfl rfl rfl rfl
      have ht₁ : Tallies w₀ { w₁ with calls := w₁.calls + 1 } { st with frameSkipped :=
            st.frameSkipped + (decodedFrame svc w₀.objects args.framesPrefix idx).isNone.toNat }
          faces (skipped + (decodedFrame svc w₀.objects args.framesPrefix idx).isNone.toNat) :=
        ⟨ht.detected, congrArg (· + _) ht.skipped, hdb ▸ ht.table⟩
      obtain ⟨more, m, -, hf₂⟩ := seeAll_follows howner hf₁ hframe
      have ht₂ := ih hf₂ (seeAll_tallies ht₁ hframe) h
      rw [length_frameSightings] at ht₂
      rw [List.map_cons, List.sum_cons, List.countP_cons, ← Nat.add_assoc,
        Nat.add_comm (rest.countP _), ← Nat.add_assoc]
      cases hnone : (decodedFrame svc w₀.objects args.framesPrefix idx).isNone <;>
        rw [hnone] at ht₂ <;> exact ht₂

end Tallies

/-! ### The rows written -/

/-- The stream has a row for the cluster at that time. -/
def HasRow (db : Database K) (stream : Uuid) (clusterId : String) (t : K) : Prop :=
  ∃ o ∈ db.occurrences, o.streamId = stream ∧ o.clusterId.text = clusterId ∧ o.tSeconds = t

instance (db : Database K) (stream : Uuid) (clusterId : String) (t : K) :
    Decidable (HasRow db stream clusterId t) :=
  inferInstanceAs (Decidable (∃ o ∈ db.occurrences, _))

/-- The clusters and times that items are for and that have no row yet. -/
def missingRows (db : Database K) (stream : Uuid) (items : List (Db.Item K)) :
    Finset (String × K) :=
  (items.map fun it => (it.clusterId, it.tSeconds)).toFinset.filter fun p =>
    ¬ HasRow db stream p.1 p.2

theorem missingRows_congr {db db' : Database K} (h : db.occurrences = db'.occurrences)
    (stream : Uuid) (items : List (Db.Item K)) :
    missingRows db stream items = missingRows db' stream items := by
  ext p
  rw [missingRows, missingRows, Finset.mem_filter, Finset.mem_filter, HasRow, HasRow, h]

/-- An item that has its row already is written no second time. -/
theorem missingRows_cons_old {db : Database K} {stream : Uuid} {it : Db.Item K}
    {items : List (Db.Item K)} (h : HasRow db stream it.clusterId it.tSeconds) :
    missingRows db stream (it :: items) = missingRows db stream items := by
  unfold missingRows
  rw [List.map_cons, List.toFinset_cons, Finset.filter_insert, if_neg (not_not.mpr h)]

/-- A new row makes one missing pair fewer, for all items after it. -/
theorem missingRows_cons_new {db : Database K} {o : Occurrence K} {it : Db.Item K}
    {items : List (Db.Item K)} (hcluster : o.clusterId.text = it.clusterId)
    (ht : o.tSeconds = it.tSeconds) (h : ¬ HasRow db o.streamId it.clusterId it.tSeconds) :
    (missingRows db o.streamId (it :: items)).card = (missingRows
      { db with occurrences := db.occurrences ++ [o] } o.streamId items).card + 1 := by
  have hrow : ∀ p : String × K,
      HasRow { db with occurrences := db.occurrences ++ [o] } o.streamId p.1 p.2 ↔
        HasRow db o.streamId p.1 p.2 ∨ p = (it.clusterId, it.tSeconds) := by
    intro p
    simp [HasRow, or_and_right, exists_or, hcluster, ht, Prod.ext_iff, eq_comm]
  have hinsert : missingRows db o.streamId (it :: items) = insert (it.clusterId, it.tSeconds)
      (missingRows { db with occurrences := db.occurrences ++ [o] } o.streamId items) := by
    ext p
    simp only [missingRows, List.map_cons, List.toFinset_cons, Finset.mem_filter,
      Finset.mem_insert, hrow, not_or]
    by_cases hp : p = (it.clusterId, it.tSeconds)
    · simp only [hp, true_or, true_and, iff_true]
      exact h
    · simp only [hp, false_or, not_false_eq_true, and_true]
  rw [hinsert, Finset.card_insert_of_notMem]
  intro hmem
  exact (Finset.mem_filter.mp hmem).2 ((hrow _).mpr (.inr rfl))

/-- The count of the insert loop is that of the missing pairs. -/
theorem insertItems_written {now : ℕ} {ownerId streamId : String} {stream : Uuid}
    (hstream : castUuid streamId = .ok stream) {items : List (Db.Item K)} {n m : ℕ}
    {db db' : Database K} (hids : ∀ it ∈ items, ∃ id : Uuid, id.text = it.clusterId)
    (h : Db.insertItems svc.pf now ownerId streamId items n db = .ok (m, db')) :
    m = n + (missingRows db stream items).card := by
  induction items generalizing n db with
  | nil =>
      cases h
      rfl
  | cons it items ih =>
      obtain ⟨owner, stream', id, k, db₁, -, hstream', hid, hins, hrest⟩ := Db.insertItems_cons h
      rw [hstream] at hstream'
      cases hstream'
      obtain ⟨u, hu⟩ := hids it List.mem_cons_self
      rw [← hu, Uuid.castUuid_text] at hid
      cases hid
      have hm := ih (fun it hit => hids it (List.mem_cons_of_mem _ hit)) hrest
      rcases insertOccurrenceIfNew_eq_ok hins with ⟨rfl, rfl, o, ho, hkey⟩ | ⟨rfl, hnew⟩
      · simp only [Occurrence.key, Db.Item.row, Prod.mk.injEq] at hkey
        have hrow : HasRow db₁ stream it.clusterId it.tSeconds :=
          ⟨o, ho, hkey.1, by rw [hkey.2.1, hu], hkey.2.2⟩
        rw [missingRows_cons_old hrow]
        exact hm
      · obtain ⟨hkey, -, rfl⟩ := insertOccurrence_eq_ok hnew
        have hmissing : ¬ HasRow db stream it.clusterId it.tSeconds := by
          rintro ⟨o, ho, hos, hoc, hot⟩
          refine hkey o ho ?_
          rw [← hu] at hoc
          simp only [Occurrence.key, Db.Item.row, hos, Uuid.text_injective hoc, hot]
        have hcard := @missingRows_cons_new K _ db (it.row svc.pf now owner stream id) it items hu
          rfl hmissing
        rw [hm, Nat.add_assoc, Nat.add_comm 1]
        exact congrArg (n + ·) hcard.symm

/-! ### The record of the run -/

/-- The writes after the loop are one append and then only centroids. -/
theorem persist_log {st : LoopState K} {w w' : World K} {n : ℕ}
    (h : (persist args st).exec (answer svc.pf oracle) w = (.ok n, w')) :
    framesIn ((persist args st).steps (answer svc.pf oracle) w) = [] ∧
      appendsIn ((persist args st).steps (answer svc.pf oracle) w) = [st.items] := by
  unfold persist at h ⊢
  obtain ⟨written, w₁, hwrite, h⟩ := exec_bind_eq_ok.mp h
  have hcentroids : ∀ p : Program K ℕ,
      p.Within (fun c => ∃ id v, c = .write (.updateClusterCentroid id args.ownerId v))
        (fun _ => True) →
      framesIn (p.steps (answer svc.pf oracle) w₁) = [] ∧
        appendsIn (p.steps (answer svc.pf oracle) w₁) = [] := by
    intro p hp
    have hops := steps_within hp (answer svc.pf oracle) w₁
    constructor
    all_goals
      refine List.filterMap_eq_nil_iff.mpr fun e he => ?_
      obtain ⟨id, v, hop⟩ := hops e he
      cases e
      cases hop
      rfl
  obtain ⟨hframes, happends⟩ := hcentroids _ (within_bind
    (writeDrift_within (fun id v => ⟨id, v, rfl⟩) st.drift) fun _ => within_pure written)
  rw [steps_bind_ok hwrite, framesIn_append, appendsIn_append, hframes, happends, steps_perform]
  exact ⟨rfl, rfl⟩

/-- A completed run fetches its frames in order and appends its items once. -/
theorem run_log {st : LoopState K} {rows : List (Cluster K)} {w w₁ w' : World K} {n : ℕ}
    (hrows : Db.getClustersForOwner w.db args.ownerId = .ok rows)
    (hframes : (seeFrames svc args (frameIndices args.count args.maxFrames) 0 (.start rows)).exec
      (answer svc.pf oracle) { w with calls := w.calls + 1 } = (.ok st, w₁))
    (hpersist : (persist args st).exec (answer svc.pf oracle) w₁ = (.ok n, w')) :
    framesIn ((run svc args).steps (answer svc.pf oracle) w) =
        frameIndices args.count args.maxFrames ∧
      appendsIn ((run svc args).steps (answer svc.pf oracle) w) = [st.items] := by
  have hquery : (query (K := K) (.getClustersForOwner args.ownerId)).exec (answer svc.pf oracle) w =
      (.ok rows, { w with calls := w.calls + 1 }) := by
    rw [exec_getClusters, hrows]
  obtain ⟨hfetched, hnone⟩ := seeFrames_log hframes
  obtain ⟨hno, happended⟩ := persist_log hpersist
  unfold run
  rw [steps_bind_ok hquery, steps_bind_ok hframes, steps_bind_ok hpersist, steps_perform]
  simp only [framesIn_append, appendsIn_append, hfetched, hnone, hno, happended]
  exact ⟨List.append_nil _, rfl⟩

/-- An aborted run fetches the frames before the abort. -/
theorem run_aborted_log {w w' : World K} {d : ℕ}
    (h : (run svc args).exec (answer svc.pf oracle) w = (.error (.inferenceAborted d), w')) :
    args.cancelEvery ∣ d ∧ ∃ earlier, d < (frameIndices args.count args.maxFrames).length ∧
      framesIn ((run svc args).steps (answer svc.pf oracle) w) =
        (frameIndices args.count args.maxFrames).take d ∧
      pollsIn ((run svc args).steps (answer svc.pf oracle) w) = earlier ++ [true] ∧
      ∀ gone ∈ earlier, gone = false := by
  obtain ⟨rows, hrows, hframes⟩ := run_frames_error h
  have hquery : (query (K := K) (.getClustersForOwner args.ownerId)).exec (answer svc.pf oracle) w =
      (.ok rows, { w with calls := w.calls + 1 }) := by
    rw [exec_getClusters, hrows]
  obtain ⟨hdvd, k, earlier, hk, hlt, hfetched, hpolls, hearlier⟩ := seeFrames_aborted_log hframes
  rw [Nat.zero_add] at hk
  cases hk
  unfold run
  rw [steps_bind_ok hquery, steps_bind_error hframes, steps_perform]
  exact ⟨hdvd, earlier, hlt, hfetched, hpolls, hearlier⟩

/-! ### The accounts -/

/-- The accounts of a completed run, given its record. -/
structure RunAccount (svc : Service K) (args : RunArgs) (w w' : World K) (log : List (Event K))
    (r : RunResult) (owner stream : Uuid) (items : List (Db.Item K)) : Prop where
  frames : framesIn log = frameIndices args.count args.maxFrames
  adds_up : (r.framesProcessed : ℤ) + r.framesSkipped + r.framesSampledOut = args.count
  skipped : r.framesSkipped = (frameIndices args.count args.maxFrames).countP fun idx =>
    (decodedFrame svc w.objects args.framesPrefix idx).isNone
  detected : r.facesDetected =
    ((frameIndices args.count args.maxFrames).map (facesOn svc w.objects args.framesPrefix)).sum
  appended : appendsIn log = [items]
  length_items : items.length = r.facesDetected
  /-- each face of a frame is noted at the middle of its interval -/
  times : items.map (·.tSeconds) = (frameIndices args.count args.maxFrames).flatMap fun idx =>
    List.replicate (facesOn svc w.objects args.framesPrefix idx) (((idx : K) + 1 / 2) * 5)
  owned : ∀ it ∈ items, ∃ c ∈ w'.db.clusters, c.id.text = it.clusterId ∧ c.ownerId = owner
  created_nodup : r.clustersCreated.Nodup
  created_new : ∀ id ∈ r.clustersCreated, id ∉ w.db.clusters.map (·.id.text)
  written : r.occurrencesWritten = (missingRows w.db stream items).card

/-- The accounts of an aborted run. -/
structure AbortAccount (args : RunArgs) (log : List (Event K)) (d : ℕ) : Prop where
  due : args.cancelEvery ∣ d
  early : d < (frameIndices args.count args.maxFrames).length
  frames : framesIn log = (frameIndices args.count args.maxFrames).take d
  polls : ∃ earlier, pollsIn log = earlier ++ [true] ∧ ∀ gone ∈ earlier, gone = false

theorem sightings_times (objects : String → Option Blob) (pre : String) (indices : List ℕ) :
    (sightings svc objects pre indices).map (·.time) = indices.flatMap fun idx =>
      List.replicate (facesOn svc objects pre idx) (((idx : K) + 1 / 2) * 5) := by
  rw [sightings, List.map_flatMap]
  exact List.flatMap_congr fun idx _ => frameSightings_times objects pre idx

/-- **The accounts of a run.** A completed run has read exactly its frames, in
order, and the numbers it reports are those of its record. An aborted run has
read the frames before the abort, and no poll before the last found the caller
gone. -/
theorem run_accounting {w : World K} (hids : (w.db.clusters.map (·.id)).Nodup) :
    (∀ r w', (run svc args).exec (answer svc.pf oracle) w = (.ok r, w') →
      ∃ owner stream items, castUuid args.ownerId = .ok owner ∧
        castUuid args.streamId = .ok stream ∧
        RunAccount svc args w w' ((run svc args).steps (answer svc.pf oracle) w) r owner stream
          items) ∧
    ∀ d w', (run svc args).exec (answer svc.pf oracle) w = (.error (.inferenceAborted d), w') →
      AbortAccount args ((run svc args).steps (answer svc.pf oracle) w) d := by
  refine ⟨fun r w' h => ?_, fun d w' h => ?_⟩
  · obtain ⟨owner, st, n, placed, w₁, howner, hframes, hplaced, hf, hpersist, hreport⟩ :=
      run_ok hids h
    obtain ⟨db₁, stream, hstream, hinsert, -, hrows, -⟩ :=
      persist_ok howner hf.drift_keys hf.drift_ids hpersist
    obtain ⟨rows, hread, hstart, hperm⟩ := startState_rows howner w.db
    have ht₀ : Tallies w { w with calls := w.calls + 1 } (LoopState.start rows) 0 0 :=
      ⟨rfl, rfl, (List.append_nil _).symm⟩
    have hf₀ : Follows svc oracle owner args.framesPrefix w { w with calls := w.calls + 1 }
        (LoopState.start rows).known (LoopState.start rows) 0 [] :=
      follows_start hperm hids rfl rfl rfl
    rw [hstart] at hframes
    have ht := seeFrames_tallies howner hf₀ ht₀ hframes
    rw [Nat.zero_add, Nat.zero_add] at ht
    obtain ⟨hfetched, happended⟩ := run_log hread hframes hpersist
    have htexts : (w₁.db.clusters.map (·.id.text)).Nodup := by
      have hnodup := hf.ids.map Uuid.text_injective
      rwa [List.map_map] at hnodup
    rw [ht.table, List.nodup_append] at htexts
    have hitem : ∀ it ∈ st.items, ∃ c ∈ w₁.db.clusters, c.id.text = it.clusterId ∧
        c.ownerId = owner := by
      intro it hit
      rw [hf.items] at hit
      obtain ⟨p, hp, rfl⟩ := List.mem_map.mp hit
      obtain ⟨k, hk, hid⟩ := List.mem_map.mp (hf.placed_mem hp)
      obtain ⟨c, hc, hcid, hco⟩ := hf.rows k hk
      exact ⟨c, hc, hcid.trans hid, hco⟩
    have htimes : st.items.map (·.tSeconds) = (frameIndices args.count args.maxFrames).flatMap
        fun idx => List.replicate (facesOn svc w.objects args.framesPrefix idx)
          (((idx : K) + 1 / 2) * 5) := by
      rw [← sightings_times, ← runSightings, ← hplaced, hf.items, List.map_map, List.map_map]
      rfl
    refine ⟨owner, stream, st.items, howner, hstream, ?_⟩
    rw [hreport]
    refine ⟨hfetched, ?_, ht.skipped, ht.detected, happended, ?_, htimes, ?_, ?_, ?_, ?_⟩
    · -- the subtraction is no truncation: only frames that were read are skipped
      have hle : st.frameSkipped ≤ (frameIndices args.count args.maxFrames).length :=
        ht.skipped ▸ List.countP_le_length
      dsimp only
      omega
    · have hlength := congrArg List.length htimes
      rw [List.length_map] at hlength
      rw [hlength, ht.detected, List.length_flatMap]
      simp only [List.length_replicate]
    · intro it hit
      obtain ⟨c, hc, hid, hco⟩ := hitem it hit
      have hcolumn : w'.db.clusters.map (fun c => (c.id, c.ownerId)) =
          w₁.db.clusters.map fun c => (c.id, c.ownerId) :=
        persisted_column (fun c => (c.id, c.ownerId)) (fun _ => rfl) hrows
      have hmem : (c.id, c.ownerId) ∈ w'.db.clusters.map fun c => (c.id, c.ownerId) :=
        hcolumn ▸ List.mem_map_of_mem hc
      obtain ⟨c', hc', hsame⟩ := List.mem_map.mp hmem
      rw [Prod.mk.injEq] at hsame
      exact ⟨c', hc', hsame.1 ▸ hid, hsame.2.trans hco⟩
    · exact htexts.2.1
    · exact fun id hid hmem => htexts.2.2 id hmem id hid rfl
    · have hwritten := insertItems_written hstream (fun it hit => by
        obtain ⟨c, -, hid, -⟩ := hitem it hit
        exact ⟨c.id, hid⟩) hinsert
      rw [Nat.zero_add, missingRows_congr hf.occurrences] at hwritten
      exact hwritten
  · obtain ⟨hdvd, earlier, hlt, hfetched, hpolls, hearlier⟩ := run_aborted_log h
    exact ⟨hdvd, hlt, hfetched, earlier, hpolls, hearlier⟩

/-- One person on the first of two frames. -/
theorem run_accounting_scene : ∃ owner stream items,
    castUuid sceneArgs.ownerId = .ok owner ∧ castUuid sceneArgs.streamId = .ok stream ∧
      RunAccount (sceneService [[(1, 0)]]) sceneArgs sceneWorld (sceneAfter [[(1, 0)]])
        ((run (sceneService [[(1, 0)]]) sceneArgs).steps
          (answer (sceneService [[(1, 0)]]).pf (sceneOracle 9)) sceneWorld)
        ⟨1, 2, 0, 0, 1, [(Uuid.fill 3).text], 1⟩ owner stream items :=
  (run_accounting (by decide)).1 _ _ (scene_run (by decide +kernel))

end FacesService
