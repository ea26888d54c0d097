import FacesService.Infer.Matching
import FacesService.Store.Calls

/-!
What the frame loop does to the store, one call at a time: the calls it makes,
one detection, one frame, all frames.
-/

namespace FacesService

open Prog Fallible Database

variable {K : Type}

variable [Arithmetic K] {svc : Service K} {oracle : Oracle} {pf : Platform K}

/-! ### One detection -/

/-- The row of a cluster the run creates. -/
def createdRow (pf : Platform K) (oracle : Oracle) (w : World K) (owner : Uuid) (e : List K) :
    Cluster K :=
  { Cluster.anonymous (oracle.fresh w.draws) owner (Db.toListArray pf (asFloat32 pf e)) 0 with
    createdAt := oracle.clock w.calls, updatedAt := oracle.clock w.calls }

/-- Where a detection went. -/
inductive Placed (svc : Service K) (oracle : Oracle) (ownerId : String) (st : LoopState K)
    (e : List K) (w : World K) : Known K × Bool × LoopState K → World K → Prop
  | matched {k c : Known K} (hassign : assign svc st.known e = .ok (some k))
      (habsorb : absorb svc.pf k e = .ok c) :
      Placed svc oracle ownerId st e w
        (c, decide (st.crops.lookup c.id = none), { st with
          known := updateKnown st.known c, drift := dictSet st.drift c.id c.centroid }) w
  | created {owner : Uuid} {w' : World K} (hassign : assign svc st.known e = .ok none)
      (howner : castUuid ownerId = .ok owner)
      (hinsert : w.db.insertCluster (createdRow svc.pf oracle w owner e) = .ok w'.db)
      (hobjects : w'.objects = w.objects) (hpolls : w'.polls = w.polls)
      (hdraws : w'.draws = w.draws + 1) :
      Placed svc oracle ownerId st e w
        (Known.created svc.pf (oracle.fresh w.draws).text e, true, { st with
          known := st.known ++ [Known.created svc.pf (oracle.fresh w.draws).text e]
          drift := dictSet st.drift (oracle.fresh w.draws).text (asFloat32 svc.pf e)
          createdIds := st.createdIds ++ [(oracle.fresh w.draws).text] }) w'

theorem place_ok {ownerId : String} {st : LoopState K} {e : List K} {w w' : World K}
    {r : Known K × Bool × LoopState K}
    (h : (place svc ownerId st e).exec (answer svc.pf oracle) w = (.ok r, w')) :
    Placed svc oracle ownerId st e w r w' := by
  unfold place at h
  obtain ⟨best, w₁, hbest, h⟩ := exec_bind_eq_ok.mp h
  rw [exec_lift, Prod.mk.injEq] at hbest
  obtain ⟨hassign, rfl⟩ := hbest
  cases best with
  | none =>
      obtain ⟨newId, w₂, hwrite, h⟩ := exec_bind_eq_ok.mp h
      obtain ⟨c, hrun, rfl, hdb, hobjects, hpolls, hdraws⟩ := write_ok hwrite
      obtain ⟨owner, howner, hresult, -, hinsert⟩ := Db.upsertCluster_ok hrun
      rw [exec_pure, Prod.mk.injEq, Except.ok.injEq] at h
      obtain ⟨rfl, rfl⟩ := h
      rw [hresult]
      refine .created hassign howner ?_ hobjects hpolls hdraws
      rw [hdb]
      exact hinsert
  | some k =>
      obtain ⟨c, w₂, habsorb, h⟩ := exec_bind_eq_ok.mp h
      rw [exec_lift, Prod.mk.injEq] at habsorb
      obtain ⟨habsorb, rfl⟩ := habsorb
      rw [exec_pure, Prod.mk.injEq, Except.ok.injEq] at h
      obtain ⟨rfl, rfl⟩ := h
      exact .matched hassign habsorb

/-- What became of the crop. -/
inductive CropSaved (svc : Service K) (oracle : Oracle) (ownerId : String) (img : Image)
    (det : Detection K) (c : Known K) (needCrop : Bool) (st : LoopState K) (w : World K) :
    LoopState K → World K → Prop
  | none (hcrop : newCrop svc img needCrop det = none) :
      CropSaved svc oracle ownerId img det c needCrop st w st w
  | some {jpeg : Bytes} {id owner : Uuid} {w' : World K}
      (hcrop : newCrop svc img needCrop det = some jpeg) (hid : castUuid c.id = .ok id)
      (howner : castUuid ownerId = .ok owner)
      (hdb : w'.db = w.db.updateClusters (fun r => r.id = id && r.ownerId = owner) fun r =>
        { r with cropObject := Option.some (cropKey ownerId c.id)
                 updatedAt := oracle.clock (w.calls + 1) })
      (hobjects : w'.objects = Function.update w.objects (cropKey ownerId c.id)
        (Option.some ⟨jpeg, "image/jpeg"⟩))
      (hpolls : w'.polls = w.polls) (hdraws : w'.draws = w.draws) :
      CropSaved svc oracle ownerId img det c needCrop st w
        { st with crops := dictSet st.crops c.id (cropKey ownerId c.id)
                  cropsSaved := st.cropsSaved + 1 } w'

theorem saveCrop_ok {ownerId : String} {img : Image} {det : Detection K} {c : Known K}
    {needCrop : Bool} {st st' : LoopState K} {w w' : World K}
    (h : (saveCrop svc ownerId img det c needCrop st).exec (answer svc.pf oracle) w = (.ok st', w')) :
    CropSaved svc oracle ownerId img det c needCrop st w st' w' := by
  unfold saveCrop at h
  split at h
  · rename_i hcrop
    rw [exec_pure, Prod.mk.injEq, Except.ok.injEq] at h
    obtain ⟨rfl, rfl⟩ := h
    exact .none hcrop
  · rename_i jpeg hcrop
    obtain ⟨key, w₁, hput, h⟩ := exec_bind_eq_ok.mp h
    cases hput
    obtain ⟨u, w₂, hwrite, h⟩ := exec_bind_eq_ok.mp h
    rw [exec_pure, Prod.mk.injEq, Except.ok.injEq] at h
    obtain ⟨rfl, rfl⟩ := h
    obtain ⟨commit, hrun, -, hdb, hobjects, hpolls, hdraws⟩ := write_ok hwrite
    obtain ⟨id, owner, hid, howner, rfl⟩ := Db.setClusterCrop_ok hrun
    exact .some hcrop hid howner hdb hobjects hpolls hdraws

/-- One detection: placed, its crop saved, and its item noted. -/
theorem seeDetection_ok {ownerId : String} {s : Sighting K} {st st' : LoopState K} {w w' : World K}
    (h : (seeDetection svc ownerId s.img s.time st s.det).exec (answer svc.pf oracle) w =
      (.ok st', w')) :
    ∃ c needCrop st₁ st₂ w₁,
      Placed svc oracle ownerId { st with facesDetected := st.facesDetected + 1 } s.det.embedding w
        (c, needCrop, st₁) w₁ ∧
      CropSaved svc oracle ownerId s.img s.det c needCrop st₁ w₁ st₂ w' ∧
      st' = { st₂ with items := st₂.items ++
        [⟨c.id, asFloat32 svc.pf s.det.embedding, s.time, s.det.confidence⟩] } := by
  unfold seeDetection at h
  obtain ⟨⟨c, needCrop, st₁⟩, w₁, hplace, h⟩ := exec_bind_eq_ok.mp h
  obtain ⟨st₂, w₂, hsave, h⟩ := exec_bind_eq_ok.mp h
  rw [exec_pure, Prod.mk.injEq, Except.ok.injEq] at h
  obtain ⟨rfl, rfl⟩ := h
  exact ⟨c, needCrop, st₁, st₂, w₁, place_ok hplace, saveCrop_ok hsave, rfl⟩

/-! ### One frame -/

/-- The loop over sightings that were read beforehand. -/
def seeAll (svc : Service K) (ownerId : String) (ss : List (Sighting K)) (st : LoopState K) :
    Program K (LoopState K) :=
  ss.foldlM (fun st s => seeDetection svc ownerId s.img s.time st s.det) st

theorem exec_getFrame (pre : String) (idx : ℕ) (w : World K) :
    (call (K := K) (.getFrame pre idx)).exec (answer pf oracle) w =
      (.ok ((w.objects (frameKey pre idx)).map (·.data)), { w with calls := w.calls + 1 }) := by
  rw [exec_perform]
  rfl

/-- A fetched frame is its sightings; a frame without a picture is skipped. -/
theorem seeFrame_eq (svc : Service K) (args : RunArgs) (idx : ℕ) (st : LoopState K) (w : World K) :
    ∃ f, seeFrame svc args idx st = (call (.getFrame args.framesPrefix idx) >>= f) ∧
      f ((w.objects (frameKey args.framesPrefix idx)).map (·.data)) =
        seeAll svc args.ownerId (frameSightings svc w.objects args.framesPrefix idx)
          { st with frameSkipped := st.frameSkipped +
              (decodedFrame svc w.objects args.framesPrefix idx).isNone.toNat } := by
  refine ⟨_, rfl, ?_⟩
  unfold frameSightings decodedFrame
  cases w.objects (frameKey args.framesPrefix idx) with
  | none => rfl
  | some blob =>
      simp only [Option.map_some, Option.bind_some]
      cases decodeImg svc.vision blob.data with
      | none => rfl
      | some img => simp only [seeAll, List.foldlM_map, Option.isNone_some, Bool.toNat_false, Nat.add_zero]

theorem seeFrame_skips (args : RunArgs) (idx : ℕ) (st : LoopState K) (w : World K) :
    (seeFrame svc args idx st).exec (answer svc.pf oracle) w =
      (seeAll svc args.ownerId (frameSightings svc w.objects args.framesPrefix idx)
        { st with frameSkipped := st.frameSkipped +
            (decodedFrame svc w.objects args.framesPrefix idx).isNone.toNat }).exec
        (answer svc.pf oracle) { w with calls := w.calls + 1 } := by
  obtain ⟨f, hframe, hrest⟩ := seeFrame_eq svc args idx st w
  rw [hframe, exec_bind_ok (exec_getFrame _ idx w), hrest]

/-- Its calls are the fetch and those for its sightings. -/
theorem seeFrame_steps (args : RunArgs) (idx : ℕ) (st : LoopState K) (w : World K) :
    (seeFrame svc args idx st).steps (answer svc.pf oracle) w =
      (call (K := K) (.getFrame args.framesPrefix idx)).steps (answer svc.pf oracle) w ++
      (seeAll svc args.ownerId (frameSightings svc w.objects args.framesPrefix idx)
        { st with frameSkipped := st.frameSkipped +
            (decodedFrame svc w.objects args.framesPrefix idx).isNone.toNat }).steps
        (answer svc.pf oracle) { w with calls := w.calls + 1 } := by
  obtain ⟨f, hframe, hrest⟩ := seeFrame_eq svc args idx st w
  rw [hframe, steps_bind_ok (exec_getFrame _ idx w), hrest]

theorem seeFrame_exec (args : RunArgs) (idx : ℕ) (st : LoopState K) (w : World K) :
    ∃ n, (seeFrame svc args idx st).exec (answer svc.pf oracle) w =
      (seeAll svc args.ownerId (frameSightings svc w.objects args.framesPrefix idx)
        { st with frameSkipped := n }).exec (answer svc.pf oracle)
        { w with calls := w.calls + 1 } :=
  ⟨_, seeFrame_skips args idx st w⟩

theorem seeAll_cons_ok {ownerId : String} {s : Sighting K} {ss : List (Sighting K)}
    {st st' : LoopState K} {w w' : World K}
    (h : (seeAll svc ownerId (s :: ss) st).exec (answer svc.pf oracle) w = (.ok st', w')) :
    ∃ st₁ w₁, (seeDetection svc ownerId s.img s.time st s.det).exec (answer svc.pf oracle) w =
        (.ok st₁, w₁) ∧
      (seeAll svc ownerId ss st₁).exec (answer svc.pf oracle) w₁ = (.ok st', w') := by
  rw [seeAll, List.foldlM_cons] at h
  exact exec_bind_eq_ok.mp h

theorem seeDetection_polls {ownerId : String} {s : Sighting K} {st st' : LoopState K}
    {w w' : World K}
    (h : (seeDetection svc ownerId s.img s.time st s.det).exec (answer svc.pf oracle) w =
      (.ok st', w')) : w'.polls = w.polls := by
  obtain ⟨c, needCrop, st₁, st₂, w₁, hplaced, hsaved, -⟩ := seeDetection_ok h
  have h₁ : w₁.polls = w.polls := by
    cases hplaced with
    | matched hassign habsorb => rfl
    | created hassign howner hinsert hobjects hpolls hdraws => exact hpolls
  have h₂ : w'.polls = w₁.polls := by
    cases hsaved with
    | none hcrop => rfl
    | some hcrop hid howner hdb hobjects hpolls hdraws => exact hpolls
  exact h₂.trans h₁

theorem seeAll_polls {ownerId : String} {ss : List (Sighting K)} {st st' : LoopState K}
    {w w' : World K}
    (h : (seeAll svc ownerId ss st).exec (answer svc.pf oracle) w = (.ok st', w')) :
    w'.polls = w.polls := by
  induction ss generalizing st w with
  | nil =>
      cases h
      rfl
  | cons s ss ih =>
      obtain ⟨st₁, w₁, hsee, hrest⟩ := seeAll_cons_ok h
      exact (ih hrest).trans (seeDetection_polls hsee)

theorem exec_poll (w : World K) : (call (K := K) .poll).exec (answer pf oracle) w =
    (.ok (oracle.gone w.polls), { w with calls := w.calls + 1, polls := w.polls + 1 }) := by
  rw [exec_perform]
  rfl

/-- A poll the run survives was not due, or found the caller there; its log is
empty or the one poll. -/
inductive Polled (oracle : Oracle) (args : RunArgs) (done : ℕ) (w : World K) :
    List (Event K) → World K → Prop
  | undue (hdue : ¬ (args.cancel = true ∧ done % args.cancelEvery = 0)) : Polled oracle args done w [] w
  | there (hcancel : args.cancel = true) (hdue : done % args.cancelEvery = 0)
      (hgone : oracle.gone w.polls = false) {w' : World K}
      (hw : w' = { w with calls := w.calls + 1, polls := w.polls + 1 }) :
      Polled oracle args done w [⟨.poll, .ok false, w, w'⟩] w'

theorem pollCancel_ok {args : RunArgs} {done : ℕ} {w w' : World K}
    (h : (pollCancel args done).exec (answer pf oracle) w = (.ok (), w')) :
    Polled oracle args done w ((pollCancel args done).steps (answer pf oracle) w) w' := by
  unfold pollCancel at h ⊢
  by_cases hcancel : args.cancel = true
  · rw [if_pos hcancel] at h ⊢
    by_cases hzero : args.cancelEvery = 0
    · rw [if_pos hzero] at h
      cases h
    · rw [if_neg hzero] at h ⊢
      by_cases hdue : done % args.cancelEvery = 0
      · rw [if_pos hdue] at h ⊢
        rw [exec_bind_ok (exec_poll w)] at h
        rw [steps_bind_ok (exec_poll w), steps_perform]
        cases hgone : oracle.gone w.polls with
        | true =>
            rw [hgone] at h
            cases h
        | false =>
            rw [hgone] at h
            cases h
            have hanswer : answer pf oracle .poll w =
                (.ok false, { w with calls := w.calls + 1, polls := w.polls + 1 }) := by
              rw [← hgone]
              rfl
            rw [hanswer]
            exact .there hcancel hdue hgone rfl
      · rw [if_neg hdue] at h ⊢
        cases h
        exact .undue fun hboth => hdue hboth.2
  · rw [if_neg hcancel] at h ⊢
    cases h
    exact .undue fun hboth => hcancel hboth.1

/-- A poll that ends the run has nothing to divide by, or finds the caller gone. -/
theorem pollCancel_error {args : RunArgs} {done : ℕ} {w w' : World K} {e : PyError}
    (h : (pollCancel args done).exec (answer pf oracle) w = (.error e, w')) :
    (e = .zeroDivision ∧ w' = w) ∨
      (e = .inferenceAborted done ∧ args.cancel = true ∧ done % args.cancelEvery = 0 ∧
        oracle.gone w.polls = true ∧ w' = { w with calls := w.calls + 1, polls := w.polls + 1 } ∧
        (pollCancel args done).steps (answer pf oracle) w = [⟨.poll, .ok true, w, w'⟩]) := by
  unfold pollCancel at h ⊢
  by_cases hcancel : args.cancel = true
  · rw [if_pos hcancel] at h ⊢
    by_cases hzero : args.cancelEvery = 0
    · rw [if_pos hzero] at h
      cases h
      exact .inl ⟨rfl, rfl⟩
    · rw [if_neg hzero] at h ⊢
      by_cases hdue : done % args.cancelEvery = 0
      · rw [if_pos hdue] at h ⊢
        rw [exec_bind_ok (exec_poll w)] at h
        cases hgone : oracle.gone w.polls with
        | true =>
            rw [hgone] at h
            cases h
            have hanswer : answer pf oracle .poll w =
                (.ok true, { w with calls := w.calls + 1, polls := w.polls + 1 }) := by
              rw [← hgone]
              rfl
            refine .inr ⟨rfl, hcancel, hdue, rfl, rfl, ?_⟩
            rw [steps_bind_ok (exec_poll w), steps_perform, hanswer, hgone]
            rfl
        | false =>
            rw [hgone] at h
            cases h
      · rw [if_neg hdue] at h
        cases h
  · rw [if_neg hcancel] at h
    cases h

/-- A poll changes nothing but the counters. -/
theorem pollCancel_keeps {args : RunArgs} {done : ℕ} {w w' : World K} {r : Except PyError Unit}
    (h : (pollCancel args done).exec (answer pf oracle) w = (r, w')) :
    w'.db = w.db ∧ w'.objects = w.objects ∧ w'.draws = w.draws := by
  cases r with
  | error e =>
      rcases pollCancel_error h with ⟨-, rfl⟩ | ⟨-, -, -, -, rfl, -⟩
      · exact ⟨rfl, rfl, rfl⟩
      · exact ⟨rfl, rfl, rfl⟩
  | ok a =>
      generalize hlog : (pollCancel args done).steps (answer pf oracle) w = log
      have hpolled := hlog ▸ pollCancel_ok h
      cases hpolled with
      | undue hdue => exact ⟨rfl, rfl, rfl⟩
      | there hcancel hdue hgone hw =>
          subst hw
          exact ⟨rfl, rfl, rfl⟩

/-! ### The calls of the loop -/

/-- What is called for one detection. -/
inductive DetectionCall : Call K → Prop
  | upsert (ownerId : String) (centroid : List K) :
      DetectionCall (.write (.upsertCluster ownerId none false centroid))
  | setCrop (clusterId ownerId key : String) :
      DetectionCall (.write (.setClusterCrop clusterId ownerId (some key)))
  | putCrop (ownerId clusterId : String) (data : Bytes) :
      DetectionCall (.putCrop ownerId clusterId data)

/-- What the frame loop calls; its writes only insert clusters and set crops. -/
inductive LoopCall : Call K → Prop
  | upsert (ownerId : String) (centroid : List K) :
      LoopCall (.write (.upsertCluster ownerId none false centroid))
  | setCrop (clusterId ownerId key : String) :
      LoopCall (.write (.setClusterCrop clusterId ownerId (some key)))
  | getFrame (pre : String) (index : ℕ) : LoopCall (.getFrame pre index)
  | putCrop (ownerId clusterId : String) (data : Bytes) : LoopCall (.putCrop ownerId clusterId data)
  | poll : LoopCall .poll

omit [Arithmetic K] in
theorem DetectionCall.inLoop {c : Call K} (h : DetectionCall c) : LoopCall c := by
  cases h with
  | upsert ownerId centroid => exact .upsert _ _
  | setCrop clusterId ownerId key => exact .setCrop _ _ _
  | putCrop ownerId clusterId data => exact .putCrop _ _ _

/-- No error of the loop's own is an abort. -/
def NotAborted (e : PyError) : Prop := ∀ n, e ≠ .inferenceAborted n

theorem cosineSimilarity_error {a b : List K} {e : PyError}
    (h : cosineSimilarity pf a b = .error e) : e = .valueError := by
  simp only [cosineSimilarity] at h
  split at h
  · cases h
  · split at h
    · cases h
      rfl
    · cases h

theorem assign_error {known : List (Known K)} {x : List K} {e : PyError}
    (h : assign svc known x = .error e) : e = .valueError := by
  unfold assign at h
  rcases bind_eq_error.mp h with h | ⟨⟨best, sim⟩, -, h⟩
  · refine foldlM_error (E := (· = .valueError)) (fun b c e h => ?_) h
    unfold matchStep at h
    rcases bind_eq_error.mp h with h | ⟨sim, -, h⟩
    · exact cosineSimilarity_error h
    · simp only at h
      split at h <;> split at h <;> cases h
  · cases best <;> cases h

theorem absorb_error {k : Known K} {x : List K} {e : PyError} (h : absorb pf k x = .error e) :
    e = .valueError := by
  unfold absorb mergeCentroid at h
  rcases bind_eq_error.mp h with h | ⟨merged, -, h⟩
  · split at h
    · cases h
    · rcases bind_eq_error.mp h with h | ⟨sum, -, h⟩
      · unfold addArrays at h
        split at h
        · cases h
        · split at h <;> cases h
          rfl
      · cases h
  · cases h

/-- What the loop's own calls raise. -/
theorem loopCall_error {c : Call K} {w : World K} {e : PyError} (hc : LoopCall c)
    (h : (answer pf oracle c w).1 = .error e) : NotAborted e := by
  have hwrite : ∀ wr : Write K, (answer pf oracle (.write wr) w).1 = .error e →
      wr.run pf (oracle.fresh w.draws) (oracle.clock w.calls) w.db = .error e := fun wr h =>
    @write_error K _ oracle pf wr e w (answer pf oracle (.write wr) w).2 (by rw [exec_perform, ← h])
  have huuid : ∀ {s : String}, castUuid s = .error e → NotAborted e := fun h => by
    rw [castUuid_error h]
    simp [NotAborted]
  cases hc with
  | getFrame pre index => cases h
  | putCrop ownerId clusterId data => cases h
  | poll => cases h
  | upsert ownerId centroid =>
      rcases bind_eq_error.mp (hwrite _ h) with hrun | ⟨owner, -, hrun⟩
      · exact huuid hrun
      · rcases bind_eq_error.mp hrun with hrun | ⟨db, -, hrun⟩
        · unfold insertCluster at hrun
          split at hrun <;> cases hrun
          simp [NotAborted]
        · cases hrun
  | setCrop clusterId ownerId key =>
      rcases bind_eq_error.mp (hwrite _ h) with hrun | ⟨id, -, hrun⟩
      · exact huuid hrun
      · rcases bind_eq_error.mp hrun with hrun | ⟨owner, -, hrun⟩
        · exact huuid hrun
        · cases hrun

section Within

variable {E : PyError → Prop}

theorem place_within_of {P : Call K → Prop} (hvalue : E .valueError) {ownerId : String}
    (hupsert : ∀ centroid, P (.write (.upsertCluster ownerId none false centroid)))
    (st : LoopState K) (x : List K) : (place svc ownerId st x).Within P E := by
  unfold place
  refine within_bind (within_lift fun e he => assign_error he ▸ hvalue) fun best => ?_
  cases best with
  | none => exact within_bind (within_perform (hupsert _)) fun id => within_pure _
  | some k =>
      exact within_bind (within_lift fun e he => absorb_error he ▸ hvalue) fun c => within_pure _

theorem place_within (hvalue : E .valueError) (ownerId : String) (st : LoopState K) (x : List K) :
    (place svc ownerId st x).Within DetectionCall E :=
  place_within_of hvalue (.upsert _) st x

theorem saveCrop_within (ownerId : String) (img : Image) (det : Detection K) (c : Known K)
    (needCrop : Bool) (st : LoopState K) :
    (saveCrop svc ownerId img det c needCrop st).Within DetectionCall E := by
  unfold saveCrop
  split
  · exact within_pure _
  · exact within_bind (within_perform (.putCrop _ _ _)) fun key =>
      within_bind (within_perform (.setCrop _ _ _)) fun _ => within_pure _

theorem seeDetection_within (hvalue : E .valueError) (ownerId : String) (img : Image) (t : K)
    (st : LoopState K) (det : Detection K) :
    (seeDetection svc ownerId img t st det).Within DetectionCall E := by
  unfold seeDetection
  refine within_bind (place_within hvalue _ _ _) ?_
  rintro ⟨c, needCrop, st₁⟩
  exact within_bind (saveCrop_within _ _ _ _ _ _) fun st₂ => within_pure _

theorem seeAll_within (hvalue : E .valueError) (ownerId : String) (ss : List (Sighting K))
    (st : LoopState K) : (seeAll svc ownerId ss st).Within DetectionCall E := by
  unfold seeAll
  apply within_foldlM
  intro st s _
  exact seeDetection_within hvalue ownerId s.img s.time st s.det

theorem seeFrame_within (hvalue : E .valueError) (args : RunArgs) (idx : ℕ) (st : LoopState K) :
    (seeFrame svc args idx st).Within LoopCall E := by
  unfold seeFrame
  refine within_bind (within_perform (.getFrame _ _)) fun raw => ?_
  cases raw with
  | none => exact within_pure _
  | some raw =>
      dsimp only
      split
      · exact within_pure _
      · apply within_foldlM
        intro st det _
        exact (seeDetection_within hvalue _ _ _ st det).mono fun _ h => h.inLoop

end Within

/-- A frame on its own does not abort the run. -/
theorem seeFrame_notAborted {args : RunArgs} {idx : ℕ} {st : LoopState K} {w w' : World K}
    {e : PyError}
    (h : (seeFrame svc args idx st).exec (answer svc.pf oracle) w = (.error e, w')) :
    NotAborted e := by
  have hwithin : (seeFrame svc args idx st).Within LoopCall NotAborted :=
    seeFrame_within (by simp [NotAborted]) args idx st
  have herror := (exec_within (I := fun _ => True) (fun _ _ _ _ => trivial)
    (fun c s e hc he => @loopCall_error K _ oracle svc.pf c s e hc he) hwithin (s := w) trivial).2
  rw [h] at herror
  exact herror e rfl

omit [Arithmetic K] in
theorem pollCancel_within_of {P : Call K → Prop} (hpoll : P .poll) (args : RunArgs) (done : ℕ) :
    (pollCancel (K := K) args done).Within P fun _ => True := by
  unfold pollCancel
  split
  · split
    · trivial
    · split
      · refine within_bind (within_perform hpoll) fun gone => ?_
        split
        · trivial
        · exact within_pure _
      · exact within_pure _
  · exact within_pure _

omit [Arithmetic K] in
theorem pollCancel_within (args : RunArgs) (done : ℕ) :
    (pollCancel (K := K) args done).Within LoopCall fun _ => True :=
  pollCancel_within_of .poll args done

theorem seeFrames_within (args : RunArgs) (indices : List ℕ) (done : ℕ) (st : LoopState K) :
    (seeFrames svc args indices done st).Within LoopCall fun _ => True := by
  induction indices generalizing done st with
  | nil => exact within_pure _
  | cons idx rest ih =>
      unfold seeFrames
      exact within_bind (pollCancel_within args done) fun _ =>
        within_bind (seeFrame_within trivial args idx st) fun st' => ih (done + 1) st'

/-! ### The writes after the loop -/

inductive PersistCall : Call K → Prop
  | append (ownerId streamId : String) (items : List (Db.Item K)) :
      PersistCall (.write (.appendStreamOccurrences ownerId streamId items))
  | centroid (clusterId ownerId : String) (centroid : List K) :
      PersistCall (.write (.updateClusterCentroid clusterId ownerId centroid))

omit [Arithmetic K] in
theorem writeDrift_within {P : Call K → Prop} {E : PyError → Prop} {ownerId : String}
    (hcentroid : ∀ clusterId centroid, P (.write (.updateClusterCentroid clusterId ownerId centroid)))
    (drift : List (String × List K)) :
    (drift.forM fun (clusterId, centroid) =>
      write (.updateClusterCentroid clusterId ownerId centroid)).Within P E := by
  induction drift with
  | nil => exact within_pure _
  | cons entry drift ih => exact within_bind (within_perform (hcentroid _ _)) fun _ => ih

omit [Arithmetic K] in
theorem persist_within_of {P : Call K → Prop} {E : PyError → Prop} {args : RunArgs}
    (happend : ∀ items, P (.write (.appendStreamOccurrences args.ownerId args.streamId items)))
    (hcentroid : ∀ clusterId centroid, P (.write (.updateClusterCentroid clusterId args.ownerId centroid)))
    (st : LoopState K) : (persist args st).Within P E := by
  unfold persist
  refine within_bind (within_perform (happend _)) fun written => ?_
  exact within_bind (writeDrift_within hcentroid _) fun _ => within_pure _

omit [Arithmetic K] in
theorem persist_within {E : PyError → Prop} (args : RunArgs) (st : LoopState K) :
    (persist args st).Within PersistCall E :=
  persist_within_of (fun _ => .append _ _ _) (fun _ _ => .centroid _ _ _) st

theorem insertItems_error {now : ℕ} {ownerId streamId : String} {items : List (Db.Item K)} {n : ℕ}
    {db : Database K} {e : PyError}
    (h : Db.insertItems pf now ownerId streamId items n db = .error e) :
    e = .invalidUuid ∨ e = .integrity := by
  induction items generalizing n db with
  | nil => cases h
  | cons it items ih =>
      unfold Db.insertItems at h
      rcases bind_eq_error.mp h with h | ⟨owner, -, h⟩
      · exact .inl (castUuid_error h)
      · rcases bind_eq_error.mp h with h | ⟨stream, -, h⟩
        · exact .inl (castUuid_error h)
        · rcases bind_eq_error.mp h with h | ⟨cluster, -, h⟩
          · exact .inl (castUuid_error h)
          · rcases bind_eq_error.mp h with h | ⟨⟨k, db₁⟩, -, h⟩
            · unfold insertOccurrenceIfNew at h
              split at h
              · cases h
              · split at h <;> cases h
                exact .inr rfl
            · exact ih h

theorem persistCall_error {c : Call K} {w : World K} {e : PyError} (hc : PersistCall c)
    (h : (answer pf oracle c w).1 = .error e) : NotAborted e := by
  have hwrite : ∀ wr : Write K, (answer pf oracle (.write wr) w).1 = .error e →
      wr.run pf (oracle.fresh w.draws) (oracle.clock w.calls) w.db = .error e := fun wr h =>
    @write_error K _ oracle pf wr e w (answer pf oracle (.write wr) w).2 (by rw [exec_perform, ← h])
  have hplain : e = .invalidUuid ∨ e = .integrity → NotAborted e := by
    rintro (rfl | rfl) <;> simp [NotAborted]
  cases hc with
  | append ownerId streamId items =>
      rcases bind_eq_error.mp (hwrite _ h) with hrun | ⟨⟨written, db⟩, -, hrun⟩
      · exact hplain (insertItems_error hrun)
      · rcases bind_eq_error.mp hrun with hrun | ⟨owner, -, hrun⟩
        · exact hplain (.inl (castUuid_error hrun))
        · rcases bind_eq_error.mp hrun with hrun | ⟨stream, -, hrun⟩
          · exact hplain (.inl (castUuid_error hrun))
          · cases hrun
  | centroid clusterId ownerId centroid =>
      rcases bind_eq_error.mp (hwrite _ h) with hrun | ⟨id, -, hrun⟩
      · exact hplain (.inl (castUuid_error hrun))
      · rcases bind_eq_error.mp hrun with hrun | ⟨owner, -, hrun⟩
        · exact hplain (.inl (castUuid_error hrun))
        · cases hrun

theorem persist_notAborted {args : RunArgs} {st : LoopState K} {w w' : World K} {e : PyError}
    (h : (persist args st).exec (answer pf oracle) w = (.error e, w')) : NotAborted e := by
  have herror := (exec_within (I := fun _ => True) (fun _ _ _ _ => trivial)
    (fun c s e hc he => @persistCall_error K _ oracle pf c s e hc he)
    (persist_within (E := NotAborted) args st) (s := w) trivial).2
  rw [h] at herror
  exact herror e rfl

/-! ### The start -/

/-- The clusters a run of the owner starts with. -/
def startState (db : Database K) (ownerId : String) : LoopState K :=
  match Db.getClustersForOwner db ownerId with
  | .error _ => .start []
  | .ok rows => .start rows

omit [Arithmetic K] in
theorem startState_rows {ownerId : String} {owner : Uuid} (howner : castUuid ownerId = .ok owner)
    (db : Database K) : ∃ rows, Db.getClustersForOwner db ownerId = .ok rows ∧
      startState db ownerId = .start rows ∧
      rows.Perm (db.clusters.filter fun c => c.ownerId = owner) := by
  have hrows : ∃ rows, Db.getClustersForOwner db ownerId = .ok rows := by
    rw [Db.getClustersForOwner, howner, ok_bind]
    exact ⟨_, rfl⟩
  obtain ⟨rows, hrows⟩ := hrows
  obtain ⟨owner', howner', hperm⟩ := getClustersForOwner_ok hrows
  rw [howner] at howner'
  cases howner'
  exact ⟨rows, hrows, by rw [startState, hrows], hperm⟩

/-- Reading the clusters changes nothing. -/
theorem exec_getClusters (ownerId : String) (w : World K) :
    (query (K := K) (.getClustersForOwner ownerId)).exec (answer pf oracle) w =
      (Db.getClustersForOwner w.db ownerId, { w with calls := w.calls + 1 }) := by
  rw [exec_perform]
  rfl

/-! ### The run -/

/-- What a run calls. -/
inductive RunCall (args : RunArgs) : Call K → Prop
  | clusters : RunCall args (.query (.getClustersForOwner args.ownerId))
  | loop {c : Call K} (h : LoopCall c) : RunCall args c
  | append (items : List (Db.Item K)) :
      RunCall args (.write (.appendStreamOccurrences args.ownerId args.streamId items))
  | centroid (clusterId : String) (centroid : List K) :
      RunCall args (.write (.updateClusterCentroid clusterId args.ownerId centroid))

theorem run_within (svc : Service K) (args : RunArgs) :
    (run svc args).Within (RunCall args) fun _ => True := by
  unfold run
  refine within_bind (within_perform .clusters) fun rows => ?_
  refine within_bind ((seeFrames_within args _ 0 _).mono fun _ => .loop) fun st => ?_
  exact within_bind (persist_within_of .append .centroid st) fun _ => within_pure _

/-! ### A run to look at -/

def sceneArgs : RunArgs where
  streamId := (Uuid.fill 2).text
  ownerId := (Uuid.fill 1).text
  framesPrefix := "faces/v"
  count := 2
  maxFrames := 0
  cancel := true
  cancelEvery := 1

/-- The world after a run on the scenes. -/
def sceneAfter (scenes : List (List (ℚ × ℚ))) : World ℚ :=
  ((run (sceneService scenes) sceneArgs).exec (answer Platform.exact (sceneOracle 9)) sceneWorld).2

theorem scene_run {scenes : List (List (ℚ × ℚ))} {r : RunResult}
    (h : ((run (sceneService scenes) sceneArgs).exec (answer Platform.exact (sceneOracle 9))
      sceneWorld).1 = .ok r) :
    (run (sceneService scenes) sceneArgs).exec (answer (sceneService scenes).pf (sceneOracle 9))
      sceneWorld = (.ok r, sceneAfter scenes) :=
  Prod.ext h rfl

end FacesService
