import FacesService.Infer.Loop

/-!
An aborted run. The loop has no transaction of its own: `upsert_cluster`,
`put_crop` and `set_cluster_crop` commit while it goes on. So an abort leaves
no trace exactly when none of them was called, which is a condition on the
sightings in the frames before the abort (`Quiet`).

Every one of these calls leaves a trace that nothing later in the loop
removes: the number of clusters plus the number of clusters with a crop grows.
-/

namespace FacesService

open Prog Fallible Database

variable {K : Type}

/-! ### What grows -/

def Database.footprint (db : Database K) : ℕ :=
  db.clusters.length + db.clusters.countP (·.cropObject.isSome)

theorem footprint_insertCluster {db db' : Database K} {c : Cluster K} (hcrop : c.cropObject = none)
    (h : db.insertCluster c = .ok db') : db'.footprint = db.footprint + 1 := by
  obtain ⟨-, rfl⟩ := insertCluster_eq_ok h
  simp only [footprint, List.length_append, List.countP_append, List.length_singleton]
  simp [hcrop]
  omega

/-- Giving clusters a crop never takes one away. -/
theorem footprint_setCrop_le (db : Database K) (p : Cluster K → Bool) (key : String) (now : ℕ) :
    db.footprint ≤ (db.updateClusters p fun r =>
      { r with cropObject := some key, updatedAt := now }).footprint := by
  simp only [footprint, updateClusters, List.length_map, List.countP_map]
  refine Nat.add_le_add_left (List.countP_mono_left fun c _ hc => ?_) _
  simp only [Function.comp]
  split
  · rfl
  · exact hc

/-- It gives one to every cluster it is for. -/
theorem footprint_setCrop_lt {db : Database K} {p : Cluster K → Bool} {r : Cluster K}
    (hr : r ∈ db.clusters) (hp : p r) (hcrop : r.cropObject = none) (key : String) (now : ℕ) :
    db.footprint < (db.updateClusters p fun r =>
      { r with cropObject := some key, updatedAt := now }).footprint := by
  simp only [footprint, updateClusters, List.length_map, List.countP_map]
  refine Nat.add_lt_add_left ?_ _
  obtain ⟨l₁, l₂, hsplit⟩ := List.append_of_mem hr
  have hmono : ∀ l : List (Cluster K), l.countP (·.cropObject.isSome) ≤
      l.countP ((·.cropObject.isSome) ∘ fun c =>
        if p c then { c with cropObject := some key, updatedAt := now } else c) := by
    intro l
    refine List.countP_mono_left fun c _ hc => ?_
    simp only [Function.comp]
    split
    · rfl
    · exact hc
  have h₁ := hmono l₁
  have h₂ := hmono l₂
  rw [hsplit, List.countP_append, List.countP_append, List.countP_cons, List.countP_cons]
  simp only [hcrop, Function.comp, hp, if_true, Option.isSome_none, Option.isSome_some]
  simp only at h₁ h₂
  have hfalse : (if false = true then 1 else 0) = 0 := rfl
  omega

variable [Arithmetic K] {svc : Service K} {oracle : Oracle} {pf : Platform K}

theorem loopCall_footprint {c : Call K} (hc : LoopCall c) (w : World K) :
    w.db.footprint ≤ (answer pf oracle c w).2.db.footprint := by
  cases hc with
  | getFrame pre index => exact le_refl _
  | putCrop ownerId clusterId data => exact le_refl _
  | poll => exact le_refl _
  | upsert ownerId centroid =>
      rw [answer_write_db]
      split
      · rename_i c hrun
        obtain ⟨owner, -, -, -, hinsert⟩ := Db.upsertCluster_ok hrun
        rw [footprint_insertCluster rfl hinsert]
        exact Nat.le_succ _
      · exact le_refl _
  | setCrop clusterId ownerId key =>
      rw [answer_write_db]
      split
      · rename_i c hrun
        obtain ⟨id, owner, -, -, rfl⟩ := Db.setClusterCrop_ok hrun
        exact footprint_setCrop_le _ _ _ _
      · exact le_refl _

/-- Nothing the loop goes on to do makes the footprint smaller. -/
theorem footprint_le_of_exec {α : Type} {p : Program K α} (hp : p.Within LoopCall fun _ => True)
    {w w' : World K} {r : Except PyError α} (h : p.exec (answer pf oracle) w = (r, w')) :
    w.db.footprint ≤ w'.db.footprint := by
  have hend := (exec_within (I := fun s => w.db.footprint ≤ s.db.footprint)
    (fun _ s hc hle => le_trans hle (@loopCall_footprint K _ oracle pf _ hc s))
    (fun _ _ _ _ _ => trivial) hp (le_refl _)).1
  rwa [h] at hend

/-! ### Quiet sightings -/

/-- Every sighting goes to a cluster that is there already and, if the cluster
has no crop yet, shows no face that could be cropped. -/
def Quiet (svc : Service K) (crops : List (String × String)) :
    List (Known K) → List (Sighting K) → Prop
  | _, [] => True
  | known, s :: ss => ∃ k c, assign svc known s.det.embedding = .ok (some k) ∧
      absorb svc.pf k s.det.embedding = .ok c ∧
      newCrop svc s.img (crops.lookup c.id = none) s.det = none ∧
      Quiet svc crops (updateKnown known c) ss

/-- The clusters the loop takes to lack a crop lack one in the store. -/
def CropsOpen (owner : Uuid) (crops : List (String × String)) (known : List (Known K))
    (db : Database K) : Prop :=
  ∀ k ∈ known, crops.lookup k.id = none →
    ∃ r ∈ db.clusters, r.id.text = k.id ∧ r.ownerId = owner ∧ r.cropObject = none

omit [Arithmetic K] in
theorem CropsOpen.updateKnown {owner : Uuid} {crops : List (String × String)}
    {known : List (Known K)} {db : Database K} (h : CropsOpen owner crops known db) {k c : Known K}
    (hk : k ∈ known) (hid : c.id = k.id) : CropsOpen owner crops (updateKnown known c) db := by
  intro k' hk' hnone
  rcases mem_updateKnown hk' with ⟨rfl, -⟩ | ⟨hk', -⟩
  · rw [hid] at hnone ⊢
    exact h k hk hnone
  · exact h k' hk' hnone

/-- One detection is quiet and changes nothing but what the loop knows, or is
not and leaves a trace. -/
theorem seeDetection_trace {ownerId : String} {owner : Uuid} (howner : castUuid ownerId = .ok owner)
    {s : Sighting K} {st st' : LoopState K} {w w' : World K}
    (hopen : CropsOpen owner st.crops st.known w.db)
    (h : (seeDetection svc ownerId s.img s.time st s.det).exec (answer svc.pf oracle) w =
      (.ok st', w')) :
    (∃ k c, assign svc st.known s.det.embedding = .ok (some k) ∧
        absorb svc.pf k s.det.embedding = .ok c ∧
        newCrop svc s.img (st.crops.lookup c.id = none) s.det = none ∧
        st'.known = updateKnown st.known c ∧ st'.crops = st.crops ∧ w' = w) ∨
      ((∀ ss, ¬ Quiet svc st.crops st.known (s :: ss)) ∧ w.db.footprint < w'.db.footprint) := by
  obtain ⟨c, needCrop, st₁, st₂, w₁, hplaced, hsaved, rfl⟩ := seeDetection_ok h
  cases hplaced with
  | @matched k _ hassign habsorb =>
      cases hsaved with
      | none hcrop => exact .inl ⟨k, c, hassign, habsorb, hcrop, rfl, rfl, rfl⟩
      | @some jpeg id owner' _ hcrop hid howner' hdb hobjects hpolls hdraws =>
          refine .inr ⟨?_, ?_⟩
          · rintro ss ⟨k', c', hassign', habsorb', hnone, -⟩
            rw [hassign'] at hassign
            cases hassign
            rw [habsorb'] at habsorb
            cases habsorb
            rw [hnone] at hcrop
            cases hcrop
          · have hopenc : st.crops.lookup c.id = none := by
              unfold newCrop at hcrop
              split at hcrop
              · rename_i hneed
                simpa using hneed
              · cases hcrop
            rw [(absorb_id habsorb).1] at hopenc hid
            obtain ⟨r, hr, hrid, hro, hrcrop⟩ := hopen k (assign_mem hassign) hopenc
            rw [howner] at howner'
            cases howner'
            rw [← hrid, Uuid.castUuid_text] at hid
            cases hid
            rw [hdb]
            exact footprint_setCrop_lt hr (by simp [hro]) hrcrop _ _
  | @created owner' _ hassign howner' hinsert hobjects hpolls hdraws =>
      have hnot : ∀ ss, ¬ Quiet svc st.crops st.known (s :: ss) := by
        rintro ss ⟨k', c', hassign', -⟩
        rw [hassign'] at hassign
        cases hassign
      have hgrow := footprint_insertCluster rfl hinsert
      cases hsaved with
      | none hcrop => exact .inr ⟨hnot, by omega⟩
      | some hcrop hid howner₂ hdb hobjects₂ hpolls₂ hdraws₂ =>
          refine .inr ⟨hnot, ?_⟩
          rw [hdb]
          have hle := footprint_setCrop_le w₁.db
          exact lt_of_lt_of_le (by omega) (hle _ _ _)

/-- A completed stretch of sightings: quiet, and then the store is as it was
and what is quiet after it is what it leaves open; or not, with a trace. -/
theorem seeAll_trace {ownerId : String} {owner : Uuid} (howner : castUuid ownerId = .ok owner)
    {ss : List (Sighting K)} {st st' : LoopState K} {w w' : World K}
    (hopen : CropsOpen owner st.crops st.known w.db)
    (h : (seeAll svc ownerId ss st).exec (answer svc.pf oracle) w = (.ok st', w')) :
    (w'.db = w.db ∧ w'.objects = w.objects ∧ CropsOpen owner st'.crops st'.known w'.db ∧
        ∀ rest, Quiet svc st.crops st.known (ss ++ rest) ↔ Quiet svc st'.crops st'.known rest) ∨
      (w.db.footprint < w'.db.footprint ∧ ∀ rest, ¬ Quiet svc st.crops st.known (ss ++ rest)) := by
  induction ss generalizing st w with
  | nil =>
      cases h
      exact .inl ⟨rfl, rfl, hopen, fun _ => Iff.rfl⟩
  | cons s ss ih =>
      obtain ⟨st₁, w₁, hsee, hrest⟩ := seeAll_cons_ok h
      rcases seeDetection_trace howner hopen hsee with
        ⟨k, c, hassign, habsorb, hcrop, hknown, hcrops, rfl⟩ | ⟨hnot, hlt⟩
      · have hopen₁ : CropsOpen owner st₁.crops st₁.known w₁.db := by
          rw [hknown, hcrops]
          exact hopen.updateKnown (assign_mem hassign) (absorb_id habsorb).1
        have hquiet : ∀ rest, Quiet svc st.crops st.known (s :: ss ++ rest) ↔
            Quiet svc st₁.crops st₁.known (ss ++ rest) := by
          intro rest
          rw [hknown, hcrops, List.cons_append]
          constructor
          · rintro ⟨k', c', hassign', habsorb', -, hq⟩
            rw [hassign'] at hassign
            cases hassign
            rw [habsorb'] at habsorb
            cases habsorb
            exact hq
          · exact fun hq => ⟨k, c, hassign, habsorb, hcrop, hq⟩
        rcases ih hopen₁ hrest with ⟨hdb, hobj, hopen', hiff⟩ | ⟨hlt, hnot⟩
        · exact .inl ⟨hdb, hobj, hopen', fun rest => (hquiet rest).trans (hiff rest)⟩
        · exact .inr ⟨hlt, fun rest hq => hnot rest ((hquiet rest).mp hq)⟩
      · have hle := footprint_le_of_exec ((seeAll_within trivial ownerId ss st₁).mono fun _ h =>
          h.inLoop) hrest
        exact .inr ⟨lt_of_lt_of_le hlt hle, fun rest => hnot _⟩

/-! ### The abort -/

/-- The frames the loop reads before a poll first finds the caller gone. -/
def framesRead (gone : ℕ → Bool) (args : RunArgs) : ℕ → ℕ → List ℕ → List ℕ
  | _, _, [] => []
  | done, polls, idx :: rest =>
      if args.cancel ∧ done % args.cancelEvery = 0 then
        if gone polls then [] else idx :: framesRead gone args (done + 1) (polls + 1) rest
      else idx :: framesRead gone args (done + 1) polls rest

theorem framesRead_of_ok {args : RunArgs} {done : ℕ} {w w' : World K}
    (h : (pollCancel args done).exec (answer pf oracle) w = (.ok (), w')) (idx : ℕ)
    (rest : List ℕ) : framesRead oracle.gone args done w.polls (idx :: rest) =
      idx :: framesRead oracle.gone args (done + 1) w'.polls rest := by
  generalize hlog : (pollCancel args done).steps (answer pf oracle) w = log
  have hpolled := hlog ▸ pollCancel_ok h
  cases hpolled with
  | undue hdue => rw [framesRead, if_neg hdue]
  | there hcancel hdue hgone hw =>
      rw [framesRead, if_pos ⟨hcancel, hdue⟩, if_neg (by simp [hgone]), hw]

theorem framesRead_of_aborted {args : RunArgs} {done n : ℕ} {w w' : World K}
    (h : (pollCancel args done).exec (answer pf oracle) w = (.error (.inferenceAborted n), w'))
    (indices : List ℕ) : framesRead oracle.gone args done w.polls indices = [] := by
  rcases pollCancel_error h with ⟨he, -⟩ | ⟨-, hcancel, hdue, hgone, -, -⟩
  · cases he
  · cases indices with
    | nil => rfl
    | cons idx rest => rw [framesRead, if_pos ⟨hcancel, hdue⟩, if_pos hgone]

/-- **The run lemma**: the loop, to its end or to an abort, was quiet and left
the store as it was, or was not and left a trace. -/
theorem seeFrames_trace {args : RunArgs} {owner : Uuid} (howner : castUuid args.ownerId = .ok owner)
    {indices : List ℕ} {done : ℕ} {st : LoopState K} {w w' : World K}
    {res : Except PyError (LoopState K)} (hres : ∀ e, res = .error e → ∃ n, e = .inferenceAborted n)
    (hopen : CropsOpen owner st.crops st.known w.db)
    (h : (seeFrames svc args indices done st).exec (answer svc.pf oracle) w = (res, w')) :
    (w'.db = w.db ∧ w'.objects = w.objects ∧ Quiet svc st.crops st.known
        (sightings svc w.objects args.framesPrefix
          (framesRead oracle.gone args done w.polls indices))) ∨
      (w.db.footprint < w'.db.footprint ∧ ¬ Quiet svc st.crops st.known
        (sightings svc w.objects args.framesPrefix
          (framesRead oracle.gone args done w.polls indices))) := by
  induction indices generalizing done st w with
  | nil =>
      cases h
      exact .inl ⟨rfl, rfl, trivial⟩
  | cons idx rest ih =>
      unfold seeFrames at h
      rcases hpoll : (pollCancel args done).exec (answer svc.pf oracle) w with ⟨e | ⟨⟨⟩⟩, w₁⟩
      · rw [exec_bind_error hpoll] at h
        cases h
        obtain ⟨n, rfl⟩ := hres e rfl
        obtain ⟨hdb, hobj, -⟩ := pollCancel_keeps hpoll
        rw [framesRead_of_aborted hpoll]
        exact .inl ⟨hdb, hobj, trivial⟩
      · rw [exec_bind_ok hpoll] at h
        obtain ⟨hdb, hobj, -⟩ := pollCancel_keeps hpoll
        rw [framesRead_of_ok hpoll, sightings, List.flatMap_cons, ← sightings]
        rcases hframe : (seeFrame svc args idx st).exec (answer svc.pf oracle) w₁ with ⟨e | st₁, w₂⟩
        · rw [exec_bind_error hframe] at h
          cases h
          obtain ⟨n, rfl⟩ := hres e rfl
          exact absurd rfl (seeFrame_notAborted hframe n)
        · rw [exec_bind_ok hframe] at h
          obtain ⟨skipped, hexec⟩ := @seeFrame_exec K _ svc oracle args idx st w₁
          rw [hexec] at hframe
          rw [← hobj]
          have hopen₁ : CropsOpen owner st.crops st.known w₁.db := hdb ▸ hopen
          have hpolls := seeAll_polls hframe
          have htrace := fun hopen => seeAll_trace howner hopen hframe
          rcases htrace hopen₁ with ⟨hdb₂, hobj₂, hopen₂, hiff⟩ | ⟨hlt, hnot⟩
          · simp only at hdb₂ hobj₂ hpolls hiff
            rw [hiff, ← hpolls, ← hobj₂]
            rcases ih hopen₂ h with ⟨hdb₃, hobj₃, hquiet⟩ | ⟨hlt, hnot⟩
            · exact .inl ⟨hdb₃.trans (hdb₂.trans hdb), hobj₃, hquiet⟩
            · rw [hdb₂, hdb] at hlt
              exact .inr ⟨hlt, hnot⟩
          · simp only at hlt hnot
            have hle := footprint_le_of_exec (seeFrames_within args rest (done + 1) st₁) h
            rw [hdb] at hlt
            exact .inr ⟨lt_of_lt_of_le hlt hle, hnot _⟩

omit [Arithmetic K] in
theorem cropsOpen_start {db : Database K} {rows : List (Cluster K)} {owner : Uuid}
    (hrows : rows.Perm (db.clusters.filter fun c => c.ownerId = owner)) :
    CropsOpen owner (LoopState.start rows).crops (LoopState.start rows).known db := by
  intro k hk hnone
  obtain ⟨r, hr, rfl⟩ := List.mem_map.mp hk
  have hmem := List.mem_filter.mp (hrows.mem_iff.mp hr)
  refine ⟨r, hmem.1, rfl, by simpa using hmem.2, ?_⟩
  cases hcrop : r.cropObject with
  | none => rfl
  | some key =>
      have hentry : (r.id.text, key) ∈ (LoopState.start rows).crops :=
        List.mem_filterMap.mpr ⟨r, hr, by rw [hcrop]; rfl⟩
      rw [Known.ofRow, List.lookup_eq_none_iff] at hnone
      have hne := hnone _ hentry
      simp at hne

theorem run_frames_error {args : RunArgs} {n : ℕ} {w w' : World K}
    (h : (run svc args).exec (answer svc.pf oracle) w = (.error (.inferenceAborted n), w')) :
    ∃ rows, Db.getClustersForOwner w.db args.ownerId = .ok rows ∧
      (seeFrames svc args (frameIndices args.count args.maxFrames) 0 (.start rows)).exec
        (answer svc.pf oracle) { w with calls := w.calls + 1 } =
        (.error (.inferenceAborted n), w') := by
  unfold run at h
  rcases exec_bind_eq_error.mp h with h | ⟨rows, w₁, hrows, h⟩
  · rw [exec_getClusters, Prod.mk.injEq] at h
    rcases bind_eq_error.mp h.1 with h | ⟨owner, -, h⟩
    · cases castUuid_error h
    · cases h
  · rw [exec_getClusters, Prod.mk.injEq] at hrows
    obtain ⟨hrows, rfl⟩ := hrows
    rcases exec_bind_eq_error.mp h with h | ⟨st, w₂, -, h⟩
    · exact ⟨rows, hrows, h⟩
    · rcases exec_bind_eq_error.mp h with h | ⟨written, w₃, -, h⟩
      · exact absurd rfl (persist_notAborted h n)
      · cases h

/-- **What an abort leaves.** A run that is aborted leaves the tables and the
bucket as they were if and only if what it saw before the abort was quiet. -/
theorem aborted_unchanged_iff_quiet {args : RunArgs} {n : ℕ} {w w' : World K}
    (h : (run svc args).exec (answer svc.pf oracle) w = (.error (.inferenceAborted n), w')) :
    (w'.db = w.db ∧ w'.objects = w.objects) ↔
      Quiet svc (startState w.db args.ownerId).crops (startState w.db args.ownerId).known
        (sightings svc w.objects args.framesPrefix (framesRead oracle.gone args 0 w.polls
          (frameIndices args.count args.maxFrames))) := by
  obtain ⟨rows, hrows, hframes⟩ := run_frames_error h
  obtain ⟨owner, howner, hperm⟩ := getClustersForOwner_ok hrows
  have hstart : startState w.db args.ownerId = .start rows := by
    rw [startState, hrows]
  rw [hstart]
  have htrace := fun hopen => seeFrames_trace howner (by rintro e ⟨⟩; exact ⟨n, rfl⟩) hopen hframes
  rcases htrace (cropsOpen_start hperm) with ⟨hdb, hobj, hquiet⟩ | ⟨hlt, hnot⟩
  · exact ⟨fun _ => hquiet, fun _ => ⟨hdb, hobj⟩⟩
  · constructor
    · intro hsame
      rw [hsame.1] at hlt
      exact absurd hlt (lt_irrefl _)
    · exact fun hquiet => absurd hquiet hnot

/-- The caller leaves after a first frame with one face. -/
theorem aborted_unchanged_iff_quiet_scene :
    (((run (sceneService [[(1, 0)]]) sceneArgs).exec (answer Platform.exact (sceneOracle 1))
        sceneWorld).2.db = sceneWorld.db ∧
      ((run (sceneService [[(1, 0)]]) sceneArgs).exec (answer Platform.exact (sceneOracle 1))
        sceneWorld).2.objects = sceneWorld.objects) ↔
      Quiet (sceneService [[(1, 0)]]) (startState sceneWorld.db sceneArgs.ownerId).crops
        (startState sceneWorld.db sceneArgs.ownerId).known
        (sightings (sceneService [[(1, 0)]]) sceneWorld.objects sceneArgs.framesPrefix
          (framesRead (sceneOracle 1).gone sceneArgs 0 sceneWorld.polls
            (frameIndices sceneArgs.count sceneArgs.maxFrames))) :=
  aborted_unchanged_iff_quiet (n := 1) (Prod.ext (by decide +kernel) rfl)

/-- Its face has become a cluster by then. -/
theorem aborted_run_leaves_cluster :
    ¬ ∀ (svc : Service ℚ) (oracle : Oracle) (args : RunArgs) (n : ℕ) (w w' : World ℚ),
      0 < args.cancelEvery →
      (run svc args).exec (answer svc.pf oracle) w = (.error (.inferenceAborted n), w') →
      w'.db = w.db ∧ w'.objects = w.objects := by
  intro h
  have hsame := h (sceneService [[(1, 0)]]) (sceneOracle 1) sceneArgs 1 sceneWorld _ (by decide)
    (Prod.ext (by decide +kernel) rfl)
  exact absurd hsame.1 (by decide +kernel)

end FacesService
