import FacesService.Model.Assist
import FacesService.Model.FaceModel
import FacesService.Reader.Steps

/-!
The size floor of the interactive path. `FaceModel.embed` drops a face that is too
small before it has it recognized; what it finds is what it finds without the floor,
less those faces, at the price of one recognition for each face that is kept. So the
floor changes nothing about the faces `detect_faces` shows but which of them there are.
-/

namespace FacesService

open Prog

variable {K : Type} [Arithmetic K]

namespace FaceModel

variable {lib : FaceAnalysis K} {pf : Platform K} {img : Image}

/-! ### The loops -/

omit [Arithmetic K] in
theorem exec_recognize (models : List String) (face : Face K) (s : FaceState K) :
    (models.foldlM (recognize img) face).exec lib.answer s =
      (.ok ((models.filter (· ≠ "detection")).foldl (fun face taskname => lib.modelGet taskname img face) face),
        { s with modelRuns := s.modelRuns + (models.filter (· ≠ "detection")).length }) := by
  induction models generalizing face s with
  | nil => rfl
  | cons taskname models ih =>
      rw [List.foldlM_cons]
      by_cases htask : taskname = "detection"
      · have hskip : recognize img face taskname = pure face := if_pos htask
        rw [hskip, exec_bind, exec_pure]
        simp [ih, htask]
      · have hget : recognize img face taskname = faceCall (.modelGet taskname img face) := if_neg htask
        rw [hget, exec_bind, exec_perform, FaceAnalysis.answer]
        simp [ih, htask]
        omega

/-- The hits worth recognizing. -/
def kept (hits : List (Hit K)) (img : Image) (minFaceRatio : K) : List (Hit K) :=
  hits.filter fun h => faceIsLargeEnough h.bbox img.height minFaceRatio

theorem exec_detectHits (minFaceRatio : K) (hits : List (Hit K)) (out : List (Face K)) (s : FaceState K) :
    (hits.foldlM (detectHit lib.models img minFaceRatio) out).exec lib.answer s =
      (.ok (out ++ (kept hits img minFaceRatio).map fun h => lib.recognized img (.ofHit h)),
        { s with modelRuns := s.modelRuns + (kept hits img minFaceRatio).length * lib.tasks.length }) := by
  induction hits generalizing out s with
  | nil => simp [kept]
  | cons h hits ih =>
      rw [List.foldlM_cons]
      by_cases hlarge : faceIsLargeEnough h.bbox img.height minFaceRatio = true
      · have hround : (detectHit lib.models img minFaceRatio out h).exec lib.answer s =
            (.ok (out ++ [lib.recognized img (.ofHit h)]),
              { s with modelRuns := s.modelRuns + lib.tasks.length }) := by
          simp [detectHit, hlarge, exec_bind, exec_recognize, FaceAnalysis.recognized, FaceAnalysis.tasks]
        rw [exec_bind_ok hround, ih]
        simp [kept, hlarge, Nat.succ_mul]
        omega
      · have hround : (detectHit lib.models img minFaceRatio out h).exec lib.answer s = (.ok out, s) := by
          simp [detectHit, hlarge]
        rw [exec_bind_ok hround, ih]
        simp [kept, hlarge]

/-! ### With and without the floor -/

/-- `det_size` as the detector takes it. -/
def inputSize (detSize : ℕ) : Option (ℕ × ℕ) := if detSize = 0 then none else some (detSize, detSize)

/-- What `embed` finds. -/
def found (lib : FaceAnalysis K) (pf : Platform K) (img : Image) (detectThreshold : K) (detSize : ℕ)
    (minFaceRatio : K) : List (Detection K) :=
  ((kept (lib.detect detectThreshold img (inputSize detSize)) img minFaceRatio).map fun h =>
    lib.recognized img (.ofHit h)).filterMap (detection pf)

theorem kept_of_le {minFaceRatio : K} (h : minFaceRatio ≤ 0) (hits : List (Hit K)) :
    kept hits img minFaceRatio = hits := by
  unfold kept
  apply List.filter_eq_self.mpr
  intro hit _
  rw [faceIsLargeEnough, if_pos h]

/-- **What `embed` does**, and how many recognitions it takes unless the library does it in one. -/
theorem exec_embed (hlib : lib.Genuine) (detectThreshold : K) (detSize : ℕ) (minFaceRatio : K)
    (s : FaceState K) : ∃ s', (embed pf lib.models img detectThreshold detSize minFaceRatio).exec lib.answer s =
        (.ok (found lib pf img detectThreshold detSize minFaceRatio), s') ∧
      (0 < minFaceRatio → s'.modelRuns = s.modelRuns +
        (kept (lib.detect detectThreshold img (inputSize detSize)) img minFaceRatio).length * lib.tasks.length) := by
  unfold embed
  have hset : (faceCall (.setDetThresh detectThreshold)).exec lib.answer s =
      (.ok (), { s with detThresh := detectThreshold }) := rfl
  rw [exec_bind_ok hset]
  change ∃ s', (detect lib.models img (inputSize detSize) minFaceRatio >>= _).exec lib.answer _ = _ ∧ _
  by_cases hplain : inputSize detSize = none ∧ minFaceRatio ≤ 0
  · have hget : (detect lib.models img (inputSize detSize) minFaceRatio).exec lib.answer
        { s with detThresh := detectThreshold } =
        (.ok (lib.get detectThreshold img), { s with detThresh := detectThreshold }) := by
      rw [detect, if_pos hplain]
      rfl
    rw [exec_bind_ok hget, exec_pure, found, kept_of_le hplain.2, hplain.1, hlib.get_eq]
    exact ⟨_, rfl, fun hpos => absurd hpos (not_lt.mpr hplain.2)⟩
  · have hloop : (detect lib.models img (inputSize detSize) minFaceRatio).exec lib.answer
        { s with detThresh := detectThreshold } =
        (.ok ((kept (lib.detect detectThreshold img (inputSize detSize)) img minFaceRatio).map fun h =>
          lib.recognized img (.ofHit h)),
        { s with
          detThresh := detectThreshold
          modelRuns := s.modelRuns +
            (kept (lib.detect detectThreshold img (inputSize detSize)) img minFaceRatio).length *
              lib.tasks.length }) := by
      rw [detect, if_neg hplain, exec_bind, exec_perform, FaceAnalysis.answer]
      exact exec_detectHits minFaceRatio _ [] _
    rw [exec_bind_ok hloop, exec_pure, found]
    exact ⟨_, rfl, fun _ => rfl⟩

/-- Whether the box of a detection clears the floor. -/
def clears (img : Image) (minFaceRatio : K) (det : Detection K) : Bool :=
  det.bbox.all fun bbox => faceIsLargeEnough bbox img.height minFaceRatio

omit [Arithmetic K] in
theorem recognized_bbox (hlib : lib.Genuine) (face : Face K) : (lib.recognized img face).bbox = face.bbox := by
  unfold FaceAnalysis.recognized
  induction lib.tasks generalizing face with
  | nil => rfl
  | cons taskname tasks ih =>
      rw [List.foldl_cons, ih, hlib.bbox]

theorem detection_bbox {f : Face K} {det : Detection K} (h : detection pf f = some det) : det.bbox = f.bbox := by
  unfold detection at h
  split at h
  · dsimp only at h
    split at h
    · cases h
    · cases h
      rfl
  · cases h

theorem detection_length {f : Face K} {det : Detection K} {embedding : List K}
    (h : detection pf f = some det) (hf : f.embedding = some embedding) :
    det.embedding.length = embedding.length := by
  unfold detection at h
  rw [hf] at h
  split at h
  · rename_i heq _
    cases heq
    dsimp only at h
    split at h
    · cases h
    · cases h
      simp [asFloat32]
  · cases h

/-- With the floor `embed` finds what it finds without, less the faces that are too small. -/
theorem found_filter (hlib : lib.Genuine) (detectThreshold : K) (detSize : ℕ) (minFaceRatio : K) :
    found lib pf img detectThreshold detSize minFaceRatio =
      (found lib pf img detectThreshold detSize 0).filter (clears img minFaceRatio) := by
  unfold found
  rw [kept_of_le (le_refl 0), List.filter_filterMap, List.filterMap_map, List.filterMap_map]
  unfold kept
  rw [List.filterMap_filter]
  apply List.filterMap_congr
  intro h _
  simp only [Function.comp_apply]
  cases hdet : detection pf (lib.recognized img (.ofHit h)) with
  | none => simp
  | some det =>
      have hbox : det.bbox = some h.bbox := (detection_bbox hdet).trans (recognized_bbox hlib _)
      simp [clears, hbox, Option.filter]

/-- **The floor drops the small faces before their recognition**, and nothing else: what
is found is what would be found without it, less the faces below the floor, and there is
one run of each recognizing model for each box above it. -/
theorem embed_with_floor (hlib : lib.Genuine) (detectThreshold : K) (detSize : ℕ) {minFaceRatio : K}
    (hpos : 0 < minFaceRatio) (s : FaceState K) : ∃ dets s₁ s₂,
      (embed pf lib.models img detectThreshold detSize 0).exec lib.answer s = (.ok dets, s₁) ∧
      (embed pf lib.models img detectThreshold detSize minFaceRatio).exec lib.answer s =
        (.ok (dets.filter (clears img minFaceRatio)), s₂) ∧
      s₂.modelRuns = s.modelRuns + lib.tasks.length *
        (lib.detect detectThreshold img (inputSize detSize)).countP fun h =>
          faceIsLargeEnough h.bbox img.height minFaceRatio := by
  obtain ⟨s₁, hplain, -⟩ := @exec_embed K _ lib pf img hlib detectThreshold detSize 0 s
  obtain ⟨s₂, hfloor, hruns⟩ := @exec_embed K _ lib pf img hlib detectThreshold detSize minFaceRatio s
  refine ⟨_, s₁, s₂, hplain, ?_, ?_⟩
  · rw [hfloor, found_filter hlib]
  · rw [hruns hpos, kept, ← List.countP_eq_length_filter, Nat.mul_comm]

/-- A face of the upper half of a frame and one of a tenth of it. -/
def twoFaceAnalysis : FaceAnalysis ℚ where
  models := ["detection", "recognition"]
  detect _ _ _ := [⟨(10, 10, 50, 60), 9 / 10, none⟩, ⟨(70, 70, 80, 80), 8 / 10, none⟩]
  modelGet _ _ face := { face with embedding := some [3, 4] }
  get _ _ :=
    [⟨some (10, 10, 50, 60), none, some (9 / 10), some [3, 4]⟩,
      ⟨some (70, 70, 80, 80), none, some (8 / 10), some [3, 4]⟩]

theorem genuine_twoFaceAnalysis : twoFaceAnalysis.Genuine where
  get_eq _ _ := rfl
  bbox _ _ _ := rfl

theorem embed_with_floor_twoFaces : ∃ dets s₁ s₂,
    (embed Platform.exact twoFaceAnalysis.models ⟨100, 100, []⟩ (1 / 2) 0 0).exec twoFaceAnalysis.answer ⟨0, 0⟩ =
      (.ok dets, s₁) ∧
    (embed Platform.exact twoFaceAnalysis.models ⟨100, 100, []⟩ (1 / 2) 0 (1 / 5)).exec twoFaceAnalysis.answer ⟨0, 0⟩ =
      (.ok (dets.filter (clears ⟨100, 100, []⟩ (1 / 5))), s₂) ∧
    s₂.modelRuns = 1 := by
  obtain ⟨dets, s₁, s₂, hplain, hfloor, hruns⟩ :=
    @embed_with_floor ℚ _ _ Platform.exact ⟨100, 100, []⟩ genuine_twoFaceAnalysis (1 / 2) 0 (1 / 5) (by decide +kernel) ⟨0, 0⟩
  refine ⟨dets, s₁, s₂, hplain, hfloor, ?_⟩
  rw [hruns]
  decide +kernel

end FaceModel

/-! ### The paused frame -/

/-- The faces of a service are those `FaceModel` finds with the library. -/
def Vision.Computed (vision : Vision K) (lib : FaceAnalysis K) (pf : Platform K) : Prop :=
  ∀ img threshold size ratio s,
    ((FaceModel.embed pf lib.models img threshold size ratio).exec lib.answer s).1 =
      .ok (vision.embed img threshold size ratio)

/-- The service with the floor `ASSIST_MIN_FACE_RATIO`. -/
def Service.withFloor (svc : Service K) (minFaceRatio : K) : Service K :=
  { svc with config := { svc.config with assistMinFaceRatio := minFaceRatio } }

namespace Reader

variable {svc : Service K} {lib : FaceAnalysis K} {oracle : Oracle}

theorem detectOn_withFloor (hlib : lib.Genuine) (hvision : svc.vision.Computed lib svc.pf) (img : Image)
    (minFaceRatio : K) : detectOn (svc.withFloor minFaceRatio) img =
      (detectOn (svc.withFloor 0) img).filter (FaceModel.clears img minFaceRatio) := by
  have hfound : ∀ ratio : K, detectOn (svc.withFloor ratio) img =
      FaceModel.found lib svc.pf img svc.config.detectThreshold svc.config.assistDetSize ratio := by
    intro ratio
    obtain ⟨s', hrun, -⟩ := @FaceModel.exec_embed K _ lib svc.pf img hlib svc.config.detectThreshold
      svc.config.assistDetSize ratio ⟨0, 0⟩
    have hsees := hvision img svc.config.detectThreshold svc.config.assistDetSize ratio ⟨0, 0⟩
    rw [hrun] at hsees
    exact (Except.ok.inj hsees).symm
  rw [hfound, hfound, FaceModel.found_filter hlib]

theorem detectedFaces_withFloor (minFaceRatio : K) (index : SuggestionIndex K) (dets : List (Detection K)) :
    detectedFaces (svc.withFloor minFaceRatio) index dets = detectedFaces svc index dets := by
  induction dets with
  | nil => rfl
  | cons det dets ih =>
      simp only [detectedFaces, ih]
      rfl

/-- The loop of `detect_faces` over the faces that clear the floor. -/
theorem detectedFaces_filter (img : Image) (minFaceRatio : K) (index : SuggestionIndex K)
    {dets : List (Detection K)} {faces : List (DetectedFace K)}
    (h : detectedFaces svc index dets = .ok faces) :
    detectedFaces svc index (dets.filter (FaceModel.clears img minFaceRatio)) =
      .ok (faces.filter fun f => faceIsLargeEnough f.bbox img.height minFaceRatio) := by
  induction dets generalizing faces with
  | nil =>
      cases h
      rfl
  | cons det dets ih =>
      cases hbox : det.bbox with
      | none =>
          have hrest : detectedFaces svc index dets = .ok faces := by
            simpa only [detectedFaces, hbox] using h
          have hskip : FaceModel.clears img minFaceRatio det = true := by
            simp [FaceModel.clears, hbox]
          rw [List.filter_cons_of_pos hskip]
          simpa only [detectedFaces, hbox] using ih hrest
      | some bbox =>
          simp only [detectedFaces, hbox] at h
          obtain ⟨⟨cluster, sim⟩, hbest, h⟩ := Fallible.bind_eq_ok.mp h
          obtain ⟨rest, hrest, h⟩ := Fallible.bind_eq_ok.mp h
          cases h
          by_cases hlarge : faceIsLargeEnough bbox img.height minFaceRatio = true
          · have hclears : FaceModel.clears img minFaceRatio det = true := by
              simpa [FaceModel.clears, hbox] using hlarge
            rw [List.filter_cons_of_pos hclears]
            simp only [detectedFaces, hbox, hbest, ih hrest, Fallible.ok_bind, List.filter_cons, hlarge, ↓reduceIte]
          · have hclears : ¬ FaceModel.clears img minFaceRatio det = true := by
              simpa [FaceModel.clears, hbox] using hlarge
            rw [List.filter_cons_of_neg hclears, ih hrest]
            simp only [List.filter_cons, hlarge, Bool.false_eq_true, ↓reduceIte]

/-- **The floor changes nothing else about a paused frame**: whenever `detect_faces`
answers without it, it answers with it the same picture size and, in their order and
with their suggestions, the faces that are tall enough; it leaves the same world. -/
theorem detectFaces_with_floor (hlib : lib.Genuine) (hvision : svc.vision.Computed lib svc.pf)
    (auth : AuthContext) (file : Bytes) (minFaceRatio : K) {w w' : World K} {body : DetectBody K}
    (h : (detectFaces (svc.withFloor 0) auth file).exec (answer svc.pf oracle) w = (.ok body, w')) :
    (detectFaces (svc.withFloor minFaceRatio) auth file).exec (answer svc.pf oracle) w =
      (.ok { body with faces := body.faces.filter fun f => faceIsLargeEnough f.bbox body.height minFaceRatio },
        w') := by
  unfold detectFaces at h ⊢
  obtain ⟨img, w₁, himg, h⟩ := exec_bind_eq_ok.mp h
  obtain ⟨⟨⟩, w₂, hready, h⟩ := exec_bind_eq_ok.mp h
  obtain ⟨index, w₃, hindex, h⟩ := exec_bind_eq_ok.mp h
  obtain ⟨faces, w₄, hfaces, h⟩ := exec_bind_eq_ok.mp h
  rw [exec_lift, Prod.mk.injEq] at hfaces
  obtain ⟨hloop, rfl⟩ := hfaces
  cases h
  have hfloor : detectedFaces (svc.withFloor minFaceRatio) index (detectOn (svc.withFloor minFaceRatio) img) =
      .ok (faces.filter fun f => faceIsLargeEnough f.bbox img.height minFaceRatio) := by
    rw [detectedFaces_withFloor] at hloop ⊢
    rw [detectOn_withFloor hlib hvision]
    exact detectedFaces_filter img minFaceRatio index hloop
  apply exec_bind_eq_ok.mpr
  refine ⟨img, w₁, himg, exec_bind_eq_ok.mpr ⟨(), w₂, hready, exec_bind_eq_ok.mpr ⟨index, w', hindex, ?_⟩⟩⟩
  rw [exec_bind, exec_lift, hfloor]
  rfl

/-- A deployment with the two faces. -/
def twoFacesService : Service ℚ :=
  { sceneService [] with
    vision :=
      { (sceneService []).vision with
        embed := FaceModel.found FaceModel.twoFaceAnalysis Platform.exact
        dim := 2
        length_embedding := by
          intro img threshold size ratio det hdet
          obtain ⟨face, hface, hdet⟩ := List.mem_filterMap.mp hdet
          obtain ⟨hit, -, rfl⟩ := List.mem_map.mp hface
          exact FaceModel.detection_length hdet rfl } }

theorem computed_twoFacesService :
    twoFacesService.vision.Computed FaceModel.twoFaceAnalysis twoFacesService.pf := by
  intro img threshold size ratio s
  obtain ⟨s', hrun, -⟩ := @FaceModel.exec_embed ℚ _ _ Platform.exact img FaceModel.genuine_twoFaceAnalysis
    threshold size ratio s
  exact congrArg Prod.fst hrun

/-- Of the two faces of the frame the floor leaves one. -/
theorem detectFaces_with_floor_twoFaces : ∃ w',
    (detectFaces (twoFacesService.withFloor (1 / 5)) ⟨(Uuid.fill 1).text, none⟩ [0]).exec
      (answer twoFacesService.pf (sceneOracle 9)) sceneWorld =
        (.ok ⟨[⟨(10, 10, 50, 60), 9 / 10, none⟩], 100, 100⟩, w') := by
  have hplain : ((detectFaces (twoFacesService.withFloor 0) ⟨(Uuid.fill 1).text, none⟩ [0]).exec
      (answer twoFacesService.pf (sceneOracle 9)) sceneWorld).1 =
        .ok ⟨[⟨(10, 10, 50, 60), 9 / 10, none⟩, ⟨(70, 70, 80, 80), 8 / 10, none⟩], 100, 100⟩ := by
    decide +kernel
  have hfloor := detectFaces_with_floor FaceModel.genuine_twoFaceAnalysis computed_twoFacesService _ _ (1 / 5)
    (Prod.ext hplain rfl)
  have hfaces : ([⟨(10, 10, 50, 60), 9 / 10, none⟩, ⟨(70, 70, 80, 80), 8 / 10, none⟩] :
      List (DetectedFace ℚ)).filter (fun f => faceIsLargeEnough f.bbox 100 (1 / 5)) =
        [⟨(10, 10, 50, 60), 9 / 10, none⟩] := by
    decide +kernel
  rw [hfaces] at hfloor
  exact ⟨_, hfloor⟩

end Reader

end FacesService
