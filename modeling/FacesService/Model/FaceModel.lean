import FacesService.Model.Service

/-!
`app/model.py`: what `FaceModel` makes of insightface. The library is called upon to
detect faces and to recognize each of them, or to do both in one; what it finds is a
parameter (`FaceAnalysis`), and so is its own loop, of which `Genuine` says what is
relied on. `_load` is left out: the library is there.
-/

namespace FacesService

open Prog

variable {K : Type}

/-- A row of `bboxes` with its row of `kpss`, if there are any. -/
structure Hit (K : Type) where
  bbox : K × K × K × K
  detScore : K
  kps : Option (List (K × K))
  deriving DecidableEq

/-- A `Face`; a `bbox` that is not four numbers is `none`. -/
structure Face (K : Type) where
  bbox : Option (K × K × K × K)
  kps : Option (List (K × K))
  detScore : Option K
  embedding : Option (List K)
  deriving DecidableEq

/-- `self._face_cls(bbox=…, kps=…, det_score=…)`. -/
def Face.ofHit (h : Hit K) : Face K where
  bbox := some h.bbox
  kps := h.kps
  detScore := some h.detScore
  embedding := none

/-! ### The library -/

inductive FaceCall (K : Type)
  | setDetThresh (threshold : K)
  | get (img : Image)
  | detect (img : Image) (inputSize : Option (ℕ × ℕ))
  /-- `model.get(img, face)` for the model of this task -/
  | modelGet (taskname : String) (img : Image) (face : Face K)

@[reducible] def FaceCall.Answer : FaceCall K → Type
  | setDetThresh _ => Unit
  | get _ => List (Face K)
  | detect .. => List (Hit K)
  | modelGet .. => Face K

abbrev FaceProgram (K α : Type) := Prog (FaceCall K) FaceCall.Answer PyError α

/-- One call, as a program. -/
abbrev faceCall (c : FaceCall K) : FaceProgram K c.Answer := perform c

/-- The models that are loaded, and what each of them finds under a threshold. -/
structure FaceAnalysis (K : Type) where
  models : List String
  detect : K → Image → Option (ℕ × ℕ) → List (Hit K)
  modelGet : String → Image → Face K → Face K
  get : K → Image → List (Face K)

/-- `det_thresh`, and the runs of a model on a face so far. -/
structure FaceState (K : Type) where
  detThresh : K
  modelRuns : ℕ
  deriving DecidableEq

def FaceAnalysis.answer (lib : FaceAnalysis K) : Handler (FaceCall K) FaceCall.Answer PyError (FaceState K)
  | .setDetThresh threshold, s => (.ok (), { s with detThresh := threshold })
  | .get img, s => (.ok (lib.get s.detThresh img), s)
  | .detect img inputSize, s => (.ok (lib.detect s.detThresh img inputSize), s)
  | .modelGet taskname img face, s =>
      (.ok (lib.modelGet taskname img face), { s with modelRuns := s.modelRuns + 1 })

/-- The tasks after detection. -/
def FaceAnalysis.tasks (lib : FaceAnalysis K) : List String := lib.models.filter (· ≠ "detection")

/-- Every model but the detector on one face. -/
def FaceAnalysis.recognized (lib : FaceAnalysis K) (img : Image) (face : Face K) : Face K :=
  lib.tasks.foldl (fun face taskname => lib.modelGet taskname img face) face

/-- `FaceAnalysis.get` detects at the size it was prepared for, which is what the
detector takes for no size, and has every hit recognized; a model fills in what it
recognizes and leaves box and score. -/
structure FaceAnalysis.Genuine (lib : FaceAnalysis K) : Prop where
  get_eq : ∀ threshold img, lib.get threshold img =
    (lib.detect threshold img none).map fun h => lib.recognized img (.ofHit h)
  bbox : ∀ taskname img face, (lib.modelGet taskname img face).bbox = face.bbox

/-! ### `FaceModel` -/

namespace FaceModel

variable [Arithmetic K]

/-- `for taskname, model in app.models.items(): …`. -/
def recognize (img : Image) (face : Face K) (taskname : String) : FaceProgram K (Face K) :=
  if taskname = "detection" then pure face else faceCall (.modelGet taskname img face)

/-- One round of the loop over the boxes. -/
def detectHit (models : List String) (img : Image) (minFaceRatio : K) (out : List (Face K)) (h : Hit K) :
    FaceProgram K (List (Face K)) :=
  if !faceIsLargeEnough h.bbox img.height minFaceRatio then pure out
  else do
    let face ← models.foldlM (recognize img) (.ofHit h)
    return out ++ [face]

/-- `_detect`. -/
def detect (models : List String) (img : Image) (detSize : Option (ℕ × ℕ)) (minFaceRatio : K) :
    FaceProgram K (List (Face K)) :=
  if detSize = none ∧ minFaceRatio ≤ 0 then faceCall (.get img)
  else do
    let hits ← faceCall (.detect img detSize)
    hits.foldlM (detectHit models img minFaceRatio) []

/-- The body of the loop of `embed`: a detection of a face, or `continue`. -/
def detection (pf : Platform K) (f : Face K) : Option (Detection K) :=
  match f.embedding, f.detScore with
  | some embedding, some detScore =>
      let emb := asFloat32 pf embedding
      let n := norm pf emb
      if n = 0 ∨ ((100 : ℕ) : K) < n then none
      else some ⟨asFloat32 pf (emb.map (· / n)), detScore, f.bbox⟩
  | _, _ => none

/-- `embed`. -/
def embed (pf : Platform K) (models : List String) (img : Image) (detectThreshold : K) (detSize : ℕ)
    (minFaceRatio : K) : FaceProgram K (List (Detection K)) := do
  faceCall (.setDetThresh detectThreshold)
  let size := if detSize = 0 then none else some (detSize, detSize)
  let faces ← detect models img size minFaceRatio
  return faces.filterMap (detection pf)

end FaceModel

end FacesService
