import FacesService.Model.Assist
import Mathlib.Algebra.Order.Field.Basic
import Mathlib.Order.Interval.Set.Basic
import Mathlib.Tactic.Linarith
import Mathlib.Tactic.NormNum
import Mathlib.Tactic.Ring

/-!
A box echoed back. The overlap of two boxes is a product of two lengths, one
for each axis, and what `iou` says of boxes is what the shared length says of
intervals. A box overlaps itself fully and no other box does, so the loop of
`attach_frame_face`, asked for the box of a detection, finds that box.
-/

namespace FacesService

variable {K : Type} [Field K] [LinearOrder K]

/-! ### One axis -/

/-- The length two intervals share. -/
def sharedLength (a₁ a₂ b₁ b₂ : K) : K := max 0 (min a₂ b₂ - max a₁ b₁)

section Axis

variable {a₁ a₂ b₁ b₂ : K}

theorem sharedLength_comm (a₁ a₂ b₁ b₂ : K) : sharedLength a₁ a₂ b₁ b₂ = sharedLength b₁ b₂ a₁ a₂ := by
  rw [sharedLength, sharedLength, min_comm, max_comm a₁ b₁]

theorem sharedLength_nonneg (a₁ a₂ b₁ b₂ : K) : 0 ≤ sharedLength a₁ a₂ b₁ b₂ := le_max_left _ _

theorem sharedLength_self (a₁ a₂ : K) : sharedLength a₁ a₂ a₁ a₂ = max 0 (a₂ - a₁) := by
  rw [sharedLength, min_self, max_self]

variable [IsStrictOrderedRing K]

theorem sharedLength_le (a₁ a₂ b₁ b₂ : K) : sharedLength a₁ a₂ b₁ b₂ ≤ max 0 (a₂ - a₁) := by
  refine max_le_max_left 0 ?_
  have hend : min a₂ b₂ ≤ a₂ := min_le_left _ _
  have hstart : a₁ ≤ max a₁ b₁ := le_max_left _ _
  linarith

/-- The intervals share a length if they share an inner point. -/
theorem sharedLength_pos_iff :
    0 < sharedLength a₁ a₂ b₁ b₂ ↔ ∃ x, (a₁ < x ∧ x < a₂) ∧ b₁ < x ∧ x < b₂ := by
  rw [sharedLength, lt_max_iff, or_iff_right (lt_irrefl 0), sub_pos]
  constructor
  · intro h
    obtain ⟨x, hstart, hend⟩ := exists_between h
    rw [max_lt_iff] at hstart
    rw [lt_min_iff] at hend
    exact ⟨x, ⟨hstart.1, hend.1⟩, hstart.2, hend.2⟩
  · rintro ⟨x, ⟨ha₁, ha₂⟩, hb₁, hb₂⟩
    exact (max_lt ha₁ hb₁).trans (lt_min ha₂ hb₂)

/-- An interval lies in another one if it shares its whole length with it. -/
theorem subset_of_sharedLength (hpos : 0 < sharedLength a₁ a₂ b₁ b₂)
    (h : sharedLength a₁ a₂ b₁ b₂ = max 0 (a₂ - a₁)) : b₁ ≤ a₁ ∧ a₂ ≤ b₂ := by
  have hshared : min a₂ b₂ - max a₁ b₁ = a₂ - a₁ := by
    have hpos' : 0 < max 0 (a₂ - a₁) := h ▸ hpos
    rw [sharedLength, lt_max_iff, or_iff_right (lt_irrefl 0)] at hpos
    rw [lt_max_iff, or_iff_right (lt_irrefl 0)] at hpos'
    rw [sharedLength, max_eq_right hpos.le, max_eq_right hpos'.le] at h
    exact h
  have hend : min a₂ b₂ ≤ a₂ := min_le_left _ _
  have hstart : a₁ ≤ max a₁ b₁ := le_max_left _ _
  have hend' : min a₂ b₂ ≤ b₂ := min_le_right _ _
  have hstart' : b₁ ≤ max a₁ b₁ := le_max_right _ _
  constructor
  · linarith
  · linarith

end Axis

/-! ### Boxes -/

/-- A box `[x1, y1, x2, y2]`. -/
abbrev Box (K : Type) := K × K × K × K

/-- The points strictly between the sides. -/
def Box.interior (b : Box K) : Set (K × K) := Set.Ioo b.1 b.2.2.1 ×ˢ Set.Ioo b.2.1 b.2.2.2

/-- The right side is right of the left one, and the lower side below the upper one. -/
def Box.PositiveArea (b : Box K) : Prop := b.1 < b.2.2.1 ∧ b.2.1 < b.2.2.2

/-- The area as `iou` counts it. -/
def Box.area (b : Box K) : K := max 0 (b.2.2.1 - b.1) * max 0 (b.2.2.2 - b.2.1)

/-- The area two boxes share. -/
def Box.common (a b : Box K) : K :=
  sharedLength a.1 a.2.2.1 b.1 b.2.2.1 * sharedLength a.2.1 a.2.2.2 b.2.1 b.2.2.2

namespace Box

variable {a b : Box K}

theorem common_comm (a b : Box K) : common a b = common b a := by
  rw [common, common, sharedLength_comm a.1, sharedLength_comm a.2.1]

theorem common_self (a : Box K) : common a a = a.area := by
  rw [common, area, sharedLength_self, sharedLength_self]

theorem iou_of_not_common (h : ¬ 0 < common a b) : iou a b = 0 := if_pos (not_lt.mp h)

variable [IsStrictOrderedRing K]

theorem common_le_area (a b : Box K) : common a b ≤ a.area :=
  mul_le_mul (sharedLength_le _ _ _ _) (sharedLength_le _ _ _ _) (sharedLength_nonneg _ _ _ _)
    (le_max_left _ _)

theorem common_pos_iff : 0 < common a b ↔
    0 < sharedLength a.1 a.2.2.1 b.1 b.2.2.1 ∧ 0 < sharedLength a.2.1 a.2.2.2 b.2.1 b.2.2.2 := by
  constructor
  · intro h
    have hx := sharedLength_nonneg a.1 a.2.2.1 b.1 b.2.2.1
    have hy := sharedLength_nonneg a.2.1 a.2.2.2 b.2.1 b.2.2.2
    exact ⟨pos_of_mul_pos_left h hy, pos_of_mul_pos_right h hx⟩
  · exact fun h => mul_pos h.1 h.2

/-- Boxes share an area if they share an inner point. -/
theorem common_pos_iff_interior : 0 < common a b ↔ (a.interior ∩ b.interior).Nonempty := by
  rw [common_pos_iff, sharedLength_pos_iff, sharedLength_pos_iff]
  constructor
  · rintro ⟨⟨x, hax, hbx⟩, y, hay, hby⟩
    exact ⟨(x, y), ⟨hax, hay⟩, hbx, hby⟩
  · rintro ⟨⟨x, y⟩, ⟨hax, hay⟩, hbx, hby⟩
    exact ⟨⟨x, hax, hbx⟩, y, hay, hby⟩

theorem area_pos (h : a.PositiveArea) : 0 < a.area :=
  mul_pos (lt_max_of_lt_right (sub_pos.mpr h.1)) (lt_max_of_lt_right (sub_pos.mpr h.2))

/-- Boxes that share all of their area are one box. -/
theorem eq_of_common (hpos : 0 < common a b) (ha : common a b = a.area) (hb : common a b = b.area) :
    a = b := by
  have hsides : ∀ {a b : Box K}, 0 < common a b → common a b = a.area →
      (b.1 ≤ a.1 ∧ a.2.2.1 ≤ b.2.2.1) ∧ b.2.1 ≤ a.2.1 ∧ a.2.2.2 ≤ b.2.2.2 := by
    intro a b hpos ha
    obtain ⟨hx, hy⟩ := common_pos_iff.mp hpos
    -- neither factor exceeds its bound, so both reach it
    have heq := (mul_eq_mul_iff_eq_and_eq_of_pos (sharedLength_le _ _ _ _) (sharedLength_le _ _ _ _)
      hx (lt_of_lt_of_le hy (sharedLength_le _ _ _ _))).mp ha
    exact ⟨subset_of_sharedLength hx heq.1, subset_of_sharedLength hy heq.2⟩
  have hab := hsides hpos ha
  rw [common_comm] at hpos hb
  have hba := hsides hpos hb
  refine Prod.ext ?_ (Prod.ext ?_ (Prod.ext ?_ ?_))
  · exact le_antisymm hba.1.1 hab.1.1
  · exact le_antisymm hba.2.1 hab.2.1
  · exact le_antisymm hab.1.2 hba.1.2
  · exact le_antisymm hab.2.2 hba.2.2

/-! ### Intersection over union -/

theorem union_pos (h : 0 < common a b) : 0 < a.area + b.area - common a b := by
  have ha := common_le_area a b
  have hb := common_le_area b a
  rw [common_comm] at hb
  linarith

theorem iou_of_common (h : 0 < common a b) :
    iou a b = common a b / (a.area + b.area - common a b) := by
  have hdef : iou a b = if common a b ≤ 0 then 0
      else if 0 < a.area + b.area - common a b then common a b / (a.area + b.area - common a b)
        else 0 := rfl
  rw [hdef, if_neg (not_le.mpr h), if_pos (union_pos h)]

theorem iou_comm (a b : Box K) : iou a b = iou b a := by
  by_cases h : 0 < common a b
  · have h' : 0 < common b a := common_comm a b ▸ h
    rw [iou_of_common h, iou_of_common h', common_comm, add_comm]
  · have h' : ¬ 0 < common b a := common_comm a b ▸ h
    rw [iou_of_not_common h, iou_of_not_common h']

theorem iou_nonneg (a b : Box K) : 0 ≤ iou a b := by
  by_cases h : 0 < common a b
  · rw [iou_of_common h]
    exact div_nonneg h.le (union_pos h).le
  · rw [iou_of_not_common h]

theorem iou_le_one (a b : Box K) : iou a b ≤ 1 := by
  by_cases h : 0 < common a b
  · rw [iou_of_common h, div_le_one (union_pos h)]
    have ha := common_le_area a b
    have hb := common_le_area b a
    rw [common_comm] at hb
    linarith
  · rw [iou_of_not_common h]
    exact zero_le_one

theorem iou_pos_iff : 0 < iou a b ↔ (a.interior ∩ b.interior).Nonempty := by
  rw [← common_pos_iff_interior]
  by_cases h : 0 < common a b
  · rw [iou_of_common h]
    exact ⟨fun _ => h, fun _ => div_pos h (union_pos h)⟩
  · rw [iou_of_not_common h]
    exact ⟨fun h0 => absurd h0 (lt_irrefl 0), fun h' => absurd h' h⟩

theorem eq_of_iou (h : iou a b = 1) : a = b := by
  by_cases hpos : 0 < common a b
  · rw [iou_of_common hpos, div_eq_one_iff_eq (union_pos hpos).ne'] at h
    have ha := common_le_area a b
    have hb := common_le_area b a
    rw [common_comm] at hb
    exact eq_of_common hpos (by linarith) (by linarith)
  · rw [iou_of_not_common hpos] at h
    exact absurd h zero_ne_one

theorem iou_self (h : a.PositiveArea) : iou a a = 1 := by
  have hpos : 0 < common a a := (common_self a).symm ▸ area_pos h
  rw [iou_of_common hpos, common_self, add_sub_cancel_right, div_self (area_pos h).ne']

end Box

namespace Reader

/-! ### The selection loop -/

/-- What the loop knows after the detections `seen`: its score is that of its
detection, and no box seen scores more. -/
structure Leading (box : Box K) (seen : List (Detection K)) (best : Option (Detection K) × K) : Prop where
  nonneg : 0 ≤ best.2
  start : best.1 = none → best.2 = 0
  scored : ∀ det, best.1 = some det → det ∈ seen ∧ ∃ b, det.bbox = some b ∧ iou b box = best.2
  above : ∀ det ∈ seen, ∀ b, det.bbox = some b → iou b box ≤ best.2

theorem bestBox_append (box : Box K) (dets : List (Detection K)) (det : Detection K) :
    bestBox box (dets ++ [det]) =
      det.bbox.elim (bestBox box dets) fun b =>
        if (bestBox box dets).2 < iou b box then (some det, iou b box) else bestBox box dets := by
  rw [bestBox, List.foldl_append, ← bestBox, List.foldl_cons, List.foldl_nil]
  cases det.bbox <;> rfl

theorem Leading.skip {box : Box K} {seen : List (Detection K)} {best : Option (Detection K) × K}
    (h : Leading box seen best) {det : Detection K} (hle : ∀ b, det.bbox = some b → iou b box ≤ best.2) :
    Leading box (seen ++ [det]) best where
  nonneg := h.nonneg
  start := h.start
  scored d hd := ⟨List.mem_append_left _ (h.scored d hd).1, (h.scored d hd).2⟩
  above d hd b hb := by
    rcases List.mem_append.mp hd with hd | hd
    · exact h.above d hd b hb
    · rw [List.mem_singleton.mp hd] at hb
      exact hle b hb

theorem Leading.take {box : Box K} {seen : List (Detection K)} {best : Option (Detection K) × K}
    (h : Leading box seen best) {det : Detection K} {b : Box K} (hb : det.bbox = some b)
    (hlt : best.2 < iou b box) : Leading box (seen ++ [det]) (some det, iou b box) where
  nonneg := h.nonneg.trans hlt.le
  start h := by cases h
  scored d hd := by
    cases hd
    exact ⟨List.mem_append_right _ List.mem_cons_self, b, hb, rfl⟩
  above d hd b' hb' := by
    rcases List.mem_append.mp hd with hd | hd
    · exact (h.above d hd b' hb').trans hlt.le
    · rw [List.mem_singleton.mp hd, hb] at hb'
      cases hb'
      exact le_refl _

/-- The loop keeps the best box, the induction being on the detections seen. -/
theorem bestBox_leading (box : Box K) (dets : List (Detection K)) :
    Leading box dets (bestBox box dets) := by
  induction dets using List.reverseRecOn with
  | nil => exact ⟨le_refl _, fun _ => rfl, fun det h => (by cases h), fun det h => (by cases h)⟩
  | append_singleton dets det ih =>
      rw [bestBox_append]
      cases hbox : det.bbox with
      | none => exact ih.skip fun b hb => by rw [hbox] at hb; cases hb
      | some b =>
          rw [Option.elim_some]
          by_cases hlt : (bestBox box dets).2 < iou b box
          · rw [if_pos hlt]
            exact ih.take hbox hlt
          · rw [if_neg hlt]
            refine ih.skip fun b' hb' => ?_
            rw [hbox] at hb'
            cases hb'
            exact not_lt.mp hlt

variable [IsStrictOrderedRing K]

/-- Asked for the box of a detection, the loop finds that box. -/
theorem faceInBox_of_mem {box : Box K} (harea : box.PositiveArea) {dets : List (Detection K)}
    {det : Detection K} (hdet : det ∈ dets) (hbox : det.bbox = some box) :
    ∃ found ∈ dets, faceInBox box dets = .ok found ∧ found.bbox = some box := by
  have hleading := bestBox_leading box dets
  have hone : 1 ≤ (bestBox box dets).2 := Box.iou_self harea ▸ hleading.above det hdet box hbox
  have hhalf : ¬ (bestBox box dets).2 < 1 / 2 := by linarith
  unfold faceInBox
  rcases hbest : bestBox box dets with ⟨_ | found, score⟩
  · have hzero := hleading.start (by rw [hbest])
    linarith
  · rw [hbest] at hleading hone hhalf
    obtain ⟨hmem, b, hb, hscore⟩ := hleading.scored found rfl
    have heq : b = box := Box.eq_of_iou (le_antisymm (Box.iou_le_one b box) (hscore.symm ▸ hone))
    exact ⟨found, hmem, if_neg hhalf, heq ▸ hb⟩

/-- `iou` is a measure of overlap, and a detection whose box the client sends
back is found again. -/
theorem echoed_box_found :
    (∀ a b : Box K, iou a b = iou b a ∧ 0 ≤ iou a b ∧ iou a b ≤ 1 ∧
      (0 < iou a b ↔ (a.interior ∩ b.interior).Nonempty) ∧
      (a.PositiveArea → b.PositiveArea → (iou a b = 1 ↔ a = b))) ∧
    ∀ (dets : List (Detection K)) (det : Detection K) (box : Box K), det ∈ dets →
      det.bbox = some box → box.PositiveArea →
      ∃ found ∈ dets, faceInBox box dets = .ok found ∧ found.bbox = some box := by
  refine ⟨fun a b => ⟨Box.iou_comm a b, Box.iou_nonneg a b, Box.iou_le_one a b, Box.iou_pos_iff,
    fun ha _ => ⟨Box.eq_of_iou, ?_⟩⟩, fun dets det box hdet hbox harea => ?_⟩
  · rintro rfl
    exact Box.iou_self ha
  · exact faceInBox_of_mem harea hdet hbox

/-- Two faces side by side, a third detection without a box: each echoed box
leads back to its face. -/
theorem echoed_box_found_second :
    iou ((0, 0, 10, 10) : Box ℚ) (5, 0, 15, 10) = 1 / 3 ∧
      ∃ found ∈ [⟨[1], 1, some (0, 0, 10, 10)⟩, ⟨[3], 1, none⟩, ⟨[2], 1, some (5, 0, 15, 10)⟩],
        faceInBox ((5, 0, 15, 10) : Box ℚ)
          [⟨[1], 1, some (0, 0, 10, 10)⟩, ⟨[3], 1, none⟩, ⟨[2], 1, some (5, 0, 15, 10)⟩] = .ok found ∧
        found.bbox = some (5, 0, 15, 10) := by
  refine ⟨by decide +kernel, (echoed_box_found (K := ℚ)).2 _ ⟨[2], 1, some (5, 0, 15, 10)⟩ _ ?_ rfl
    ⟨by norm_num, by norm_num⟩⟩
  simp

end Reader

end FacesService
