import FacesService.Base.HalfEven
import FacesService.Model.Assist
import FacesService.Store.Calls
import FacesService.Store.Conservation

/-!
From the time of a sighting back to its frame. The batch pipeline writes the
middle of the interval a frame stands for; `_sample_frame_index` finds the
interval again, also after a merge has nudged the time, as long as there are not
so many sightings that the nudges could add up to half an interval.
-/

namespace FacesService.Reader

open Database Db

variable {svc : Service ℚ}

/-- `round(x)` on exact numbers. -/
def ExactRound (pf : Platform ℚ) : Prop := ∀ x, pf.round x = roundHalfEven x

theorem ExactRound.sampleFrameIndex_eq (h : ExactRound svc.pf) (t : ℚ) :
    sampleFrameIndex svc t = HalfEven.nearest (t / 5 - 1 / 2) := h _

/-! ### One time -/

theorem sampleFrameIndex_nonneg (hround : ExactRound svc.pf) {t : ℚ} (ht : 0 ≤ t) :
    0 ≤ sampleFrameIndex svc t := by
  rw [hround.sampleFrameIndex_eq]
  apply HalfEven.nearest_nonneg
  linarith

/-- The time is in the interval the index stands for. -/
theorem abs_sub_sampleFrameIndex_le (hround : ExactRound svc.pf) (t : ℚ) :
    |t - ((sampleFrameIndex svc t : ℚ) + 1 / 2) * 5| ≤ 5 / 2 := by
  have hnear := abs_le.mp (HalfEven.abs_sub_nearest_le (t / 5 - 1 / 2))
  rw [hround.sampleFrameIndex_eq, abs_le]
  constructor
  · linarith [hnear.1]
  · linarith [hnear.2]

/-- Up to half an interval after its middle the index is the same. -/
theorem sampleFrameIndex_later (hround : ExactRound svc.pf) (idx : ℕ) {delay : ℚ} (h₀ : 0 ≤ delay)
    (h : delay < 5 / 2) : sampleFrameIndex svc (sampleTime idx + delay) = idx := by
  rw [hround.sampleFrameIndex_eq]
  apply HalfEven.nearest_eq
  have hoffset : (sampleTime idx + delay) / 5 - 1 / 2 - ((idx : ℤ) : ℚ) = delay / 5 := by
    show (((idx : ℚ) + 1 / 2) * 5 + delay) / 5 - 1 / 2 - ((idx : ℤ) : ℚ) = delay / 5
    push_cast
    ring
  rw [hoffset, abs_of_nonneg (by positivity)]
  linarith

theorem sampleFrameIndex_sampleTime (hround : ExactRound svc.pf) (idx : ℕ) :
    sampleFrameIndex svc (sampleTime idx) = idx := by
  have h := sampleFrameIndex_later hround idx (le_refl 0) (by norm_num)
  rwa [add_zero] at h

/-! ### A merge -/

/-- The copy of a row, and that it still points to the frame of the row if the
merged clusters have fewer than `25000` rows in its stream. -/
structure SameFrame (svc : Service ℚ) (target : Uuid) (rowsIn : Uuid → ℕ) (r o : Occurrence ℚ) :
    Prop where
  copy : ∃ (now : ℕ) (owner : Uuid) (k : ℕ),
    o = movedRow svc.pf now owner target r (r.tSeconds + k / 10000)
  frame : rowsIn r.streamId < 25000 → ∀ idx : ℕ, r.tSeconds = sampleTime idx →
    sampleFrameIndex svc o.tSeconds = idx

theorem sameFrame_of_copied (hround : ExactRound svc.pf) (htimes : ExactTimes svc.pf) {now : ℕ}
    {owner target : Uuid} {bound : Uuid → ℕ} {r o : Occurrence ℚ}
    (h : CopiedAs svc.pf now owner target bound r o) : SameFrame svc target bound r o := by
  obtain ⟨k, hk, rfl⟩ := h
  rw [htimes.iterate]
  refine ⟨⟨now, owner, k, rfl⟩, fun hfew idx hidx => ?_⟩
  show sampleFrameIndex svc (r.tSeconds + k / 10000) = idx
  rw [hidx]
  have hk' : (k : ℚ) < 25000 := by exact_mod_cast lt_of_le_of_lt hk hfew
  apply sampleFrameIndex_later hround idx
  · positivity
  · linarith

/-- A sighting still points to its frame after a merge. -/
theorem sighting_keeps_frame (hround : ExactRound svc.pf) (htimes : ExactTimes svc.pf) :
    (∀ t : ℚ, 0 ≤ t → 0 ≤ sampleFrameIndex svc t ∧
      |t - ((sampleFrameIndex svc t : ℚ) + 1 / 2) * 5| ≤ 5 / 2) ∧
    (∀ idx : ℕ, sampleFrameIndex svc (sampleTime idx) = idx) ∧
    ∀ now db ownerId targetId sourceIds c m target,
      mergeClusters svc.pf now db ownerId targetId sourceIds = .ok c → c.result = some m →
      castUuid targetId = .ok target →
      (target ∉ denoted sourceIds → ∃ moved added,
        moved.Perm (db.occurrences.filter fun o => o.clusterId ∈ denoted sourceIds) ∧
        c.db.occurrences =
          (db.occurrences.filter fun o => o.clusterId ∉ denoted sourceIds) ++ added ∧
        List.Forall₂ (SameFrame svc target (sightingsIn db (target :: denoted sourceIds)))
          moved added) ∧
      (target ∈ denoted sourceIds → c.db.occurrences ⊆ db.occurrences) := by
  refine ⟨fun t ht => ⟨sampleFrameIndex_nonneg hround ht, abs_sub_sampleFrameIndex_le hround t⟩,
    sampleFrameIndex_sampleTime hround, ?_⟩
  intro now db ownerId targetId sourceIds c m target hok hm htarget
  obtain ⟨target', row, affected, st, hown, hsources, hst, hdb, -⟩ := mergeClusters_some hok hm
  cases htarget.symm.trans hown.cast
  constructor
  · intro hne
    obtain ⟨c', m', moved, added, db₁, hok', -, hshift, hdb₁⟩ :=
      mergeClusters_shifts htimes.ends now hown hsources hne
    cases hok.symm.trans hok'
    refine ⟨moved, added, hshift.rows, ?_, hshift.copies.imp fun r o => sameFrame_of_copied hround htimes⟩
    rw [hdb₁, recount, occurrences_updateClusters, hshift.occurrences]
  · intro hself o ho
    rw [hdb, recount, occurrences_updateClusters] at ho
    exact (mergeSources_self hself hst o ho).2

/-- Two sightings on the first frame, in clusters that are merged. -/
theorem sighting_keeps_frame_sameInstant : ∃ c m moved added,
    mergeClusters Platform.exact 3 sameInstant (Uuid.fill 1).text (Uuid.fill 3).text
      [(Uuid.fill 4).text] = .ok c ∧ c.result = some m ∧
    moved.Perm (sameInstant.occurrences.filter fun o => o.clusterId ∈ denoted [(Uuid.fill 4).text]) ∧
    List.Forall₂ (SameFrame (sceneService [[(1, 0)]]) (.fill 3)
      (sightingsIn sameInstant (.fill 3 :: denoted [(Uuid.fill 4).text]))) moved added := by
  have hne : Uuid.fill 3 ∉ denoted [(Uuid.fill 4).text] := by decide
  have hgoes : ((mergeClusters Platform.exact 3 sameInstant (Uuid.fill 1).text (Uuid.fill 3).text
      [(Uuid.fill 4).text]).toOption.bind (·.result)).isSome := by
    decide +kernel
  obtain ⟨c, m, hok, hm⟩ := exists_merged hgoes
  have hmerge := (@sighting_keeps_frame (sceneService [[(1, 0)]]) (fun _ => rfl) fun _ => rfl).2.2
  obtain ⟨moved, added, hrows, -, hframes⟩ :=
    (hmerge _ _ _ _ _ _ _ _ hok hm (Uuid.castUuid_text _)).1 hne
  exact ⟨c, m, moved, added, hok, hm, hrows, hframes⟩

end FacesService.Reader
