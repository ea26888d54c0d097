import FacesService.Base.Binary64
import FacesService.Store.Slots

/-!
The nudge loop of `merge_clusters` on binary64 times. Below `2 ^ 40` the last bit
of a time is worth less than twice `1e-4`, so every round moves on; from `2 ^ 40`
on it is worth more, and a round leaves the time as it is. `attach_frame_face`
checks that a time is a finite number and not negative, and admits both kinds.
-/

namespace FacesService

open Database Db Fallible Floating Probe

/-! ### One round -/

/-- The literal `1e-4`. -/
def nudgeStep : Binary64 :=
  .nearest (1 / 10000) (by
    rw [abs_of_pos (by norm_num)]
    exact le_trans (by norm_num) (Binary64.two_zpow_le_largest (e := 0) (by decide)))

theorem nudgeStep_bounds : 1 / 2 ^ 14 < nudgeStep.value ∧ nudgeStep.value < 1 / 2 ^ 13 := by
  have hplace : lastPlace 53 (-1074) (1 / 10000 : ℚ) = -66 :=
    lastPlace_eq (L := -14) (by norm_num) (by norm_num) (by decide)
  have hround := abs_le.mp (abs_sub_round_le 53 (-1074) (1 / 10000 : ℚ))
  rw [hplace] at hround
  have hvalue : nudgeStep.value = round 53 (-1074) (1 / 10000) := rfl
  rw [hvalue]
  norm_num at hround ⊢
  constructor
  · linarith [hround.2]
  · linarith [hround.1]

/-- From here on a time does not move. -/
def stuckFrom : ℚ := 2 ^ (40 : ℤ)

theorem round_add_step_eq {t : Binary64} (ht : stuckFrom ≤ t.value) :
    round 53 (-1074) (t.value + nudgeStep.value) = t.value := by
  obtain ⟨hlow, hhigh⟩ := nudgeStep_bounds
  have hpos : 0 < t.value := lt_of_lt_of_le (two_zpow_pos 40) ht
  set L := Int.log 2 t.value with hL
  have hfrom : (2 : ℚ) ^ L ≤ t.value := by
    exact_mod_cast Int.zpow_log_le_self one_lt_two hpos
  have hto : t.value < 2 ^ (L + 1) := by
    exact_mod_cast Int.lt_zpow_succ_log_self one_lt_two t.value
  have hL40 : 40 ≤ L := (Int.zpow_le_iff_le_log one_lt_two hpos).mp (by exact_mod_cast ht)
  -- the last bit of the time, and what there is up to the next power of two
  have hbit : (1 / 2 ^ 12 : ℚ) ≤ 2 ^ (L - 53 + 1) :=
    le_trans (by norm_num) (two_zpow_le (show -12 ≤ L - 53 + 1 by omega))
  have hroom : t.value + 2 ^ (L - 53 + 1) ≤ 2 ^ (L + 1) :=
    t.isFloat.add_le (by decide) hpos.le hto
  obtain ⟨n, hn⟩ := t.isFloat.exists_eq_mul (L := L) (by rwa [abs_of_pos hpos])
  have hplace : lastPlace 53 (-1074) (t.value + nudgeStep.value) = L - 53 + 1 := by
    refine lastPlace_eq ?_ ?_ (by omega)
    · linarith
    · linarith
  apply round_add_eq (n := n)
  · rw [hplace]
    exact hn
  · rw [hplace, abs_of_pos (by linarith)]
    linarith

/-- Below it every round is a step forward. -/
theorem lt_round_add_step {t : Binary64} (h₀ : 0 ≤ t.value) (ht : t.value < stuckFrom) :
    t.value < round 53 (-1074) (t.value + nudgeStep.value) := by
  obtain ⟨hlow, hhigh⟩ := nudgeStep_bounds
  have habs : |t.value + nudgeStep.value| = t.value + nudgeStep.value := abs_of_pos (by linarith)
  have hroom : t.value + 1 / 2 ^ 13 ≤ 2 ^ (40 : ℤ) :=
    le_trans (by norm_num) (t.isFloat.add_le (L := 39) (by decide) h₀ ht)
  have hplace : lastPlace 53 (-1074) (t.value + nudgeStep.value) ≤ -13 := by
    refine lastPlace_le (L := 39) ?_ ?_ (by decide)
    · rw [habs]
      linarith
    · rw [habs]
      show _ < (2 : ℚ) ^ (40 : ℤ)
      linarith
  have hbit : (2 : ℚ) ^ lastPlace 53 (-1074) (t.value + nudgeStep.value) ≤ 1 / 2 ^ 13 :=
    le_trans (two_zpow_le hplace) (by norm_num)
  have hround := abs_le.mp (abs_sub_round_le 53 (-1074) (t.value + nudgeStep.value))
  linarith [hround.2]

theorem finite_add_step (t : Binary64) :
    |round 53 (-1074) (t.value + nudgeStep.value)| ≤ Binary64.largest := by
  rcases lt_or_ge t.value stuckFrom with ht | ht
  · apply Binary64.finite_round
    obtain ⟨hlow, hhigh⟩ := nudgeStep_bounds
    have hlarge : (2 : ℚ) ^ (40 : ℤ) + 1 / 2 ^ 13 ≤ Binary64.largest :=
      le_trans (by norm_num) (Binary64.two_zpow_le_largest (show (41 : ℤ) ≤ 1023 by decide))
    have ht' : t.value < 2 ^ (40 : ℤ) := ht
    rw [abs_le]
    constructor
    · linarith [(abs_le.mp t.finite).1]
    · linarith
  · rw [round_add_step_eq ht]
    exact t.finite

/-- `t += 1e-4`. -/
def nudged (t : Binary64) : Binary64 where
  value := round 53 (-1074) (t.value + nudgeStep.value)
  isFloat := isFloat_round (by decide) _ _
  finite := finite_add_step t

/-- The sum is never too large. -/
theorem add_nudgeStep (t : Binary64) : t.add nudgeStep = some (nudged t) :=
  dif_pos (finite_add_step t)

theorem nudged_eq {t : Binary64} (ht : stuckFrom ≤ t.value) : nudged t = t :=
  Binary64.ext (round_add_step_eq ht)

theorem lt_nudged {t : Binary64} (h₀ : 0 ≤ t.value) (ht : t.value < stuckFrom) :
    t.value < (nudged t).value :=
  lt_round_add_step h₀ ht

theorem le_nudged {t : Binary64} (h₀ : 0 ≤ t.value) : t.value ≤ (nudged t).value := by
  rcases lt_or_ge t.value stuckFrom with ht | ht
  · exact (lt_nudged h₀ ht).le
  · rw [nudged_eq ht]

theorem le_iterate_nudged {t : Binary64} (h₀ : 0 ≤ t.value) (k : ℕ) :
    t.value ≤ (nudged^[k] t).value := by
  induction k with
  | zero => exact le_refl _
  | succ k ih =>
      rw [Function.iterate_succ_apply']
      exact ih.trans (le_nudged (h₀.trans ih))

/-! ### The loop -/

/-- `while t in occ_cache[stream_id]: t += 1e-4` ends, in a free time that is not
before the first. -/
def NudgeLoopEnds (occupied : List Binary64) (t : Binary64) : Prop :=
  ∃ t', probe nudged occupied t = some t' ∧ t' ∉ occupied ∧ t.value ≤ t'.value

theorem nudgeLoopEnds_iff {occupied : List Binary64} {t : Binary64} (h₀ : 0 ≤ t.value) :
    NudgeLoopEnds occupied t ↔ ∃ t', probe nudged occupied t = some t' := by
  constructor
  · rintro ⟨t', h, -⟩
    exact ⟨t', h⟩
  · rintro ⟨t', h⟩
    obtain ⟨hfree, k, -, rfl, -⟩ := probeFrom_eq_some h
    exact ⟨_, h, hfree, le_iterate_nudged h₀ k⟩

/-- A merge hangs on a row exactly if the loop does not end for it. -/
theorem moveRow_hangs_iff {pf : Platform Binary64} (hnudge : pf.nudge = nudged) (now : ℕ)
    (owner target : Uuid) (st : MergeState Binary64) {r : Occurrence Binary64}
    (h₀ : 0 ≤ r.tSeconds.value) :
    moveRow pf now owner target st r = .error .hangs ↔
      ¬ NudgeLoopEnds (st.timesIn target r.streamId) r.tSeconds := by
  rw [nudgeLoopEnds_iff h₀]
  unfold moveRow
  simp only [hnudge]
  cases hprobe : probe nudged (st.timesIn target r.streamId) r.tSeconds with
  | none => simp
  | some t =>
      refine iff_of_false (fun herror => ?_) (by simp)
      rcases bind_eq_error.mp herror with herror | ⟨db, -, herror⟩
      · cases insertOccurrence_error herror
      · cases herror

/-- When the loop ends: one time among the first and those it is nudged to is
free, up to the first from `2 ^ 40` on. It ends for every time exactly if no
occupied time is from there on. -/
theorem nudge_loop_ends_iff (occupied : List Binary64) :
    (∀ t : Binary64, 0 ≤ t.value → (NudgeLoopEnds occupied t ↔
      ∃ k, nudged^[k] t ∉ occupied ∧ ∀ j < k, (nudged^[j] t).value < stuckFrom)) ∧
    ((∀ t : Binary64, 0 ≤ t.value → NudgeLoopEnds occupied t) ↔
      ∀ u ∈ occupied, u.value < stuckFrom) := by
  have hstuck : ∀ t : Binary64, stuckFrom ≤ t.value → nudged t = t := fun t => nudged_eq
  refine ⟨fun t h₀ => ?_, fun hends u hu => ?_, fun hsmall t h₀ => ?_⟩
  · rw [nudgeLoopEnds_iff h₀, probe_ends_iff_of_stuck hstuck]
    simp only [not_le]
  · by_contra hlarge
    have hlarge' := not_lt.mp hlarge
    have h₀ : 0 ≤ u.value := (two_zpow_pos 40).le.trans hlarge'
    obtain ⟨k, hfree⟩ := probe_ends_iff.mp ((nudgeLoopEnds_iff h₀).mp (hends u h₀))
    rw [Function.iterate_fixed (hstuck u hlarge')] at hfree
    exact hfree hu
  · rw [nudgeLoopEnds_iff h₀]
    refine @probe_ends_of_lt _ _ nudged occupied t _ _ Binary64.value fun k hk => ?_
    rw [Function.iterate_succ_apply']
    exact lt_nudged (h₀.trans (le_iterate_nudged h₀ k)) (hsmall _ hk)

/-- `2 ^ 40` seconds. -/
def lateTime : Binary64 where
  value := stuckFrom
  isFloat := ⟨1, 40, by decide, by decide, by rw [Int.cast_one, one_mul]; rfl⟩
  finite := by
    rw [abs_of_pos (two_zpow_pos 40)]
    exact Binary64.two_zpow_le_largest (by decide)

theorem nudge_loop_spins : 0 ≤ lateTime.value ∧ ¬ NudgeLoopEnds [lateTime] lateTime := by
  refine ⟨(two_zpow_pos 40).le, ?_⟩
  rintro ⟨t', hprobe, hfree, -⟩
  obtain ⟨-, k, -, rfl, -⟩ := probeFrom_eq_some hprobe
  rw [Function.iterate_fixed (nudged_eq (le_refl stuckFrom))] at hfree
  exact hfree List.mem_cons_self

end FacesService
