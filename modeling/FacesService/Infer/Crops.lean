import FacesService.Infer.Accounting

/-!
The crops of a run. The loop decides by what it has in memory whether a
cluster needs a crop; `Mirrored` says that this is what the table has. Then a
crop is stored only for a cluster that has none, and only once, since the loop
notes it; and a cluster that is left without one was never shown a face that
could be cropped.
-/

namespace FacesService

open Prog Fallible Database

variable {K : Type}

/-- The clusters crops were stored for, in order. -/
def cropsIn (log : List (Event K)) : List String :=
  log.filterMap fun e => match e.op with
    | .putCrop _ clusterId _ => some clusterId
    | _ => none

@[simp] theorem cropsIn_append (log log' : List (Event K)) :
    cropsIn (log ++ log') = cropsIn log ++ cropsIn log' := List.filterMap_append

def IsPutCrop : Call K → Prop
  | .putCrop _ _ _ => True
  | _ => False

/-- A program without such calls leaves no crop on record. -/
theorem cropsIn_within {α : Type} {p : Program K α} (hp : p.Within (¬ IsPutCrop ·) fun _ => True)
    (H : Handler (Call K) Call.Answer PyError (World K)) (w : World K) :
    cropsIn (p.steps H w) = [] := by
  refine List.filterMap_eq_nil_iff.mpr fun e he => ?_
  have hop := steps_within hp H w e he
  split
  · rename_i hput
    rw [hput] at hop
    exact absurd trivial hop
  · rfl

variable [Arithmetic K] {svc : Service K} {oracle : Oracle} {args : RunArgs}

/-! ### The calls of one detection -/

theorem place_log (ownerId : String) (st : LoopState K) (x : List K) (w : World K) :
    cropsIn ((place svc ownerId st x).steps (answer svc.pf oracle) w) = [] :=
  cropsIn_within (place_within_of trivial (fun _ => not_false) st x) _ w

/-- A crop is stored if there is one, whatever becomes of its row. -/
theorem saveCrop_log (ownerId : String) (img : Image) (det : Detection K) (c : Known K)
    (needCrop : Bool) (st : LoopState K) (w : World K) :
    cropsIn ((saveCrop svc ownerId img det c needCrop st).steps (answer svc.pf oracle) w) =
      (newCrop svc img needCrop det).toList.map fun _ => c.id := by
  unfold saveCrop
  cases newCrop svc img needCrop det with
  | none => rfl
  | some jpeg =>
      have hput : (call (K := K) (.putCrop ownerId c.id jpeg)).exec (answer svc.pf oracle) w =
          (.ok (cropKey ownerId c.id), ((answer svc.pf oracle) (.putCrop ownerId c.id jpeg) w).2) := by
        rw [exec_perform]
        rfl
      have hrow : ∀ p : Program K (LoopState K), p.Within (¬ IsPutCrop ·) (fun _ => True) →
          cropsIn ((call (K := K) (.putCrop ownerId c.id jpeg)).steps (answer svc.pf oracle) w ++
            p.steps (answer svc.pf oracle)
              ((answer svc.pf oracle) (.putCrop ownerId c.id jpeg) w).2) = [c.id] := by
        intro p hp
        rw [cropsIn_append, cropsIn_within hp, steps_perform]
        rfl
      rw [steps_bind_ok hput]
      exact hrow _ (within_bind (within_perform not_false) fun _ => within_pure _)

/-- A detection that was placed stores the crop it has for its cluster. -/
theorem seeDetection_log {ownerId : String} {img : Image} {t : K} {st st₁ : LoopState K}
    {det : Detection K} {c : Known K} {needCrop : Bool} {w w₁ : World K}
    (h : (place svc ownerId { st with facesDetected := st.facesDetected + 1 } det.embedding).exec
      (answer svc.pf oracle) w = (.ok (c, needCrop, st₁), w₁)) :
    cropsIn ((seeDetection svc ownerId img t st det).steps (answer svc.pf oracle) w) =
      (newCrop svc img needCrop det).toList.map fun _ => c.id := by
  unfold seeDetection
  rw [steps_bind_ok h, cropsIn_append, place_log, List.nil_append]
  dsimp only
  rw [steps_bind_pure, saveCrop_log]

/-! ### What the loop knows of crops -/

/-- What the loop has in memory of crops is what the table has. Crops from
before the run are still there, and a cluster without one was never shown a
face that could be cropped. -/
structure Mirrored (svc : Service K) (owner : Uuid) (w₀ w : World K) (st : LoopState K)
    (placed : List (String × Sighting K)) : Prop where
  ids : (w.db.clusters.map (·.id)).Nodup
  rows : ∀ k ∈ st.known, ∃ r ∈ w.db.clusters, r.id.text = k.id ∧ r.ownerId = owner ∧
    r.cropObject = st.crops.lookup k.id
  keys : ∀ id ∉ st.known.map (·.id), st.crops.lookup id = none
  kept : ∀ r ∈ w₀.db.clusters, r.cropObject ≠ none →
    ∃ r' ∈ w.db.clusters, r'.id = r.id ∧ r'.cropObject ≠ none
  uncropped : ∀ p ∈ placed, st.crops.lookup p.1 = none → newCrop svc p.2.img true p.2.det = none

section Mirrored

variable {owner : Uuid} {ownerId : String} {w₀ w w' : World K} {st st' : LoopState K}
  {placed : List (String × Sighting K)}

/-- A known cluster that lacks a crop lacked one from the start. -/
theorem Mirrored.first (hm : Mirrored svc owner w₀ w st placed) {id : String}
    (hid : id ∈ st.known.map (·.id)) (hnone : st.crops.lookup id = none) :
    ∀ r ∈ w₀.db.clusters, r.id.text = id → r.cropObject = none := by
  intro r hr hrid
  obtain ⟨k, hk, rfl⟩ := List.mem_map.mp hid
  obtain ⟨r₁, hr₁, hid₁, -, hcrop₁⟩ := hm.rows k hk
  by_contra hcrop
  obtain ⟨r₂, hr₂, hid₂, hcrop₂⟩ := hm.kept r hr hcrop
  have hsame : r₂ = r₁ := List.inj_on_of_nodup_map hm.ids hr₂ hr₁
    (hid₂.trans (Uuid.text_injective (hrid.trans hid₁.symm)))
  exact hcrop₂ (hsame ▸ hcrop₁.trans hnone)

/-- A cluster needs a crop exactly if it has none, be it matched or new. -/
theorem Mirrored.place (howner : castUuid ownerId = .ok owner)
    (hm : Mirrored svc owner w₀ w st placed) {x : List K} {c : Known K} {needCrop : Bool}
    (hp : Placed svc oracle ownerId { st with facesDetected := st.facesDetected + 1 } x w
      (c, needCrop, st') w') :
    Mirrored svc owner w₀ w' st' placed ∧ c.id ∈ st'.known.map (·.id) ∧
      needCrop = decide (st.crops.lookup c.id = none) ∧ st'.crops = st.crops ∧
      st'.items = st.items := by
  cases hp with
  | @matched k _ hassign habsorb =>
      have hid : c.id ∈ st.known.map (·.id) := by
        rw [(absorb_id habsorb).1]
        exact List.mem_map_of_mem (assign_mem hassign)
      refine ⟨⟨hm.ids, fun k' hk' => ?_, ?_, hm.kept, hm.uncropped⟩, ?_, rfl, rfl, rfl⟩
      · rcases mem_updateKnown hk' with ⟨rfl, -⟩ | ⟨hk', -⟩
        · obtain ⟨k₀, hk₀, hid₀⟩ := List.mem_map.mp hid
          rw [← hid₀]
          exact hm.rows k₀ hk₀
        · exact hm.rows k' hk'
      · dsimp only
        rw [updateKnown_ids]
        exact hm.keys
      · dsimp only
        rw [updateKnown_ids]
        exact hid
  | @created owner' _ hassign howner' hinsert hobjects hpolls hdraws =>
      rw [howner] at howner'
      cases howner'
      obtain ⟨hfresh, hdb⟩ := insertCluster_eq_ok hinsert
      have hnew : (oracle.fresh w.draws).text ∉ st.known.map (·.id) := by
        intro hmem
        obtain ⟨k, hk, hid⟩ := List.mem_map.mp hmem
        obtain ⟨r, hr, hrid, -⟩ := hm.rows k hk
        exact hfresh r hr (Uuid.text_injective (hrid.trans hid))
      refine ⟨⟨?_, fun k hk => ?_, fun id hid => hm.keys id fun hmem => hid ?_, fun r hr hcrop => ?_,
        hm.uncropped⟩, ?_, ?_, rfl, rfl⟩
      · rw [hdb, List.map_append, List.nodup_append]
        refine ⟨hm.ids, by simp, fun a ha b hb heq => ?_⟩
        obtain ⟨r, hr, rfl⟩ := List.mem_map.mp ha
        exact hfresh r hr (heq.trans (by simpa using hb))
      · rw [hdb]
        rcases List.mem_append.mp hk with hk | hk
        · obtain ⟨r, hr, hboth⟩ := hm.rows k hk
          exact ⟨r, List.mem_append_left _ hr, hboth⟩
        · rw [List.mem_singleton.mp hk]
          exact ⟨_, List.mem_append_right _ List.mem_cons_self, rfl, rfl, (hm.keys _ hnew).symm⟩
      · rw [List.map_append]
        exact List.mem_append_left _ hmem
      · obtain ⟨r', hr', hboth⟩ := hm.kept r hr hcrop
        rw [hdb]
        exact ⟨r', List.mem_append_left _ hr', hboth⟩
      · rw [List.map_append]
        exact List.mem_append_right _ List.mem_cons_self
      · exact (decide_eq_true (hm.keys _ hnew)).symm

/-- A crop is noted in memory as in the table. -/
theorem Mirrored.save (howner : castUuid ownerId = .ok owner)
    (hm : Mirrored svc owner w₀ w st placed) {s : Sighting K} {c : Known K}
    (hid : c.id ∈ st.known.map (·.id))
    (hs : CropSaved svc oracle ownerId s.img s.det c (decide (st.crops.lookup c.id = none)) st w
      st' w') : Mirrored svc owner w₀ w' st' (placed ++ [(c.id, s)]) := by
  cases hs with
  | none hcrop =>
      refine ⟨hm.ids, hm.rows, hm.keys, hm.kept, fun p hp hnone => ?_⟩
      rcases List.mem_append.mp hp with hp | hp
      · exact hm.uncropped p hp hnone
      · rw [List.mem_singleton.mp hp] at hnone ⊢
        rwa [decide_eq_true hnone] at hcrop
  | @some jpeg id owner' _ hcrop hcast howner' hdb hobjects hpolls hdraws =>
      rw [howner] at howner'
      cases howner'
      -- the update finds the row by the parsed id, the loop its entry by the text
      have htext : ∀ k ∈ st.known, ∀ r : Cluster K, r.id.text = k.id → (r.id = id ↔ k.id = c.id) := by
        intro k hk r hrid
        obtain ⟨k₀, hk₀, hid₀⟩ := List.mem_map.mp hid
        obtain ⟨r₀, -, hrid₀, -⟩ := hm.rows k₀ hk₀
        rw [← hid₀, ← hrid₀, Uuid.castUuid_text] at hcast
        cases hcast
        rw [← hid₀, ← hrid, ← hrid₀]
        exact ⟨fun h => congrArg Uuid.text h, fun h => Uuid.text_injective h⟩
      refine ⟨?_, fun k hk => ?_, fun id' hid' => ?_, fun r hr hr' => ?_, fun p hp hnone => ?_⟩
      · rw [hdb, updateClusters_ids (by intro r; rfl)]
        exact hm.ids
      · obtain ⟨r, hr, hrid, hro, hrcrop⟩ := hm.rows k hk
        refine ⟨_, hdb ▸ updateClusters_mem hr, ?_⟩
        dsimp only
        rw [lookup_dictSet]
        by_cases hk' : k.id = c.id
        · have hp : (decide (r.id = id) && decide (r.ownerId = owner)) = true := by
            simp [(htext k hk r hrid).mpr hk', hro]
          rw [if_pos hp, if_pos hk']
          exact ⟨hrid, hro, rfl⟩
        · have hp : ¬ (decide (r.id = id) && decide (r.ownerId = owner)) = true := by
            have hne : ¬ r.id = id := fun h => hk' ((htext k hk r hrid).mp h)
            simp [hne]
          rw [if_neg hp, if_neg hk']
          exact ⟨hrid, hro, hrcrop⟩
      · dsimp only
        have hne : ¬ id' = c.id := fun heq => hid' (heq ▸ hid)
        rw [lookup_dictSet, if_neg hne]
        exact hm.keys id' hid'
      · obtain ⟨r₁, hr₁, hid₁, hcrop₁⟩ := hm.kept r hr hr'
        refine ⟨_, hdb ▸ updateClusters_mem hr₁, ?_⟩
        split
        · exact ⟨hid₁, Option.some_ne_none _⟩
        · exact ⟨hid₁, hcrop₁⟩
      · dsimp only at hnone
        rw [lookup_dictSet] at hnone
        by_cases heq : p.1 = c.id
        · rw [if_pos heq] at hnone
          cases hnone
        · rw [if_neg heq] at hnone
          rcases List.mem_append.mp hp with hp | hp
          · exact hm.uncropped p hp hnone
          · exact absurd (congrArg Prod.fst (List.mem_singleton.mp hp)) heq

/-! ### The record of crops -/

/-- The crops on record are for clusters that had none in memory, nor in the
table at the start, and each is the first of its cluster. -/
structure StoredOnce (w₀ : World K) (crops : List (String × String)) (log : List (Event K)) :
    Prop where
  nodup : (cropsIn log).Nodup
  lacking : ∀ id ∈ cropsIn log, crops.lookup id = none
  first : ∀ id ∈ cropsIn log, ∀ r ∈ w₀.db.clusters, r.id.text = id → r.cropObject = none

/-- What is not in memory afterwards was neither there before nor stored since. -/
def Noted (crops crops' : List (String × String)) (log : List (Event K)) : Prop :=
  ∀ id, crops'.lookup id = none → crops.lookup id = none ∧ id ∉ cropsIn log

omit [Arithmetic K] in
theorem StoredOnce.of_nil {crops : List (String × String)} {log : List (Event K)}
    (h : cropsIn log = []) : StoredOnce w₀ crops log := by
  constructor
  · rw [h]
    exact List.nodup_nil
  · simp [h]
  · simp [h]

omit [Arithmetic K] in
theorem Noted.of_nil {crops : List (String × String)} {log : List (Event K)}
    (h : cropsIn log = []) : Noted crops crops log := fun id hid => ⟨hid, by simp [h]⟩

omit [Arithmetic K] in
theorem StoredOnce.append {crops crops' : List (String × String)} {log log' : List (Event K)}
    (h : StoredOnce w₀ crops log) (hnoted : Noted crops crops' log)
    (h' : StoredOnce w₀ crops' log') : StoredOnce w₀ crops (log ++ log') := by
  constructor
  · rw [cropsIn_append, List.nodup_append]
    refine ⟨h.nodup, h'.nodup, fun a ha b hb heq => ?_⟩
    exact (hnoted b (h'.lacking b hb)).2 (heq ▸ ha)
  · intro id hid
    rw [cropsIn_append, List.mem_append] at hid
    rcases hid with hid | hid
    · exact h.lacking id hid
    · exact (hnoted id (h'.lacking id hid)).1
  · intro id hid
    rw [cropsIn_append, List.mem_append] at hid
    rcases hid with hid | hid
    · exact h.first id hid
    · exact h'.first id hid

omit [Arithmetic K] in
theorem Noted.append {crops crops' crops'' : List (String × String)} {log log' : List (Event K)}
    (h : Noted crops crops' log) (h' : Noted crops' crops'' log') :
    Noted crops crops'' (log ++ log') := by
  intro id hid
  obtain ⟨hid', hnot'⟩ := h' id hid
  obtain ⟨hid₀, hnot⟩ := h id hid'
  refine ⟨hid₀, ?_⟩
  rw [cropsIn_append, List.mem_append, not_or]
  exact ⟨hnot, hnot'⟩

/-- **The step lemma**: a detection stores at most the first crop of its
cluster, and one that is got through leaves memory and table in agreement. -/
theorem seeDetection_crops (howner : castUuid ownerId = .ok owner) {s : Sighting K}
    (hm : Mirrored svc owner w₀ w st placed) {res : Except PyError (LoopState K)}
    (h : (seeDetection svc ownerId s.img s.time st s.det).exec (answer svc.pf oracle) w =
      (res, w')) :
    StoredOnce w₀ st.crops
        ((seeDetection svc ownerId s.img s.time st s.det).steps (answer svc.pf oracle) w) ∧
      ∀ st', res = .ok st' → ∃ id, st'.items = st.items ++ [itemOf svc (id, s)] ∧
        Mirrored svc owner w₀ w' st' (placed ++ [(id, s)]) ∧ Noted st.crops st'.crops
          ((seeDetection svc ownerId s.img s.time st s.det).steps (answer svc.pf oracle) w) := by
  cases hplace : (place svc ownerId { st with facesDetected := st.facesDetected + 1 }
      s.det.embedding).exec (answer svc.pf oracle) w with
  | mk res₁ w₁ =>
      cases res₁ with
      | error e =>
          constructor
          · refine .of_nil ?_
            rw [seeDetection, steps_bind_error hplace, place_log]
          · rintro st' rfl
            rw [seeDetection, exec_bind_error hplace] at h
            cases h
      | ok r =>
          obtain ⟨c, needCrop, st₁⟩ := r
          have hlog := @seeDetection_log K _ svc oracle _ s.img s.time _ _ _ _ _ _ _ hplace
          obtain ⟨hm₁, hid, hneed, hcrops, hitems⟩ := hm.place howner (place_ok hplace)
          rw [← hcrops] at hneed ⊢
          have hmem : ∀ id ∈ cropsIn ((seeDetection svc ownerId s.img s.time st s.det).steps
              (answer svc.pf oracle) w), id = c.id ∧ st₁.crops.lookup c.id = none ∧
                (newCrop svc s.img needCrop s.det).isSome := by
            intro id hmem
            rw [hlog, List.mem_map] at hmem
            obtain ⟨jpeg, hjpeg, rfl⟩ := hmem
            rw [Option.mem_toList] at hjpeg
            have hneeded : needCrop = true := by
              by_contra hnot
              rw [newCrop, if_neg hnot] at hjpeg
              cases hjpeg
            exact ⟨rfl, of_decide_eq_true (hneed.symm.trans hneeded), by rw [hjpeg]; rfl⟩
          refine ⟨⟨?_, ?_, ?_⟩, ?_⟩
          · rw [hlog]
            cases newCrop svc s.img needCrop s.det <;> simp
          · intro id hid'
            obtain ⟨rfl, hnone, -⟩ := hmem id hid'
            exact hnone
          · intro id hid'
            obtain ⟨rfl, hnone, -⟩ := hmem id hid'
            exact hm₁.first hid hnone
          · rintro st' rfl
            rw [seeDetection, exec_bind_ok hplace] at h
            obtain ⟨st₂, w₂, hsave, h⟩ := exec_bind_eq_ok.mp h
            cases h
            have hsaved := saveCrop_ok hsave
            rw [hneed] at hsaved
            have hm₂ := hm₁.save howner (s := s) hid hsaved
            refine ⟨c.id, ?_, ⟨hm₂.ids, hm₂.rows, hm₂.keys, hm₂.kept, hm₂.uncropped⟩, ?_⟩
            · dsimp only
              cases hsaved <;> rw [← hitems] <;> rfl
            · intro id hnone
              dsimp only at hnone
              cases hsaved with
              | none hcrop =>
                  refine ⟨hnone, fun hid' => ?_⟩
                  obtain ⟨-, -, hsome⟩ := hmem id hid'
                  rw [hneed, hcrop] at hsome
                  cases hsome
              | some hcrop hcast howner' hdb hobjects hpolls hdraws =>
                  dsimp only at hnone
                  rw [lookup_dictSet] at hnone
                  by_cases heq : id = c.id
                  · rw [if_pos heq] at hnone
                    cases hnone
                  · rw [if_neg heq] at hnone
                    exact ⟨hnone, fun hid' => heq (hmem id hid').1⟩

end Mirrored

/-! ### The loop -/

section Loop

variable {owner : Uuid} {w₀ w w' : World K} {known₀ : List (Known K)} {st st' : LoopState K}
  {n : ℕ} {placed : List (String × Sighting K)}

/-- The loop so far, with what it knows of crops. -/
structure Crops (svc : Service K) (oracle : Oracle) (owner : Uuid) (pre : String) (w₀ w : World K)
    (known₀ : List (Known K)) (st : LoopState K) (n : ℕ) (placed : List (String × Sighting K)) :
    Prop where
  follows : Follows svc oracle owner pre w₀ w known₀ st n placed
  mirrored : Mirrored svc owner w₀ w st placed

/-- What is shown of a stretch of the loop: its crops are stored once, and if it
is got through its sightings are placed and the loop is in step again. -/
def Stretch (svc : Service K) (oracle : Oracle) (owner : Uuid) (pre : String) (w₀ : World K)
    (known₀ : List (Known K)) (st : LoopState K) (placed : List (String × Sighting K))
    (seen : List (Sighting K)) (p : Program K (LoopState K)) (w : World K) : Prop :=
  StoredOnce w₀ st.crops (p.steps (answer svc.pf oracle) w) ∧
    ∀ st' w', p.exec (answer svc.pf oracle) w = (.ok st', w') →
      Noted st.crops st'.crops (p.steps (answer svc.pf oracle) w) ∧
        ∃ more m, more.map (·.2) = seen ∧
          Crops svc oracle owner pre w₀ w' known₀ st' m (placed ++ more)

theorem Crops.of_eq {pre : String} (h : Crops svc oracle owner pre w₀ w known₀ st n placed)
    (w' : World K) (hdb : w'.db = w.db) (hobjects : w'.objects = w.objects)
    (hdraws : w'.draws = w.draws) (m : ℕ) :
    Crops svc oracle owner pre w₀ w' known₀ { st with frameSkipped := m } n placed where
  follows := h.follows.of_eq hdb hobjects hdraws rfl rfl rfl rfl
  mirrored := ⟨hdb ▸ h.mirrored.ids, hdb ▸ h.mirrored.rows, h.mirrored.keys,
    hdb ▸ h.mirrored.kept, h.mirrored.uncropped⟩

/-- Two stretches, one after the other. -/
theorem Stretch.bind {pre : String} {p : Program K (LoopState K)}
    {f : LoopState K → Program K (LoopState K)} {seen seen' : List (Sighting K)}
    (hp : Stretch svc oracle owner pre w₀ known₀ st placed seen p w)
    (hf : ∀ st₁ w₁ more m, p.exec (answer svc.pf oracle) w = (.ok st₁, w₁) →
      Crops svc oracle owner pre w₀ w₁ known₀ st₁ m (placed ++ more) →
      Stretch svc oracle owner pre w₀ known₀ st₁ (placed ++ more) seen' (f st₁) w₁) :
    Stretch svc oracle owner pre w₀ known₀ st placed (seen ++ seen') (p >>= f) w := by
  obtain ⟨hstored, hend⟩ := hp
  cases hexec : p.exec (answer svc.pf oracle) w with
  | mk res w₁ =>
      cases res with
      | error e =>
          constructor
          · rw [steps_bind_error hexec]
            exact hstored
          · intro st' w' h
            rw [exec_bind_error hexec] at h
            cases h
      | ok st₁ =>
          obtain ⟨hnoted, more, m, hmore, hc⟩ := hend st₁ w₁ hexec
          obtain ⟨hstored', hend'⟩ := hf st₁ w₁ more m hexec hc
          rw [Stretch, steps_bind_ok hexec, exec_bind_ok hexec]
          refine ⟨hstored.append hnoted hstored', fun st' w' h => ?_⟩
          obtain ⟨hnoted', more', m', hmore', hc'⟩ := hend' st' w' h
          refine ⟨hnoted.append hnoted', more ++ more', m', ?_, List.append_assoc _ _ _ ▸ hc'⟩
          rw [List.map_append, hmore, hmore']

theorem Crops.stretch_pure {pre : String}
    (hc : Crops svc oracle owner pre w₀ w known₀ st n placed) :
    Stretch svc oracle owner pre w₀ known₀ st placed [] (pure st) w := by
  refine ⟨.of_nil rfl, fun st' w' h => ?_⟩
  cases h
  exact ⟨.of_nil rfl, [], n, rfl, by rwa [List.append_nil]⟩

theorem Crops.detection {ownerId pre : String} (howner : castUuid ownerId = .ok owner)
    (hc : Crops svc oracle owner pre w₀ w known₀ st n placed) (s : Sighting K) :
    Stretch svc oracle owner pre w₀ known₀ st placed [s]
      (seeDetection svc ownerId s.img s.time st s.det) w := by
  cases hexec : (seeDetection svc ownerId s.img s.time st s.det).exec
      (answer svc.pf oracle) w with
  | mk res w₁ =>
      obtain ⟨hstored, hend⟩ := seeDetection_crops howner hc.mirrored hexec
      refine ⟨hstored, fun st' w' h => ?_⟩
      rw [hexec, Prod.mk.injEq] at h
      obtain ⟨rfl, rfl⟩ := h
      obtain ⟨id, hitems, hm, hnoted⟩ := hend st' rfl
      obtain ⟨id', m, hf⟩ := seeDetection_follows howner hc.follows hexec
      -- both say where the detection went, by the item it left
      have hsame : [itemOf svc (id, s)] = [itemOf svc (id', s)] := by
        have hboth := hf.items
        rw [hitems, hc.follows.items, List.map_append] at hboth
        exact List.append_cancel_left hboth
      have hid : id = id' := congrArg (·.clusterId) (List.cons.inj hsame).1
      exact ⟨hnoted, [(id, s)], m, rfl, hid ▸ hf, hm⟩

theorem Crops.detections {ownerId pre : String} (howner : castUuid ownerId = .ok owner)
    (hc : Crops svc oracle owner pre w₀ w known₀ st n placed) (ss : List (Sighting K)) :
    Stretch svc oracle owner pre w₀ known₀ st placed ss (seeAll svc ownerId ss st) w := by
  induction ss generalizing st w n placed with
  | nil => exact hc.stretch_pure
  | cons s ss ih =>
      rw [seeAll, List.foldlM_cons]
      exact (hc.detection howner s).bind fun st₁ w₁ more m _ hc₁ => ih hc₁

theorem Crops.frame (howner : castUuid args.ownerId = .ok owner)
    (hc : Crops svc oracle owner args.framesPrefix w₀ w known₀ st n placed) (idx : ℕ) :
    Stretch svc oracle owner args.framesPrefix w₀ known₀ st placed
      (frameSightings svc w₀.objects args.framesPrefix idx) (seeFrame svc args idx st) w := by
  have hc₁ : Crops svc oracle owner args.framesPrefix w₀ { w with calls := w.calls + 1 } known₀
      { st with frameSkipped := st.frameSkipped +
        (decodedFrame svc w.objects args.framesPrefix idx).isNone.toNat } n placed :=
    hc.of_eq { w with calls := w.calls + 1 } rfl rfl rfl _
  obtain ⟨hstored, hend⟩ := hc₁.detections howner
    (frameSightings svc w.objects args.framesPrefix idx)
  have hfetch : cropsIn ((call (K := K) (.getFrame args.framesPrefix idx)).steps
      (answer svc.pf oracle) w) = [] := by
    rw [steps_perform]
    rfl
  rw [← frameSightings_congr (hc.follows.frames idx), Stretch, seeFrame_steps, seeFrame_skips]
  refine ⟨StoredOnce.append (.of_nil hfetch) (.of_nil hfetch) hstored, fun st' w' h => ?_⟩
  obtain ⟨hnoted, hc'⟩ := hend st' w' h
  exact ⟨Noted.append (.of_nil hfetch) hnoted, hc'⟩

/-- **The run lemma.** -/
theorem Crops.frames (howner : castUuid args.ownerId = .ok owner) {indices : List ℕ}
    {done : ℕ} (hc : Crops svc oracle owner args.framesPrefix w₀ w known₀ st n placed) :
    Stretch svc oracle owner args.framesPrefix w₀ known₀ st placed
      (sightings svc w₀.objects args.framesPrefix indices) (seeFrames svc args indices done st) w := by
  induction indices generalizing done st w n placed with
  | nil => exact hc.stretch_pure
  | cons idx rest ih =>
      have hpoll : cropsIn ((pollCancel args done).steps (answer svc.pf oracle) w) = [] :=
        cropsIn_within (pollCancel_within_of not_false args done) _ w
      unfold seeFrames
      cases hexec : (pollCancel args done).exec (answer svc.pf oracle) w with
      | mk res w₁ =>
          cases res with
          | error e =>
              refine ⟨.of_nil (by rwa [steps_bind_error hexec]), fun st' w' h => ?_⟩
              rw [exec_bind_error hexec] at h
              cases h
          | ok u =>
              obtain ⟨hdb, hobj, hdraws⟩ := pollCancel_keeps hexec
              have hc₁ := hc.of_eq w₁ hdb hobj hdraws st.frameSkipped
              obtain ⟨hstored, hend⟩ := (hc₁.frame howner idx).bind fun st₁ w₂ more m _ hc₂ =>
                ih hc₂
              rw [Stretch, steps_bind_ok hexec, exec_bind_ok hexec]
              refine ⟨StoredOnce.append (.of_nil hpoll) (.of_nil hpoll) hstored, fun st' w' h => ?_⟩
              obtain ⟨hnoted, hc'⟩ := hend st' w' h
              exact ⟨Noted.append (.of_nil hpoll) hnoted, hc'⟩

end Loop

/-! ### From the start -/

section Start

variable {rows : List (Cluster K)} {r : Cluster K}

omit [Arithmetic K] in
theorem lookup_start_none {id : String} (h : id ∉ rows.map (·.id.text)) :
    (LoopState.start rows).crops.lookup id = none := by
  rw [LoopState.start, List.lookup_eq_none_iff]
  intro e he
  obtain ⟨r, hr, hkey⟩ := List.mem_filterMap.mp he
  obtain ⟨key, -, rfl⟩ := Option.map_eq_some_iff.mp hkey
  have hne : id ≠ r.id.text := fun heq => h (heq ▸ List.mem_map_of_mem hr)
  simpa using hne

omit [Arithmetic K] in
/-- The loop starts with the crops of its rows. -/
theorem lookup_start (hids : (rows.map (·.id.text)).Nodup) (hr : r ∈ rows) :
    (LoopState.start rows).crops.lookup r.id.text = r.cropObject := by
  induction rows with
  | nil => cases hr
  | cons c rows ih =>
      rw [List.map_cons, List.nodup_cons] at hids
      have hrest : (LoopState.start (c :: rows)).crops =
          (c.cropObject.map (c.id.text, ·)).toList ++ (LoopState.start rows).crops := by
        cases hcrop : c.cropObject <;> simp [LoopState.start, hcrop]
      rw [hrest, List.lookup_append]
      rcases List.mem_cons.mp hr with rfl | hr
      · rw [lookup_start_none hids.1, Option.or_none]
        cases r.cropObject with
        | none => rfl
        | some key => exact List.lookup_cons_self
      · have hne : (r.id.text == c.id.text) = false := by
          rw [beq_eq_false_iff_ne]
          exact fun heq => hids.1 (heq ▸ List.mem_map_of_mem hr)
        have hnone : (c.cropObject.map (c.id.text, ·)).toList.lookup r.id.text = none := by
          cases c.cropObject <;> simp [List.lookup_cons, hne]
        rw [hnone, Option.none_or]
        exact ih hids.2 hr

theorem crops_start {owner : Uuid} {pre : String} {w : World K}
    (hrows : rows.Perm (w.db.clusters.filter fun c => c.ownerId = owner))
    (hids : (w.db.clusters.map (·.id)).Nodup) :
    Crops svc oracle owner pre w { w with calls := w.calls + 1 } (LoopState.start rows).known
      (LoopState.start rows) 0 [] := by
  refine ⟨follows_start hrows hids rfl rfl rfl, hids, fun k hk => ?_, fun id hid => ?_,
    fun r hr hcrop => ⟨r, hr, rfl, hcrop⟩, by simp⟩
  · obtain ⟨r, hr, rfl⟩ := List.mem_map.mp hk
    have hmem := List.mem_filter.mp (hrows.mem_iff.mp hr)
    have hnodup : (rows.map (·.id)).Nodup := by
      rw [(hrows.map (·.id)).nodup_iff]
      exact hids.sublist (List.filter_sublist.map _)
    have htexts := hnodup.map Uuid.text_injective
    rw [List.map_map] at htexts
    exact ⟨r, hmem.1, rfl, of_decide_eq_true hmem.2, (lookup_start htexts hr).symm⟩
  · refine lookup_start_none fun hmem => hid ?_
    obtain ⟨r, hr, rfl⟩ := List.mem_map.mp hmem
    exact List.mem_map.mpr ⟨.ofRow r, List.mem_map_of_mem hr, rfl⟩

end Start

/-! ### The run -/

/-- The loop of a run, somewhere between two detections: the frames before are
through, and of the next one the detections `seen`. -/
def LoopAt (svc : Service K) (oracle : Oracle) (args : RunArgs) (w : World K) (st : LoopState K)
    (w' : World K) : Prop :=
  ∃ rows before idx after seen unseen st₁ w₁ w₂,
    Db.getClustersForOwner w.db args.ownerId = .ok rows ∧
    frameIndices args.count args.maxFrames = before ++ idx :: after ∧
    (seeFrames svc args before 0 (.start rows)).exec (answer svc.pf oracle)
      { w with calls := w.calls + 1 } = (.ok st₁, w₁) ∧
    (pollCancel args before.length).exec (answer svc.pf oracle) w₁ = (.ok (), w₂) ∧
    frameSightings svc w₂.objects args.framesPrefix idx = seen ++ unseen ∧
    (seeAll svc args.ownerId seen { st₁ with frameSkipped := st₁.frameSkipped +
      (decodedFrame svc w₂.objects args.framesPrefix idx).isNone.toNat }).exec (answer svc.pf oracle)
      { w₂ with calls := w₂.calls + 1 } = (.ok st, w')

theorem seeAll_append {ownerId : String} {seen unseen : List (Sighting K)} {st st₁ : LoopState K}
    {w w₁ : World K}
    (h : (seeAll svc ownerId seen st).exec (answer svc.pf oracle) w = (.ok st₁, w₁)) :
    (seeAll svc ownerId (seen ++ unseen) st).exec (answer svc.pf oracle) w =
      (seeAll svc ownerId unseen st₁).exec (answer svc.pf oracle) w₁ := by
  induction seen generalizing st w with
  | nil =>
      cases h
      rfl
  | cons s seen ih =>
      obtain ⟨st₂, w₂, hsee, hrest⟩ := seeAll_cons_ok h
      rw [List.cons_append, seeAll, List.foldlM_cons, exec_bind_ok hsee]
      exact ih hrest

theorem seeFrames_append {before rest : List ℕ} {done : ℕ} {st st₁ : LoopState K} {w w₁ : World K}
    (h : (seeFrames svc args before done st).exec (answer svc.pf oracle) w = (.ok st₁, w₁)) :
    (seeFrames svc args (before ++ rest) done st).exec (answer svc.pf oracle) w =
      (seeFrames svc args rest (done + before.length) st₁).exec (answer svc.pf oracle) w₁ := by
  induction before generalizing done st w with
  | nil =>
      cases h
      rfl
  | cons idx before ih =>
      unfold seeFrames at h
      obtain ⟨⟨⟩, w₂, hpoll, h⟩ := exec_bind_eq_ok.mp h
      obtain ⟨st₂, w₃, hframe, h⟩ := exec_bind_eq_ok.mp h
      rw [List.cons_append, seeFrames, exec_bind_ok hpoll, exec_bind_ok hframe, ih h,
        List.length_cons, Nat.add_assoc, Nat.add_comm 1]

/-- The loop of the run passes through there, and goes on with what is left. -/
theorem LoopAt.goes_on {w w' : World K} {st : LoopState K} (h : LoopAt svc oracle args w st w') :
    ∃ rows unseen after done, Db.getClustersForOwner w.db args.ownerId = .ok rows ∧
      (seeFrames svc args (frameIndices args.count args.maxFrames) 0 (.start rows)).exec
          (answer svc.pf oracle) { w with calls := w.calls + 1 } =
        (seeAll svc args.ownerId unseen st >>= seeFrames svc args after done).exec
          (answer svc.pf oracle) w' := by
  obtain ⟨rows, before, idx, after, seen, unseen, st₁, w₁, w₂, hrows, hindices, hframes, hpoll, hsplit,
    hseen⟩ := h
  refine ⟨rows, unseen, after, before.length + 1, hrows, ?_⟩
  have hframe : (seeFrame svc args idx st₁).exec (answer svc.pf oracle) w₂ =
      (seeAll svc args.ownerId unseen st).exec (answer svc.pf oracle) w' := by
    rw [seeFrame_skips, hsplit, seeAll_append hseen]
  rw [hindices, seeFrames_append hframes, Nat.zero_add, seeFrames, exec_bind_ok hpoll, exec_bind,
    exec_bind, hframe]

theorem run_storedOnce {w : World K} (hids : (w.db.clusters.map (·.id)).Nodup) :
    (cropsIn ((run svc args).steps (answer svc.pf oracle) w)).Nodup ∧
      ∀ id ∈ cropsIn ((run svc args).steps (answer svc.pf oracle) w),
        ∀ r ∈ w.db.clusters, r.id.text = id → r.cropObject = none := by
  have hquery : cropsIn ((query (K := K) (.getClustersForOwner args.ownerId)).steps
      (answer svc.pf oracle) w) = [] := by
    rw [steps_perform]
    rfl
  unfold run
  cases hrows : Db.getClustersForOwner w.db args.ownerId with
  | error e =>
      have hexec : (query (K := K) (.getClustersForOwner args.ownerId)).exec (answer svc.pf oracle) w =
          (.error e, { w with calls := w.calls + 1 }) := by
        rw [exec_getClusters, hrows]
      rw [steps_bind_error hexec, hquery]
      exact ⟨List.nodup_nil, by simp⟩
  | ok rows =>
      have hexec : (query (K := K) (.getClustersForOwner args.ownerId)).exec (answer svc.pf oracle) w =
          (.ok rows, { w with calls := w.calls + 1 }) := by
        rw [exec_getClusters, hrows]
      obtain ⟨owner, howner, hperm⟩ := getClustersForOwner_ok hrows
      obtain ⟨hstored, -⟩ := @Crops.frames K _ svc oracle args owner w _ _ _ _ _ howner
        (frameIndices args.count args.maxFrames) 0 (crops_start hperm hids)
      have hlog : ∀ f : LoopState K → Program K RunResult,
          (∀ st, (f st).Within (¬ IsPutCrop ·) fun _ => True) →
          cropsIn ((seeFrames svc args (frameIndices args.count args.maxFrames) 0
              (.start rows) >>= f).steps (answer svc.pf oracle) { w with calls := w.calls + 1 }) =
            cropsIn ((seeFrames svc args (frameIndices args.count args.maxFrames) 0
              (.start rows)).steps (answer svc.pf oracle) { w with calls := w.calls + 1 }) := by
        intro f hf
        cases hframes : (seeFrames svc args (frameIndices args.count args.maxFrames) 0
            (.start rows)).exec (answer svc.pf oracle) { w with calls := w.calls + 1 } with
        | mk res w₁ =>
            cases res with
            | error e => rw [steps_bind_error hframes]
            | ok st => rw [steps_bind_ok hframes, cropsIn_append, cropsIn_within (hf st), List.append_nil]
      rw [steps_bind_ok hexec, cropsIn_append, hquery, List.nil_append, hlog]
      · exact ⟨hstored.nodup, hstored.first⟩
      · intro st
        exact within_bind (persist_within_of (fun _ => not_false) (fun _ _ => not_false) st)
          fun _ => within_pure _

theorem loopAt_mirrored {w w' : World K} {st : LoopState K}
    (hids : (w.db.clusters.map (·.id)).Nodup) (h : LoopAt svc oracle args w st w') :
    ∀ k ∈ st.known, ∃ r ∈ w'.db.clusters, r.id.text = k.id ∧ r.cropObject = st.crops.lookup k.id := by
  obtain ⟨rows, before, idx, after, seen, unseen, st₁, w₁, w₂, hrows, -, hframes, hpoll, -, hseen⟩ := h
  obtain ⟨owner, howner, hperm⟩ := getClustersForOwner_ok hrows
  obtain ⟨-, hend⟩ := (crops_start hperm hids).frames howner
  obtain ⟨-, more, m, -, hc⟩ := hend st₁ w₁ hframes
  obtain ⟨hdb, hobj, hdraws⟩ := pollCancel_keeps hpoll
  have hc₂ := hc.of_eq { w₂ with calls := w₂.calls + 1 } hdb hobj hdraws (st₁.frameSkipped +
    (decodedFrame svc w₂.objects args.framesPrefix idx).isNone.toNat)
  obtain ⟨-, hend₂⟩ := hc₂.detections howner seen
  obtain ⟨-, more', m', -, hc'⟩ := hend₂ st w' hseen
  intro k hk
  obtain ⟨r, hr, hrid, -, hcrop⟩ := hc'.mirrored.rows k hk
  exact ⟨r, hr, hrid, hcrop⟩

/-- A cluster that a completed run leaves without a crop was never shown a face
that could be cropped. -/
theorem run_uncropped {w w' : World K} {r : RunResult} (hids : (w.db.clusters.map (·.id)).Nodup)
    (h : (run svc args).exec (answer svc.pf oracle) w = (.ok r, w')) :
    ∃ placed final, matching svc (drawn oracle w) (startState w.db args.ownerId).known 0
        (runSightings svc args w.objects) = .ok (placed, final) ∧
      appendsIn ((run svc args).steps (answer svc.pf oracle) w) = [placed.map (itemOf svc)] ∧
      ∀ p ∈ placed, ∀ row ∈ w'.db.clusters, row.id.text = p.1 → row.cropObject = none →
        p.2.det.bbox.bind (cropJpeg svc p.2.img) = none := by
  obtain ⟨owner, st, n, placed, w₁, howner, hframes, -, hf, hpersist, -⟩ := run_ok hids h
  obtain ⟨db₁, stream, -, -, -, hrows, -⟩ := persist_ok howner hf.drift_keys hf.drift_ids hpersist
  obtain ⟨rows, hread, hstart, hperm⟩ := startState_rows howner w.db
  rw [hstart] at hframes ⊢
  obtain ⟨-, hend⟩ := (crops_start hperm hids).frames howner
  obtain ⟨-, more, m, hmore, hc⟩ := hend st w₁ hframes
  rw [List.nil_append] at hc
  refine ⟨more, st.known, ?_, ?_, fun p hp row hrow hrid hnone => ?_⟩
  · rw [runSightings, ← hmore]
    exact hc.follows.matching_eq
  · rw [(run_log hread hframes hpersist).2, hc.follows.items]
  · -- the writes after the loop leave ids and crops as they are
    have hcolumn : w'.db.clusters.map (fun c => (c.id, c.cropObject)) =
        w₁.db.clusters.map fun c => (c.id, c.cropObject) :=
      persisted_column (fun c => (c.id, c.cropObject)) (fun _ => rfl) hrows
    have hmem : (row.id, row.cropObject) ∈ w₁.db.clusters.map fun c => (c.id, c.cropObject) :=
      hcolumn ▸ List.mem_map_of_mem hrow
    obtain ⟨row₁, hrow₁, hsame⟩ := List.mem_map.mp hmem
    rw [Prod.mk.injEq] at hsame
    obtain ⟨k, hk, hid⟩ := List.mem_map.mp (hc.follows.placed_mem hp)
    obtain ⟨row₂, hrow₂, hid₂, -, hcrop₂⟩ := hc.mirrored.rows k hk
    have hrows : row₂ = row₁ := List.inj_on_of_nodup_map hc.mirrored.ids hrow₂ hrow₁
      (Uuid.text_injective (by rw [hid₂, hid, ← hrid, hsame.1]))
    refine hc.mirrored.uncropped p hp ?_
    rw [← hid, ← hcrop₂, hrows, hsame.2, hnone]

/-- **The crops of a run.** A run stores at most one crop for a cluster and none
for a cluster that had one; between two detections what it has in memory of
crops is what the table has; and a cluster that it leaves without a crop was
only shown faces that have no box or cannot be cropped. -/
theorem run_crops {w : World K} (hids : (w.db.clusters.map (·.id)).Nodup) :
    ((cropsIn ((run svc args).steps (answer svc.pf oracle) w)).Nodup ∧
      ∀ r ∈ w.db.clusters, r.cropObject ≠ none →
        r.id.text ∉ cropsIn ((run svc args).steps (answer svc.pf oracle) w)) ∧
    (∀ st w', LoopAt svc oracle args w st w' → ∀ k ∈ st.known,
      ∃ r ∈ w'.db.clusters, r.id.text = k.id ∧ r.cropObject = st.crops.lookup k.id) ∧
    ∀ r w', (run svc args).exec (answer svc.pf oracle) w = (.ok r, w') →
      ∃ placed final, matching svc (drawn oracle w) (startState w.db args.ownerId).known 0
          (runSightings svc args w.objects) = .ok (placed, final) ∧
        appendsIn ((run svc args).steps (answer svc.pf oracle) w) = [placed.map (itemOf svc)] ∧
        ∀ p ∈ placed, ∀ row ∈ w'.db.clusters, row.id.text = p.1 → row.cropObject = none →
          p.2.det.bbox.bind (cropJpeg svc p.2.img) = none := by
  obtain ⟨hnodup, hfirst⟩ := @run_storedOnce K _ svc oracle args w hids
  refine ⟨⟨hnodup, fun r hr hcrop hmem => hcrop (hfirst _ hmem r hr rfl)⟩, ?_, ?_⟩
  · exact fun st w' h => loopAt_mirrored hids h
  · exact fun r w' h => run_uncropped hids h

/-- One person on both of two frames. -/
theorem run_crops_scene :
    ((cropsIn ((run (sceneService [[(1, 0)], [(1, 0)]]) sceneArgs).steps
        (answer (sceneService [[(1, 0)], [(1, 0)]]).pf (sceneOracle 9)) sceneWorld)).Nodup ∧
      ∀ r ∈ sceneWorld.db.clusters, r.cropObject ≠ none →
        r.id.text ∉ cropsIn ((run (sceneService [[(1, 0)], [(1, 0)]]) sceneArgs).steps
          (answer (sceneService [[(1, 0)], [(1, 0)]]).pf (sceneOracle 9)) sceneWorld)) ∧
    (cropsIn ((run (sceneService [[(1, 0)], [(1, 0)]]) sceneArgs).steps
      (answer (sceneService [[(1, 0)], [(1, 0)]]).pf (sceneOracle 9)) sceneWorld)) =
        [(Uuid.fill 3).text] :=
  ⟨(run_crops (by decide)).1, by decide +kernel⟩

end FacesService
