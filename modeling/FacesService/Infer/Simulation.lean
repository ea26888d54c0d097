import FacesService.Infer.Loop
import FacesService.Store.Keys

/-!
The frame loop follows the matching. `Tracks` says of the local variables that
they are what the matching of the sightings so far makes them, `Backed` of the
store that every known cluster has its row and that nothing the loop reads has
changed. One detection keeps both; so does the loop.
-/

namespace FacesService

open Prog Fallible Database

/-! ### Dicts -/

section Dict

variable {α : Type} {d : List (String × α)} {key : String} {value : α}

theorem mem_dictSet {e : String × α} :
    e ∈ dictSet d key value ↔ e = (key, value) ∨ (e ∈ d ∧ e.1 ≠ key) := by
  unfold dictSet
  split
  · rename_i hkey
    obtain ⟨e₀, he₀, hid⟩ := List.any_eq_true.mp hkey
    rw [List.mem_map]
    constructor
    · rintro ⟨e₁, he₁, rfl⟩
      by_cases h : e₁.1 = key
      · simp [h]
      · simp [h, he₁]
    · rintro (rfl | ⟨he, hne⟩)
      · exact ⟨e₀, he₀, if_pos (by simpa using hid)⟩
      · exact ⟨e, he, by simp [hne]⟩
  · rename_i hkey
    rw [List.mem_append, List.mem_singleton]
    constructor
    · rintro (he | rfl)
      · exact .inr ⟨he, fun h => hkey (List.any_eq_true.mpr ⟨e, he, by simpa using h⟩)⟩
      · exact .inl rfl
    · rintro (rfl | ⟨he, -⟩)
      · exact .inr rfl
      · exact .inl he

theorem dictSet_keys (h : (d.map (·.1)).Nodup) : ((dictSet d key value).map (·.1)).Nodup := by
  unfold dictSet
  split
  · rw [List.map_map]
    have hkeys : d.map ((·.1) ∘ fun e => if e.1 = key then (key, value) else e) = d.map (·.1) := by
      refine List.map_congr_left fun e _ => ?_
      simp only [Function.comp]
      split <;> simp_all
    rw [hkeys]
    exact h
  · rename_i hkey
    rw [List.map_append, List.nodup_append]
    refine ⟨h, by simp, fun a ha b hb heq => hkey ?_⟩
    obtain ⟨e, he, rfl⟩ := List.mem_map.mp ha
    simp only [List.map_cons, List.map_nil, List.mem_singleton] at hb
    exact List.any_eq_true.mpr ⟨e, he, by simp [heq, hb]⟩

theorem lookup_of_mem (h : (d.map (·.1)).Nodup) (hmem : (key, value) ∈ d) :
    d.lookup key = some value := by
  induction d with
  | nil => cases hmem
  | cons e d ih =>
      rw [List.map_cons, List.nodup_cons] at h
      rcases List.mem_cons.mp hmem with rfl | hmem
      · simp
      · have hne : (key == e.1) = false := by
          rw [beq_eq_false_iff_ne]
          exact fun heq => h.1 (heq ▸ List.mem_map_of_mem hmem)
        rw [List.lookup_cons, hne]
        exact ih h.2 hmem

theorem lookup_map_set (d : List (String × α)) (key : String) (value : α) (id : String) :
    (d.map fun e => if e.1 = key then (key, value) else e).lookup id =
      if id = key then (d.lookup id).map fun _ => value else d.lookup id := by
  induction d with
  | nil => simp
  | cons e d ih =>
      by_cases hkey : e.1 = key <;> by_cases hid : id = e.1
      · subst hid hkey
        rw [List.map_cons, if_pos rfl, if_pos rfl, List.lookup_cons, List.lookup_cons,
          beq_self_eq_true]
        rfl
      · have hne : (id == e.1) = false := by simpa using hid
        rw [List.map_cons, if_pos hkey, List.lookup_cons, List.lookup_cons, ← hkey, hne, hkey]
        exact ih
      · subst hid
        rw [List.map_cons, if_neg hkey, if_neg hkey, List.lookup_cons, List.lookup_cons,
          beq_self_eq_true]
      · have hne : (id == e.1) = false := by simpa using hid
        rw [List.map_cons, if_neg hkey, List.lookup_cons, List.lookup_cons, hne]
        exact ih

theorem lookup_dictSet (d : List (String × α)) (key : String) (value : α) (id : String) :
    (dictSet d key value).lookup id = if id = key then some value else d.lookup id := by
  unfold dictSet
  by_cases hkey : (d.any fun e => e.1 = key) = true
  · rw [if_pos hkey, lookup_map_set]
    by_cases hid : id = key
    · obtain ⟨e, he, heq⟩ := List.any_eq_true.mp hkey
      have hsome : d.lookup id ≠ none := by
        rw [Ne, List.lookup_eq_none_iff]
        intro hnone
        simpa [hid, of_decide_eq_true heq] using hnone e he
      rw [if_pos hid, if_pos hid]
      obtain ⟨v, hv⟩ := Option.ne_none_iff_exists'.mp hsome
      rw [hv, Option.map_some]
    · rw [if_neg hid, if_neg hid]
  · rw [if_neg hkey, List.lookup_append]
    by_cases hid : id = key
    · have hnone : d.lookup id = none := by
        rw [List.lookup_eq_none_iff]
        intro e he
        have hne : ¬ e.1 = key := fun heq => hkey (List.any_eq_true.mpr ⟨e, he, by simpa using heq⟩)
        simpa [hid] using Ne.symm hne
      rw [hnone, if_pos hid, hid, List.lookup_cons_self]
      rfl
    · have hne : (id == key) = false := by simpa using hid
      simp [hid, List.lookup_cons, hne]

end Dict

variable {K : Type} [Arithmetic K] {svc : Service K} {oracle : Oracle}

/-! ### The local variables -/

theorem matching_new {ids : ℕ → String} {known : List (Known K)} {n : ℕ} {s : Sighting K}
    (hassign : assign svc known s.det.embedding = .ok none) (ss : List (Sighting K)) :
    matching svc ids known n (s :: ss) =
      (matching svc ids (known ++ [Known.created svc.pf (ids n) s.det.embedding]) (n + 1) ss).map
        fun r => ((ids n, s) :: r.1, r.2) := by
  rw [matching, hassign, ok_bind]
  dsimp only
  cases matching svc ids (known ++ [Known.created svc.pf (ids n) s.det.embedding]) (n + 1) ss <;> rfl

theorem matching_matched {ids : ℕ → String} {known : List (Known K)} {n : ℕ} {s : Sighting K}
    {k c : Known K} (hassign : assign svc known s.det.embedding = .ok (some k))
    (habsorb : absorb svc.pf k s.det.embedding = .ok c) (ss : List (Sighting K)) :
    matching svc ids known n (s :: ss) =
      (matching svc ids (updateKnown known c) n ss).map fun r => ((c.id, s) :: r.1, r.2) := by
  rw [matching, hassign, ok_bind]
  dsimp only
  rw [habsorb, ok_bind]
  cases matching svc ids (updateKnown known c) n ss <;> rfl

/-- What a placed sighting adds to `items`. -/
def itemOf (svc : Service K) (p : String × Sighting K) : Db.Item K :=
  ⟨p.1, asFloat32 svc.pf p.2.det.embedding, p.2.time, p.2.det.confidence⟩

structure Tracks (svc : Service K) (ids : ℕ → String) (known₀ : List (Known K))
    (st : LoopState K) (n : ℕ) (placed : List (String × Sighting K)) : Prop where
  goes_on : ∀ ss, matching svc ids known₀ 0 (placed.map (·.2) ++ ss) =
    (matching svc ids st.known n ss).map fun r => (placed ++ r.1, r.2)
  created : st.known.map (·.id) = known₀.map (·.id) ++ st.createdIds
  nodup : (st.known.map (·.id)).Nodup
  items : st.items = placed.map (itemOf svc)
  drift_keys : (st.drift.map (·.1)).Nodup
  mem_drift : ∀ id v, (id, v) ∈ st.drift ↔
    id ∈ placed.map (·.1) ∧ ∃ k ∈ st.known, k.id = id ∧ k.centroid = v

section Tracks

variable {ids : ℕ → String} {known₀ : List (Known K)} {st st' : LoopState K} {n : ℕ}
  {placed : List (String × Sighting K)}

/-- At any point the sightings so far have been matched as the pure matching
matches them. -/
theorem Tracks.matching_eq (h : Tracks svc ids known₀ st n placed) :
    matching svc ids known₀ 0 (placed.map (·.2)) = .ok (placed, st.known) := by
  have hnil := h.goes_on []
  rw [List.append_nil] at hnil
  rw [hnil]
  simp [matching, Except.map]

omit [Arithmetic K] in
theorem Tracks.step_goes_on {k₀ k₁ k₂ : Except PyError (List (String × Sighting K) × List (Known K))}
    {p : String × Sighting K} (h₁ : k₀ = k₁.map fun r => (placed ++ r.1, r.2))
    (h₂ : k₁ = k₂.map fun r => (p :: r.1, r.2)) :
    k₀ = k₂.map fun r => ((placed ++ [p]) ++ r.1, r.2) := by
  rw [h₁, h₂]
  cases k₂ with
  | error e => rfl
  | ok r => simp [Except.map]

theorem Tracks.new (h : Tracks svc ids known₀ st n placed) {s : Sighting K}
    (hassign : assign svc st.known s.det.embedding = .ok none)
    (hfresh : ids n ∉ st.known.map (·.id))
    (hknown : st'.known = st.known ++ [Known.created svc.pf (ids n) s.det.embedding])
    (hdrift : st'.drift = dictSet st.drift (ids n) (asFloat32 svc.pf s.det.embedding))
    (hcreated : st'.createdIds = st.createdIds ++ [ids n])
    (hitems : st'.items = st.items ++ [itemOf svc (ids n, s)]) :
    Tracks svc ids known₀ st' (n + 1) (placed ++ [(ids n, s)]) where
  goes_on ss := by
    rw [List.map_append, List.append_assoc, hknown]
    exact Tracks.step_goes_on (h.goes_on (s :: ss)) (matching_new hassign ss)
  created := by
    rw [hknown, hcreated, List.map_append, h.created, List.append_assoc]
    rfl
  nodup := by
    rw [hknown, List.map_append, List.nodup_append]
    refine ⟨h.nodup, by simp, fun a ha b hb heq => hfresh ?_⟩
    have hb' : b = ids n := by simpa [Known.created] using hb
    rw [← hb', ← heq]
    exact ha
  items := by rw [hitems, h.items, List.map_append]; rfl
  drift_keys := by
    rw [hdrift]
    exact dictSet_keys h.drift_keys
  mem_drift id v := by
    rw [hdrift, mem_dictSet, hknown, Prod.mk.injEq, h.mem_drift]
    constructor
    · rintro (⟨rfl, rfl⟩ | ⟨⟨hid, k, hk, hkid, hkv⟩, -⟩)
      · exact ⟨by simp, _, List.mem_append_right _ List.mem_cons_self, rfl, rfl⟩
      · exact ⟨by simp [hid], k, List.mem_append_left _ hk, hkid, hkv⟩
    · rintro ⟨hid, k, hk, rfl, rfl⟩
      rcases List.mem_append.mp hk with hk | hk
      · have hne : k.id ≠ ids n := fun heq => hfresh (heq ▸ List.mem_map_of_mem hk)
        refine .inr ⟨⟨?_, k, hk, rfl, rfl⟩, hne⟩
        simpa [hne] using hid
      · rw [List.mem_singleton.mp hk]
        exact .inl ⟨rfl, rfl⟩

theorem Tracks.matched (h : Tracks svc ids known₀ st n placed) {s : Sighting K} {k c : Known K}
    (hassign : assign svc st.known s.det.embedding = .ok (some k))
    (habsorb : absorb svc.pf k s.det.embedding = .ok c)
    (hknown : st'.known = updateKnown st.known c)
    (hdrift : st'.drift = dictSet st.drift c.id c.centroid)
    (hcreated : st'.createdIds = st.createdIds)
    (hitems : st'.items = st.items ++ [itemOf svc (c.id, s)]) :
    Tracks svc ids known₀ st' n (placed ++ [(c.id, s)]) where
  goes_on ss := by
    rw [List.map_append, List.append_assoc, hknown]
    exact Tracks.step_goes_on (h.goes_on (s :: ss)) (matching_matched hassign habsorb ss)
  created := by rw [hknown, hcreated, updateKnown_ids, h.created]
  nodup := by
    rw [hknown, updateKnown_ids]
    exact h.nodup
  items := by rw [hitems, h.items, List.map_append]; rfl
  drift_keys := by
    rw [hdrift]
    exact dictSet_keys h.drift_keys
  mem_drift id v := by
    have hmem : c.id ∈ st.known.map (·.id) := by
      rw [(absorb_id habsorb).1]
      exact List.mem_map_of_mem (assign_mem hassign)
    rw [hdrift, mem_dictSet, hknown, Prod.mk.injEq, h.mem_drift]
    constructor
    · rintro (⟨rfl, rfl⟩ | ⟨⟨hid, k', hk', rfl, rfl⟩, hne⟩)
      · exact ⟨by simp, c, mem_updateKnown_self hmem, rfl, rfl⟩
      · exact ⟨by simp [hid], k', mem_updateKnown_of_ne hk' hne, rfl, rfl⟩
    · rintro ⟨hid, k', hk', rfl, rfl⟩
      rcases mem_updateKnown hk' with ⟨rfl, -⟩ | ⟨hk', hne⟩
      · exact .inl ⟨rfl, rfl⟩
      · refine .inr ⟨⟨?_, k', hk', rfl, rfl⟩, hne⟩
        simpa [hne] using hid

end Tracks

/-! ### The store -/

/-- The ids the run is given, from where it starts. -/
def drawn (oracle : Oracle) (w : World K) (j : ℕ) : String := (oracle.fresh (w.draws + j)).text

/-- Every known cluster has its row, and what the loop reads is as it was. -/
structure Backed (owner : Uuid) (pre : String) (w₀ w : World K) (known : List (Known K)) : Prop where
  rows : ∀ k ∈ known, ∃ r ∈ w.db.clusters, r.id.text = k.id ∧ r.ownerId = owner
  ids : (w.db.clusters.map (·.id)).Nodup
  occurrences : w.db.occurrences = w₀.db.occurrences
  frames : ∀ idx, w.objects (frameKey pre idx) = w₀.objects (frameKey pre idx)

section Backed

variable {owner : Uuid} {pre : String} {w₀ w w' : World K} {known known' : List (Known K)}

omit [Arithmetic K] in
theorem Backed.ids_mono (h : Backed owner pre w₀ w known)
    (hids : known'.map (·.id) = known.map (·.id)) : Backed owner pre w₀ w known' where
  rows k hk := by
    have hmem : k.id ∈ known.map (·.id) := hids ▸ List.mem_map_of_mem hk
    obtain ⟨k', hk', hid⟩ := List.mem_map.mp hmem
    obtain ⟨r, hr, hrid, hro⟩ := h.rows k' hk'
    exact ⟨r, hr, hrid.trans hid, hro⟩
  ids := h.ids
  occurrences := h.occurrences
  frames := h.frames

omit [Arithmetic K] in
theorem Backed.not_known (h : Backed owner pre w₀ w known) {c : Cluster K} {db' : Database K}
    (hinsert : w.db.insertCluster c = .ok db') : c.id.text ∉ known.map (·.id) := by
  intro hmem
  obtain ⟨k, hk, hid⟩ := List.mem_map.mp hmem
  obtain ⟨r, hr, hrid, -⟩ := h.rows k hk
  exact (insertCluster_eq_ok hinsert).1 r hr (Uuid.text_injective (hrid.trans hid))

omit [Arithmetic K] in
theorem Backed.insertCluster (h : Backed owner pre w₀ w known) {c : Cluster K} {k : Known K}
    (howner : c.ownerId = owner) (hk : k.id = c.id.text)
    (hinsert : w.db.insertCluster c = .ok w'.db) (hobjects : w'.objects = w.objects) :
    Backed owner pre w₀ w' (known ++ [k]) := by
  obtain ⟨hfresh, hdb⟩ := insertCluster_eq_ok hinsert
  refine ⟨fun k' hk' => ?_, ?_, ?_, fun idx => by rw [hobjects, h.frames]⟩
  · rw [hdb]
    rcases List.mem_append.mp hk' with hk' | hk'
    · obtain ⟨r, hr, hboth⟩ := h.rows k' hk'
      exact ⟨r, List.mem_append_left _ hr, hboth⟩
    · rw [List.mem_singleton.mp hk']
      exact ⟨c, List.mem_append_right _ List.mem_cons_self, hk.symm, howner⟩
  · rw [hdb, List.map_append, List.nodup_append]
    refine ⟨h.ids, by simp, fun a ha b hb heq => ?_⟩
    obtain ⟨r, hr, rfl⟩ := List.mem_map.mp ha
    exact hfresh r hr (heq.trans (by simpa using hb))
  · rw [hdb]
    exact h.occurrences

omit [Arithmetic K] in
theorem Backed.updateClusters (h : Backed owner pre w₀ w known) {p : Cluster K → Bool}
    {f : Cluster K → Cluster K} (hid : ∀ r, (f r).id = r.id)
    (howner : ∀ r, (f r).ownerId = r.ownerId) (hdb : w'.db = w.db.updateClusters p f)
    (hframes : ∀ idx, w'.objects (frameKey pre idx) = w.objects (frameKey pre idx)) :
    Backed owner pre w₀ w' known where
  rows k hk := by
    obtain ⟨r, hr, hrid, hro⟩ := h.rows k hk
    refine ⟨_, hdb ▸ updateClusters_mem hr, ?_⟩
    split <;> simp [hid, howner, hrid, hro]
  ids := by
    rw [hdb, updateClusters_ids hid]
    exact h.ids
  occurrences := by
    rw [hdb]
    exact h.occurrences
  frames idx := (hframes idx).trans (h.frames idx)

omit [Arithmetic K] in
/-- Every known id is a row's. -/
theorem Backed.id_text (h : Backed owner pre w₀ w known) {id : String}
    (hid : id ∈ known.map (·.id)) : ∃ u : Uuid, u.text = id := by
  obtain ⟨k, hk, rfl⟩ := List.mem_map.mp hid
  obtain ⟨r, -, hrid, -⟩ := h.rows k hk
  exact ⟨r.id, hrid⟩

omit [Arithmetic K] in
/-- A crop lies beside the frames. -/
theorem frames_putCrop {ownerId clusterId : String} {id : Uuid} {blob : Blob}
    (hid : castUuid clusterId = .ok id)
    (hobjects : w'.objects = Function.update w.objects (cropKey ownerId clusterId) (some blob))
    (idx : ℕ) : w'.objects (frameKey pre idx) = w.objects (frameKey pre idx) := by
  rw [hobjects, Function.update_of_ne (cropKey_ne_frameKey hid pre idx).symm]

end Backed

/-! ### The loop -/

/-- The loop so far: its variables, the store under them, the ids it drew. -/
structure Follows (svc : Service K) (oracle : Oracle) (owner : Uuid) (pre : String)
    (w₀ w : World K) (known₀ : List (Known K)) (st : LoopState K) (n : ℕ)
    (placed : List (String × Sighting K)) : Prop extends
    Tracks svc (drawn oracle w₀) known₀ st n placed, Backed owner pre w₀ w st.known where
  draws : w.draws = w₀.draws + n

section Loop

variable {owner : Uuid} {pre : String} {w₀ w w' : World K} {known₀ : List (Known K)}
  {st st' : LoopState K} {n : ℕ} {placed : List (String × Sighting K)}

theorem Follows.placed_mem (h : Follows svc oracle owner pre w₀ w known₀ st n placed)
    {p : String × Sighting K} (hp : p ∈ placed) : p.1 ∈ st.known.map (·.id) :=
  matching_placed h.matching_eq p hp

theorem Follows.drift_ids (h : Follows svc oracle owner pre w₀ w known₀ st n placed) :
    ∀ e ∈ st.drift, ∃ id : Uuid, id.text = e.1 := by
  intro e he
  obtain ⟨-, k, hk, hid, -⟩ := (h.mem_drift e.1 e.2).mp he
  exact h.id_text (hid ▸ List.mem_map_of_mem hk)

/-- The counters of calls and polls are not followed. -/
theorem Follows.of_eq (h : Follows svc oracle owner pre w₀ w known₀ st n placed)
    (hdb : w'.db = w.db) (hobjects : w'.objects = w.objects) (hdraws : w'.draws = w.draws)
    (hknown : st'.known = st.known) (hdrift : st'.drift = st.drift)
    (hcreated : st'.createdIds = st.createdIds) (hitems : st'.items = st.items) :
    Follows svc oracle owner pre w₀ w' known₀ st' n placed where
  goes_on ss := by rw [hknown]; exact h.goes_on ss
  created := by rw [hknown, hcreated]; exact h.created
  nodup := by rw [hknown]; exact h.nodup
  items := hitems.trans h.items
  drift_keys := by rw [hdrift]; exact h.drift_keys
  mem_drift id v := by rw [hdrift, hknown]; exact h.mem_drift id v
  rows := by rw [hdb, hknown]; exact h.rows
  ids := by rw [hdb]; exact h.ids
  occurrences := by rw [hdb]; exact h.occurrences
  frames := by rw [hobjects]; exact h.frames
  draws := hdraws.trans h.draws

theorem seeDetection_follows {ownerId : String} (howner : castUuid ownerId = .ok owner)
    {s : Sighting K} (hf : Follows svc oracle owner pre w₀ w known₀ st n placed)
    (h : (seeDetection svc ownerId s.img s.time st s.det).exec (answer svc.pf oracle) w =
      (.ok st', w')) :
    ∃ id m, Follows svc oracle owner pre w₀ w' known₀ st' m (placed ++ [(id, s)]) := by
  obtain ⟨c, needCrop, st₁, st₂, w₁, hplaced, hsaved, rfl⟩ := seeDetection_ok h
  -- the crop touches neither what the loop tracks nor the ids and owners of the rows
  have hcrop : st₂.known = st₁.known ∧ st₂.drift = st₁.drift ∧ st₂.createdIds = st₁.createdIds ∧
      st₂.items = st₁.items := by
    cases hsaved <;> exact ⟨rfl, rfl, rfl, rfl⟩
  obtain ⟨hknown, hdrift, hcreated, hitems⟩ := hcrop
  have hdraws₂ : w'.draws = w₁.draws := by
    cases hsaved with
    | none hcrop => rfl
    | some hcrop hid howner hdb hobjects hpolls hdraws => exact hdraws
  have hbacked : ∀ {known : List (Known K)}, Backed owner pre w₀ w₁ known →
      Backed owner pre w₀ w' known := by
    intro known hb
    cases hsaved with
    | none hcrop => exact hb
    | some hcrop hid howner hdb hobjects hpolls hdraws =>
        exact hb.updateClusters (by intro r; rfl) (by intro r; rfl) hdb fun idx =>
          frames_putCrop hid hobjects idx
  cases hplaced with
  | @matched k _ hassign habsorb =>
      have htracks : Tracks svc (drawn oracle w₀) known₀ { st₂ with items := st₂.items ++
          [⟨c.id, asFloat32 svc.pf s.det.embedding, s.time, s.det.confidence⟩] } n
          (placed ++ [(c.id, s)]) := by
        refine hf.toTracks.matched hassign habsorb hknown hdrift hcreated ?_
        rw [hitems]
        rfl
      have hids : st₂.known.map (·.id) = st.known.map (·.id) := by
        rw [hknown]
        exact updateKnown_ids _ _
      exact ⟨c.id, n, { htracks, (hbacked hf.toBacked).ids_mono hids with
        draws := hdraws₂.trans hf.draws }⟩
  | @created owner' _ hassign howner' hinsert hobjects hpolls hdraws =>
      rw [howner] at howner'
      cases howner'
      have hdrawn : (oracle.fresh w.draws).text = drawn oracle w₀ n := by
        rw [drawn, ← hf.draws]
      have hnew := hf.toBacked.not_known hinsert
      have htracks : Tracks svc (drawn oracle w₀) known₀ { st₂ with items := st₂.items ++
          [⟨(oracle.fresh w.draws).text, asFloat32 svc.pf s.det.embedding, s.time,
            s.det.confidence⟩] } (n + 1) (placed ++ [(drawn oracle w₀ n, s)]) := by
        rw [hdrawn] at hknown hdrift hcreated ⊢
        refine hf.toTracks.new hassign ?_ hknown hdrift hcreated ?_
        · rw [← hdrawn]
          exact hnew
        · rw [hitems]
          rfl
      have hbacked₁ := hf.toBacked.insertCluster (k := Known.created svc.pf
        (oracle.fresh w.draws).text s.det.embedding) rfl rfl hinsert hobjects
      have hbacked₂ : Backed owner pre w₀ w' st₂.known := by
        rw [hknown]
        exact hbacked hbacked₁
      refine ⟨_, _, { htracks, hbacked₂ with draws := ?_ }⟩
      rw [hdraws₂, hdraws, hf.draws, Nat.add_assoc]

theorem seeAll_follows {ownerId : String} (howner : castUuid ownerId = .ok owner)
    {ss : List (Sighting K)} (hf : Follows svc oracle owner pre w₀ w known₀ st n placed)
    (h : (seeAll svc ownerId ss st).exec (answer svc.pf oracle) w = (.ok st', w')) :
    ∃ more m, more.map (·.2) = ss ∧
      Follows svc oracle owner pre w₀ w' known₀ st' m (placed ++ more) := by
  induction ss generalizing st w n placed with
  | nil =>
      cases h
      exact ⟨[], n, rfl, by rwa [List.append_nil]⟩
  | cons s ss ih =>
      obtain ⟨st₁, w₁, hsee, hrest⟩ := seeAll_cons_ok h
      obtain ⟨id, m, hf₁⟩ := seeDetection_follows howner hf hsee
      obtain ⟨more, m', hmore, hf'⟩ := ih hf₁ hrest
      exact ⟨(id, s) :: more, m', by rw [List.map_cons, hmore], by simpa using hf'⟩

theorem frameSightings_congr {objects objects' : String → Option Blob} {idx : ℕ}
    (h : objects (frameKey pre idx) = objects' (frameKey pre idx)) :
    frameSightings svc objects pre idx = frameSightings svc objects' pre idx := by
  unfold frameSightings
  rw [h]

/-- **The run lemma**: a loop that gets through its frames has matched their
sightings as the pure matching does. -/
theorem seeFrames_follows {args : RunArgs} (howner : castUuid args.ownerId = .ok owner)
    {indices : List ℕ} {done : ℕ}
    (hf : Follows svc oracle owner args.framesPrefix w₀ w known₀ st n placed)
    (h : (seeFrames svc args indices done st).exec (answer svc.pf oracle) w = (.ok st', w')) :
    ∃ more m, more.map (·.2) = sightings svc w₀.objects args.framesPrefix indices ∧
      Follows svc oracle owner args.framesPrefix w₀ w' known₀ st' m (placed ++ more) := by
  induction indices generalizing done st w n placed with
  | nil =>
      cases h
      exact ⟨[], n, rfl, by rwa [List.append_nil]⟩
  | cons idx rest ih =>
      unfold seeFrames at h
      obtain ⟨⟨⟩, w₁, hpoll, h⟩ := exec_bind_eq_ok.mp h
      obtain ⟨st₁, w₂, hframe, h⟩ := exec_bind_eq_ok.mp h
      obtain ⟨hdb, hobj, hdraws⟩ := pollCancel_keeps hpoll
      obtain ⟨skipped, hexec⟩ := @seeFrame_exec K _ svc oracle args idx st w₁
      have hframes := hf.frames idx
      rw [← hobj] at hframes
      rw [hexec, frameSightings_congr hframes] at hframe
      have hf₁ : Follows svc oracle owner args.framesPrefix w₀ { w₁ with calls := w₁.calls + 1 }
          known₀ { st with frameSkipped := skipped } n placed :=
        hf.of_eq hdb hobj hdraws rfl rfl rfl rfl
      obtain ⟨more₁, m₁, hmore₁, hf₂⟩ := seeAll_follows howner hf₁ hframe
      obtain ⟨more, m, hmore, hf'⟩ := ih hf₂ h
      refine ⟨more₁ ++ more, m, ?_, by simpa using hf'⟩
      rw [List.map_append, hmore₁, hmore]
      rfl

end Loop

/-! ### From the start -/

/-- A run starts from the rows of its owner. -/
theorem follows_start {owner : Uuid} {pre : String} {w w₁ : World K} {rows : List (Cluster K)}
    (hrows : rows.Perm (w.db.clusters.filter fun c => c.ownerId = owner))
    (hids : (w.db.clusters.map (·.id)).Nodup) (hdb : w₁.db = w.db) (hobjects : w₁.objects = w.objects)
    (hdraws : w₁.draws = w.draws) :
    Follows svc oracle owner pre w w₁ (LoopState.start rows).known (LoopState.start rows) 0 [] where
  goes_on ss := by
    rw [List.map_nil, List.nil_append]
    cases matching svc (drawn oracle w) (LoopState.start rows).known 0 ss <;> rfl
  created := by simp [LoopState.start]
  nodup := by
    have hnodup : (rows.map (·.id)).Nodup := by
      rw [(hrows.map (·.id)).nodup_iff]
      exact hids.sublist (List.filter_sublist.map _)
    have hknown : (LoopState.start rows).known.map (·.id) = (rows.map (·.id)).map Uuid.text := by
      simp [LoopState.start, Known.ofRow, Function.comp_def]
    rw [hknown]
    exact hnodup.map Uuid.text_injective
  items := rfl
  drift_keys := List.nodup_nil
  mem_drift id v := by simp [LoopState.start]
  rows k hk := by
    obtain ⟨r, hr, rfl⟩ := List.mem_map.mp hk
    have hmem := List.mem_filter.mp (hrows.mem_iff.mp hr)
    exact ⟨r, hdb ▸ hmem.1, rfl, by simpa using hmem.2⟩
  ids := hdb ▸ hids
  occurrences := by rw [hdb]
  frames idx := by rw [hobjects]
  draws := hdraws

end FacesService
