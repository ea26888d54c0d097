import FacesService.Model.Infer
import FacesService.Base.Fallible

/-!
The frame loop without its effects. What the run does to the clusters in
memory is a function of the clusters it starts from, the sightings in the
stored frames and the ids it is given for new clusters; `matching` is that
function. The loop is proved to follow it elsewhere; here is what it does to
one cluster: it absorbs, one after the other, the embeddings it received.
-/

namespace FacesService

open Fallible

variable {K : Type} [Arithmetic K] {svc : Service K}

/-- A detection, on the frame it was seen on. -/
structure Sighting (K : Type) where
  time : K
  img : Image
  det : Detection K

/-- What the engine sees on one frame of the bucket. -/
def frameSightings (svc : Service K) (objects : String → Option Blob) (pre : String) (idx : ℕ) :
    List (Sighting K) :=
  match objects (frameKey pre idx) with
  | none => []
  | some blob =>
      match decodeImg svc.vision blob.data with
      | none => []
      | some img =>
          (svc.vision.embed img svc.config.detectThreshold 0 0).map fun det =>
            ⟨sampleTime idx, img, det⟩

/-- The picture of a frame, where it is there and can be decoded. -/
def decodedFrame (svc : Service K) (objects : String → Option Blob) (pre : String) (idx : ℕ) :
    Option Image :=
  (objects (frameKey pre idx)).bind fun blob => decodeImg svc.vision blob.data

def sightings (svc : Service K) (objects : String → Option Blob) (pre : String)
    (indices : List ℕ) : List (Sighting K) :=
  indices.flatMap (frameSightings svc objects pre)

/-- Which cluster takes which sighting, and what the clusters become. -/
def matching (svc : Service K) (ids : ℕ → String) : List (Known K) → ℕ → List (Sighting K) →
    Except PyError (List (String × Sighting K) × List (Known K))
  | known, _, [] => .ok ([], known)
  | known, n, s :: ss => do
      match ← assign svc known s.det.embedding with
      | none =>
          let c := Known.created svc.pf (ids n) s.det.embedding
          let (placed, final) ← matching svc ids (known ++ [c]) (n + 1) ss
          .ok ((c.id, s) :: placed, final)
      | some k =>
          let c ← absorb svc.pf k s.det.embedding
          let (placed, final) ← matching svc ids (updateKnown known c) n ss
          .ok ((c.id, s) :: placed, final)

/-- The embeddings a cluster received, in order. -/
def received (placed : List (String × Sighting K)) (id : String) : List (List K) :=
  (placed.filter fun p => p.1 = id).map fun p => p.2.det.embedding

omit [Arithmetic K] in
theorem received_cons_self (id : String) (s : Sighting K) (placed : List (String × Sighting K)) :
    received ((id, s) :: placed) id = s.det.embedding :: received placed id := by
  simp [received]

omit [Arithmetic K] in
theorem received_cons_ne {id id' : String} (h : id' ≠ id) (s : Sighting K)
    (placed : List (String × Sighting K)) : received ((id', s) :: placed) id = received placed id := by
  simp [received, h]

omit [Arithmetic K] in
theorem received_ne_nil {placed : List (String × Sighting K)} {id : String} :
    received placed id ≠ [] ↔ id ∈ placed.map (·.1) := by
  simp [received, List.filter_eq_nil_iff]

theorem length_embedding_of_mem {objects : String → Option Blob} {pre : String}
    {indices : List ℕ} {s : Sighting K} (h : s ∈ sightings svc objects pre indices) :
    s.det.embedding.length = svc.vision.dim := by
  obtain ⟨idx, -, hs⟩ := List.mem_flatMap.mp h
  unfold frameSightings at hs
  split at hs
  · cases hs
  · split at hs
    · cases hs
    · obtain ⟨det, hdet, rfl⟩ := List.mem_map.mp hs
      exact svc.vision.length_embedding _ _ _ _ det hdet

/-! ### One round -/

omit [Arithmetic K] in
theorem find_of_mem {known : List (Known K)} {k : Known K} (h : (known.map (·.id)).Nodup)
    (hk : k ∈ known) : known.find? (fun c => c.id = k.id) = some k := by
  cases hfind : known.find? fun c => c.id = k.id with
  | none => simpa using List.find?_eq_none.mp hfind k hk
  | some c =>
      have hid : c.id = k.id := by simpa using List.find?_some hfind
      rw [List.inj_on_of_nodup_map h (List.mem_of_find?_eq_some hfind) hk hid]

theorem assign_mem {known : List (Known K)} {e : List K} {k : Known K}
    (h : assign svc known e = .ok (some k)) : k ∈ known := by
  unfold assign at h
  obtain ⟨⟨best, sim⟩, -, h⟩ := bind_eq_ok.mp h
  cases best with
  | none => cases h
  | some id =>
      rw [Except.ok.injEq] at h
      exact List.mem_of_find?_eq_some h

theorem absorb_id {pf : Platform K} {k c : Known K} {e : List K} (h : absorb pf k e = .ok c) :
    c.id = k.id ∧ c.isNamed = k.isNamed ∧ c.sampleCount = k.sampleCount + 1 := by
  unfold absorb at h
  obtain ⟨merged, -, h⟩ := bind_eq_ok.mp h
  cases h
  exact ⟨rfl, rfl, rfl⟩

omit [Arithmetic K] in
@[simp] theorem updateKnown_ids (known : List (Known K)) (c : Known K) :
    (updateKnown known c).map (·.id) = known.map (·.id) := by
  rw [updateKnown, List.map_map]
  refine List.map_congr_left fun k _ => ?_
  simp only [Function.comp]
  split <;> simp_all

omit [Arithmetic K] in
theorem mem_updateKnown_self {known : List (Known K)} {c : Known K}
    (h : c.id ∈ known.map (·.id)) : c ∈ updateKnown known c := by
  obtain ⟨k, hk, hid⟩ := List.mem_map.mp h
  exact List.mem_map.mpr ⟨k, hk, by simp [hid]⟩

omit [Arithmetic K] in
theorem mem_updateKnown_of_ne {known : List (Known K)} {k c : Known K} (hk : k ∈ known)
    (hne : k.id ≠ c.id) : k ∈ updateKnown known c :=
  List.mem_map.mpr ⟨k, hk, by simp [hne]⟩

omit [Arithmetic K] in
theorem mem_updateKnown {known : List (Known K)} {k c : Known K} (h : k ∈ updateKnown known c) :
    (k = c ∧ c.id ∈ known.map (·.id)) ∨ (k ∈ known ∧ k.id ≠ c.id) := by
  obtain ⟨k₀, hk₀, rfl⟩ := List.mem_map.mp h
  by_cases hid : k₀.id = c.id
  · rw [if_pos hid]
    exact .inl ⟨rfl, hid ▸ List.mem_map_of_mem hk₀⟩
  · rw [if_neg hid]
    exact .inr ⟨hk₀, hid⟩

/-- A successful round, and the matching of the rest after it. -/
theorem matching_cons {ids : ℕ → String} {known final : List (Known K)} {n : ℕ} {s : Sighting K}
    {ss : List (Sighting K)} {placed : List (String × Sighting K)}
    (h : matching svc ids known n (s :: ss) = .ok (placed, final)) :
    (∃ placed', assign svc known s.det.embedding = .ok none ∧ placed = (ids n, s) :: placed' ∧
        matching svc ids (known ++ [Known.created svc.pf (ids n) s.det.embedding]) (n + 1) ss =
          .ok (placed', final)) ∨
      ∃ k c placed', assign svc known s.det.embedding = .ok (some k) ∧
        absorb svc.pf k s.det.embedding = .ok c ∧ placed = (c.id, s) :: placed' ∧
        matching svc ids (updateKnown known c) n ss = .ok (placed', final) := by
  unfold matching at h
  obtain ⟨best, hbest, h⟩ := bind_eq_ok.mp h
  cases best with
  | none =>
      obtain ⟨⟨placed', final'⟩, hrest, h⟩ := bind_eq_ok.mp h
      cases h
      exact .inl ⟨placed', hbest, rfl, hrest⟩
  | some k =>
      obtain ⟨c, hc, h⟩ := bind_eq_ok.mp h
      obtain ⟨⟨placed', final'⟩, hrest, h⟩ := bind_eq_ok.mp h
      cases h
      exact .inr ⟨k, c, placed', hbest, hc, rfl, hrest⟩

/-- Every sighting is placed, in order. -/
theorem matching_sightings {ids : ℕ → String} {known final : List (Known K)} {n : ℕ}
    {ss : List (Sighting K)} {placed : List (String × Sighting K)}
    (h : matching svc ids known n ss = .ok (placed, final)) : placed.map (·.2) = ss := by
  induction ss generalizing known n placed with
  | nil =>
      cases h
      rfl
  | cons s ss ih =>
      rcases matching_cons h with ⟨placed', -, rfl, hrest⟩ | ⟨k, c, placed', -, -, rfl, hrest⟩ <;>
        rw [List.map_cons, ih hrest]

/-- Clusters are only added, at the end. -/
theorem matching_ids {ids : ℕ → String} {known final : List (Known K)} {n : ℕ}
    {ss : List (Sighting K)} {placed : List (String × Sighting K)}
    (h : matching svc ids known n ss = .ok (placed, final)) :
    known.map (·.id) <+: final.map (·.id) := by
  induction ss generalizing known n placed with
  | nil =>
      cases h
      exact List.prefix_refl _
  | cons s ss ih =>
      rcases matching_cons h with ⟨placed', -, -, hrest⟩ | ⟨k, c, placed', -, -, -, hrest⟩
      · refine List.IsPrefix.trans ?_ (ih hrest)
        rw [List.map_append]
        exact List.prefix_append _ _
      · rw [← updateKnown_ids known c]
        exact ih hrest

/-- Every sighting goes to a cluster that is known in the end. -/
theorem matching_placed {ids : ℕ → String} {known final : List (Known K)} {n : ℕ}
    {ss : List (Sighting K)} {placed : List (String × Sighting K)}
    (h : matching svc ids known n ss = .ok (placed, final)) :
    ∀ p ∈ placed, p.1 ∈ final.map (·.id) := by
  induction ss generalizing known n placed with
  | nil =>
      cases h
      simp
  | cons s ss ih =>
      intro p hp
      rcases matching_cons h with ⟨placed', -, rfl, hrest⟩ | ⟨k, c, placed', hassign, hc, rfl, hrest⟩
      · rcases List.mem_cons.mp hp with rfl | hp
        · exact (matching_ids hrest).subset (by simp [Known.created])
        · exact ih hrest p hp
      · rcases List.mem_cons.mp hp with rfl | hp
        · refine (matching_ids hrest).subset ?_
          rw [updateKnown_ids, (absorb_id hc).1]
          exact List.mem_map_of_mem (assign_mem hassign)
        · exact ih hrest p hp

/-! ### One cluster -/

/-- What a known cluster becomes by the embeddings it receives. -/
def absorbAll (pf : Platform K) (k : Known K) (es : List (List K)) : Except PyError (Known K) :=
  es.foldlM (absorb pf) k

theorem absorbAll_cons {pf : Platform K} {k c : Known K} {e : List K} {es : List (List K)}
    (h : absorb pf k e = .ok c) : absorbAll pf k (e :: es) = absorbAll pf c es := by
  rw [absorbAll, List.foldlM_cons, h]
  rfl

/-- A cluster known at the start ends as what its embeddings make of it. -/
theorem matching_known {ids : ℕ → String} {known final : List (Known K)} {n : ℕ}
    {ss : List (Sighting K)} {placed : List (String × Sighting K)}
    (h : matching svc ids known n ss = .ok (placed, final)) (hnodup : (final.map (·.id)).Nodup)
    {k : Known K} (hk : k ∈ known) :
    ∃ k' ∈ final, k'.id = k.id ∧ absorbAll svc.pf k (received placed k.id) = .ok k' := by
  induction ss generalizing known n placed k with
  | nil =>
      cases h
      exact ⟨k, hk, rfl, rfl⟩
  | cons s ss ih =>
      rcases matching_cons h with ⟨placed', -, rfl, hrest⟩ | ⟨k₁, c, placed', hassign, hc, rfl, hrest⟩
      · have hne : ids n ≠ k.id := by
          have hids := hnodup.sublist (matching_ids hrest).sublist
          rw [List.map_append, List.nodup_append] at hids
          exact fun heq => hids.2.2 _ (List.mem_map_of_mem hk) _ (List.mem_singleton.mpr rfl) heq.symm
        rw [received_cons_ne hne]
        exact ih hrest (List.mem_append_left _ hk)
      · have hids := (absorb_id hc).1
        by_cases hid : k.id = c.id
        · have hsame : k = k₁ := by
            have hknown := hnodup.sublist (matching_ids h).sublist
            exact List.inj_on_of_nodup_map hknown hk (assign_mem hassign) (hid.trans hids)
          subst hsame
          obtain ⟨k', hk', hid', habs⟩ := ih hrest (mem_updateKnown_self (by
            rw [hids]
            exact List.mem_map_of_mem hk))
          refine ⟨k', hk', hid'.trans hids, ?_⟩
          rw [← hids, received_cons_self, absorbAll_cons hc]
          exact habs
        · rw [received_cons_ne (Ne.symm hid)]
          exact ih hrest (mem_updateKnown_of_ne hk hid)

/-- A cluster created on the way starts from its first embedding and absorbs
the rest. -/
theorem matching_created {ids : ℕ → String} {known final : List (Known K)} {n : ℕ}
    {ss : List (Sighting K)} {placed : List (String × Sighting K)}
    (h : matching svc ids known n ss = .ok (placed, final)) (hnodup : (final.map (·.id)).Nodup)
    {id : String} (hnew : id ∉ known.map (·.id)) (hid : id ∈ placed.map (·.1)) :
    ∃ e es k', received placed id = e :: es ∧ k' ∈ final ∧ k'.id = id ∧
      absorbAll svc.pf (Known.created svc.pf id e) es = .ok k' := by
  induction ss generalizing known n placed with
  | nil =>
      cases h
      simp at hid
  | cons s ss ih =>
      rcases matching_cons h with ⟨placed', -, rfl, hrest⟩ | ⟨k₁, c, placed', hassign, hc, rfl, hrest⟩
      · by_cases heq : ids n = id
        · subst heq
          obtain ⟨k', hk', hid', habs⟩ := matching_known hrest hnodup
            (List.mem_append_right known List.mem_cons_self)
          exact ⟨s.det.embedding, received placed' (ids n), k', received_cons_self _ _ _, hk', hid',
            habs⟩
        · rw [received_cons_ne heq]
          refine ih hrest ?_ ?_
          · rw [List.map_append, List.mem_append, not_or]
            exact ⟨hnew, by simpa [Known.created] using Ne.symm heq⟩
          · simpa [Ne.symm heq] using hid
      · have hmem : c.id ∈ known.map (·.id) := by
          rw [(absorb_id hc).1]
          exact List.mem_map_of_mem (assign_mem hassign)
        have hne : c.id ≠ id := fun heq => hnew (heq ▸ hmem)
        rw [received_cons_ne hne]
        refine ih hrest ?_ ?_
        · rwa [updateKnown_ids]
        · simpa [Ne.symm hne] using hid

end FacesService
