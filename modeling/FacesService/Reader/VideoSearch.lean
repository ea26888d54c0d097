import FacesService.Reader.Steps
import FacesService.Store.Invariant
import FacesService.Store.Merge
import Mathlib.Data.Finset.Card
import Mathlib.Data.Prod.Lex

/-!
The search for videos by persons. The query compares a count of distinct ids
with the number of strings asked for. Where no two of the strings are one id,
both are the size of a set, the one a part of the other, so the count is reached
exactly if nobody is missing; where two are, it is out of reach. The hits of a
search are determined by the set of persons, and so is their order.
-/

namespace FacesService

open Db Fallible Prog

variable {K : Type}

/-! ### What is searched for -/

/-- The person is seen in the video, in a row of the owner. -/
def Occurs (db : Database K) (owner id stream : Uuid) : Prop :=
  ∃ o ∈ db.occurrences, o.ownerId = owner ∧ o.clusterId = id ∧ o.streamId = stream

instance (db : Database K) (owner id stream : Uuid) : Decidable (Occurs db owner id stream) :=
  inferInstanceAs (Decidable (∃ o ∈ db.occurrences, _))

/-- The video is one that is searched for. -/
def Wanted (db : Database K) (owner : Uuid) (ids : Finset Uuid) : SearchMode → Uuid → Prop
  | .all, stream => ∀ id ∈ ids, Occurs db owner id stream
  | .any, stream => ∃ id ∈ ids, Occurs db owner id stream

/-- More persons first, then more frames, then the smaller id. -/
def HitBefore (a b : StreamHit) : Prop :=
  b.persons < a.persons ∨ (a.persons = b.persons ∧
    (b.frames < a.frames ∨ (a.frames = b.frames ∧ a.streamId.text < b.streamId.text)))

/-- The hits are exactly the videos searched for, each with its counts. -/
structure ExactHits (db : Database K) (owner : Uuid) (ids : Finset Uuid) (mode : SearchMode)
    (hits : List StreamHit) : Prop where
  found : ∀ stream, stream ∈ hits.map (·.streamId) ↔ Wanted db owner ids mode stream
  once : (hits.map (·.streamId)).Nodup
  persons : ∀ hit ∈ hits, hit.persons = (ids.filter fun id => Occurs db owner id hit.streamId).card
  frames : ∀ hit ∈ hits, hit.frames = db.occurrences.countP fun o =>
    o.ownerId = owner && o.clusterId ∈ ids && o.streamId = hit.streamId
  ordered : hits.Pairwise HitBefore

/-! ### The order of the hits -/

/-- `ORDER BY persons DESC, frames DESC, stream_id`. -/
def hitOrder (a b : StreamHit) : Bool :=
  b.persons < a.persons || (a.persons = b.persons && (b.frames < a.frames ||
    (a.frames = b.frames && a.streamId.text ≤ b.streamId.text)))

def hitKey (h : StreamHit) : ℕᵒᵈ ×ₗ ℕᵒᵈ ×ₗ String :=
  toLex (OrderDual.toDual h.persons, toLex (OrderDual.toDual h.frames, h.streamId.text))

theorem hitOrder_iff {a b : StreamHit} : hitOrder a b = true ↔ hitKey a ≤ hitKey b := by
  rw [hitKey, hitKey, Prod.Lex.le_iff]
  simp [hitOrder, Prod.Lex.le_iff]

theorem hitBefore_iff {a b : StreamHit} : HitBefore a b ↔ hitKey a < hitKey b := by
  rw [hitKey, hitKey, Prod.Lex.lt_iff, Prod.Lex.lt_iff]
  simp only [HitBefore, ofLex_toLex, OrderDual.toDual_lt_toDual, EmbeddingLike.apply_eq_iff_eq]

theorem hitKey_injective_on {a b : StreamHit} (h : hitKey a = hitKey b) : a.streamId = b.streamId := by
  have hinner := congrArg (fun k => (ofLex (ofLex k).2).2) h
  exact Uuid.text_injective hinner

instance : IsTrans StreamHit fun a b => hitOrder a b = true where
  trans a b c hab hbc := by
    rw [hitOrder_iff] at *
    exact hab.trans hbc

instance : Std.Total fun a b : StreamHit => hitOrder a b = true where
  total a b := by
    rw [hitOrder_iff, hitOrder_iff]
    exact le_total _ _

/-- Of hits of different videos the order is strict. -/
theorem orderBy_hits {hits : List StreamHit} (h : (hits.map (·.streamId)).Nodup) :
    (orderBy hitOrder hits).Pairwise HitBefore := by
  have hsorted : (orderBy hitOrder hits).Pairwise fun a b => hitOrder a b = true :=
    List.pairwise_insertionSort (fun a b => hitOrder a b = true) hits
  have hnodup : ((orderBy hitOrder hits).map (·.streamId)).Nodup :=
    (((List.perm_insertionSort _ hits).map _).nodup_iff).mpr h
  refine (hsorted.and (List.pairwise_map.mp hnodup)).imp fun {a b} hab => ?_
  rw [hitBefore_iff]
  exact lt_of_le_of_ne (hitOrder_iff.mp hab.1) fun heq => hab.2 (hitKey_injective_on heq)

/-- The hits of a search are determined by the persons. -/
theorem ExactHits.unique {db : Database K} {owner : Uuid} {ids : Finset Uuid} {mode : SearchMode}
    {hits hits' : List StreamHit} (h : ExactHits db owner ids mode hits)
    (h' : ExactHits db owner ids mode hits') : hits = hits' := by
  have hsubset : ∀ {hits hits' : List StreamHit}, ExactHits db owner ids mode hits →
      ExactHits db owner ids mode hits' → ∀ hit ∈ hits, hit ∈ hits' := by
    intro hits hits' h h' hit hmem
    have hwanted := (h.found hit.streamId).mp (List.mem_map_of_mem hmem)
    obtain ⟨hit', hmem', hstream⟩ := List.mem_map.mp ((h'.found hit.streamId).mpr hwanted)
    have hpersons : hit'.persons = hit.persons := by
      rw [h'.persons hit' hmem', h.persons hit hmem, hstream]
    have hframes : hit'.frames = hit.frames := by
      rw [h'.frames hit' hmem', h.frames hit hmem, hstream]
    have heq : hit' = hit := by
      cases hit
      cases hit'
      simp_all
    exact heq ▸ hmem'
  have hperm : hits.Perm hits' := (List.perm_ext_iff_of_nodup h.once.of_map h'.once.of_map).mpr
    fun hit => ⟨hsubset h h' hit, hsubset h' h hit⟩
  refine hperm.eq_of_pairwise (fun a b _ _ hab hba => ?_) h.ordered h'.ordered
  exact absurd (hitBefore_iff.mp hba) (not_lt.mpr (hitBefore_iff.mp hab).le)

/-! ### The query -/

section Keys

variable {α β : Type} [DecidableEq α] [DecidableEq β]

theorem fromKeys_nodup (l : List α) : (fromKeys l).Nodup :=
  List.nodup_reverse.mpr (List.nodup_dedup _)

theorem mem_fromKeys {l : List α} {a : α} : a ∈ fromKeys l ↔ a ∈ l := by
  rw [fromKeys, List.mem_reverse, List.mem_dedup, List.mem_reverse]

theorem fromKeys_map {f : α → β} (hf : Function.Injective f) (l : List α) :
    fromKeys (l.map f) = (fromKeys l).map f := by
  rw [fromKeys, fromKeys, ← List.map_reverse, List.dedup_map_of_injective hf, List.map_reverse]

theorem length_fromKeys (l : List α) : (fromKeys l).length = l.toFinset.card := by
  rw [← List.toFinset_card_of_nodup (fromKeys_nodup l)]
  congr 1
  ext a
  rw [List.mem_toFinset, List.mem_toFinset, mem_fromKeys]

end Keys

/-- The strings are the ids of the set, in some order and spelling. -/
def Denotes (clusterIds : List String) (ids : Finset Uuid) : Prop :=
  (∀ cid ∈ clusterIds, ∃ id ∈ ids, castUuid cid = .ok id) ∧
    ∀ id ∈ ids, ∃ cid ∈ clusterIds, castUuid cid = .ok id

theorem denotes_text (ids : List Uuid) : Denotes (ids.map Uuid.text) ids.toFinset := by
  constructor
  · intro cid hcid
    obtain ⟨id, hid, rfl⟩ := List.mem_map.mp hcid
    exact ⟨id, List.mem_toFinset.mpr hid, Uuid.castUuid_text id⟩
  · exact fun id hid =>
      ⟨id.text, List.mem_map_of_mem (List.mem_toFinset.mp hid), Uuid.castUuid_text id⟩

/-- No id is asked for in two spellings. -/
def OneSpelling (clusterIds : List String) : Prop :=
  ∀ cid ∈ clusterIds, ∀ cid' ∈ clusterIds, castUuid cid = castUuid cid' → cid = cid'

theorem oneSpelling_text (ids : List Uuid) : OneSpelling (ids.map Uuid.text) := by
  intro cid hcid cid' hcid' hsame
  obtain ⟨id, -, rfl⟩ := List.mem_map.mp hcid
  obtain ⟨id', -, rfl⟩ := List.mem_map.mp hcid'
  rw [Uuid.castUuid_text, Uuid.castUuid_text] at hsame
  rw [Except.ok.inj hsame]

section Denotes

variable {clusterIds : List String} {ids : Finset Uuid}

theorem Denotes.fromKeys (h : Denotes clusterIds ids) : Denotes (fromKeys clusterIds) ids := by
  simpa only [Denotes, mem_fromKeys] using h

theorem Denotes.ne_nil (h : Denotes clusterIds ids) (hids : ids.Nonempty) : clusterIds ≠ [] := by
  obtain ⟨id, hid⟩ := hids
  obtain ⟨cid, hcid, -⟩ := h.2 id hid
  exact List.ne_nil_of_mem hcid

theorem Denotes.mem_denoted (h : Denotes clusterIds ids) {id : Uuid} :
    id ∈ denoted clusterIds ↔ id ∈ ids := by
  rw [FacesService.mem_denoted]
  constructor
  · rintro ⟨cid, hcid, hcast⟩
    obtain ⟨id', hid', hcast'⟩ := h.1 cid hcid
    rwa [Except.ok.inj (hcast.symm.trans hcast')]
  · exact h.2 id

theorem Denotes.mapM (h : Denotes clusterIds ids) : clusterIds.mapM castUuid = .ok (denoted clusterIds) := by
  have hread : ∀ cid ∈ clusterIds, ∃ id, castUuid cid = .ok id := fun cid hcid =>
    (h.1 cid hcid).imp fun _ hid => hid.2
  clear h
  induction clusterIds with
  | nil => rfl
  | cons cid clusterIds ih =>
      obtain ⟨id, hid⟩ := hread cid List.mem_cons_self
      rw [List.mapM_cons, hid, ok_bind, ih fun cid hcid => hread cid (List.mem_cons_of_mem _ hcid),
        denoted_cons hid]
      rfl

/-- The ids are the strings read, so they are as many exactly if each is there in
one spelling, and else fewer. -/
theorem Denotes.card (h : Denotes clusterIds ids) :
    ids.card ≤ clusterIds.toFinset.card ∧
      (ids.card = clusterIds.toFinset.card ↔ OneSpelling clusterIds) := by
  classical
  have himage : clusterIds.toFinset.image castUuid = ids.image Except.ok := by
    ext x
    simp only [Finset.mem_image, List.mem_toFinset]
    constructor
    · rintro ⟨cid, hcid, rfl⟩
      obtain ⟨id, hid, hcast⟩ := h.1 cid hcid
      exact ⟨id, hid, hcast.symm⟩
    · rintro ⟨id, hid, rfl⟩
      exact h.2 id hid
  have hcard : (clusterIds.toFinset.image castUuid).card = ids.card := by
    rw [himage]
    exact Finset.card_image_of_injective ids fun id id' heq => Except.ok.inj heq
  rw [← hcard]
  refine ⟨Finset.card_image_le, Finset.card_image_iff.trans ?_⟩
  constructor
  · exact fun hinj cid hcid cid' hcid' => hinj (by simpa using hcid) (by simpa using hcid')
  · exact fun hone cid hcid cid' hcid' => hone cid (by simpa using hcid) cid' (by simpa using hcid')

end Denotes

/-- The owner's rows of the persons. -/
def searchedRows (db : Database K) (owner : Uuid) (ids : Finset Uuid) : List (Occurrence K) :=
  db.occurrences.filter fun o => o.ownerId = owner && o.clusterId ∈ ids

/-- The group of a video. -/
def hitOf (rows : List (Occurrence K)) (stream : Uuid) : StreamHit :=
  ⟨stream, ((rows.filter fun o => o.streamId = stream).map (·.clusterId)).dedup.length,
    (rows.filter fun o => o.streamId = stream).length⟩

/-- The groups that reach the threshold, in order. -/
def hitsFrom (rows : List (Occurrence K)) (threshold : ℕ) : List StreamHit :=
  orderBy hitOrder (((rows.map (·.streamId)).dedup.map (hitOf rows)).filter fun h => threshold ≤ h.persons)

/-- The threshold counts strings, the query ids. -/
theorem getStreamsForClusters_eq {db : Database K} {ownerId : String} {owner : Uuid}
    (howner : castUuid ownerId = .ok owner) {clusterIds : List String} {ids : Finset Uuid}
    (hids : ids.Nonempty) (h : Denotes clusterIds ids) (mode : SearchMode) :
    getStreamsForClusters db ownerId clusterIds mode = .ok (hitsFrom (searchedRows db owner ids)
      (if mode = .all then clusterIds.toFinset.card else 1)) := by
  have hrows : (db.occurrences.filter fun o =>
      o.ownerId = owner && o.clusterId ∈ denoted (fromKeys clusterIds)) = searchedRows db owner ids := by
    refine List.filter_congr fun o _ => ?_
    simp only [h.fromKeys.mem_denoted]
  unfold getStreamsForClusters
  simp only [if_neg (h.fromKeys.ne_nil hids), howner, ok_bind, h.fromKeys.mapM, length_fromKeys, hrows]
  rfl

section Search

variable {db : Database K} {owner : Uuid} {ids : Finset Uuid}

theorem mem_searchedRows {o : Occurrence K} : o ∈ searchedRows db owner ids ↔
    o ∈ db.occurrences ∧ o.ownerId = owner ∧ o.clusterId ∈ ids := by
  simp [searchedRows]

/-- The distinct persons of a video are those who occur in it. -/
theorem persons_hitOf (stream : Uuid) :
    (hitOf (searchedRows db owner ids) stream).persons =
      (ids.filter fun id => Occurs db owner id stream).card := by
  show (((searchedRows db owner ids).filter fun o => o.streamId = stream).map
    (·.clusterId)).dedup.length = _
  rw [← List.card_toFinset]
  congr 1
  ext id
  simp only [List.mem_toFinset, List.mem_map, List.mem_filter, mem_searchedRows, decide_eq_true_eq,
    Finset.mem_filter]
  constructor
  · rintro ⟨o, ⟨⟨ho, howner, hid⟩, hstream⟩, rfl⟩
    exact ⟨hid, o, ho, howner, rfl, hstream⟩
  · rintro ⟨hid, o, ho, howner, rfl, hstream⟩
    exact ⟨o, ⟨⟨ho, howner, hid⟩, hstream⟩, rfl⟩

theorem frames_hitOf (stream : Uuid) :
    (hitOf (searchedRows db owner ids) stream).frames =
      db.occurrences.countP fun o => o.ownerId = owner && o.clusterId ∈ ids && o.streamId = stream := by
  show ((searchedRows db owner ids).filter fun o => o.streamId = stream).length = _
  rw [searchedRows, List.filter_filter, List.countP_eq_length_filter]
  congr 2
  ext o
  exact Bool.and_comm _ _

/-- A video with a row of one of the persons, and with enough of them. -/
def Reaching (db : Database K) (owner : Uuid) (ids : Finset Uuid) (threshold : ℕ) (stream : Uuid) :
    Prop :=
  (∃ id ∈ ids, Occurs db owner id stream) ∧
    threshold ≤ (ids.filter fun id => Occurs db owner id stream).card

theorem mem_hitsFrom {threshold : ℕ} {hit : StreamHit} :
    hit ∈ hitsFrom (searchedRows db owner ids) threshold ↔
      hit = hitOf (searchedRows db owner ids) hit.streamId ∧
        Reaching db owner ids threshold hit.streamId := by
  have hseen : ∀ stream, stream ∈ (searchedRows db owner ids).map (·.streamId) ↔
      ∃ id ∈ ids, Occurs db owner id stream := by
    intro stream
    simp only [List.mem_map, mem_searchedRows]
    constructor
    · rintro ⟨o, ⟨ho, howner, hid⟩, hstream⟩
      exact ⟨o.clusterId, hid, o, ho, howner, rfl, hstream⟩
    · rintro ⟨id, hid, o, ho, howner, rfl, hstream⟩
      exact ⟨o, ⟨ho, howner, hid⟩, hstream⟩
  simp only [hitsFrom, orderBy, List.mem_insertionSort, List.mem_filter, decide_eq_true_eq]
  rw [List.mem_map]
  simp only [List.mem_dedup, hseen]
  constructor
  · rintro ⟨⟨stream, hstream, rfl⟩, hle⟩
    rw [persons_hitOf] at hle
    exact ⟨rfl, hstream, hle⟩
  · rintro ⟨hhit, hstream, hle⟩
    refine ⟨⟨hit.streamId, hstream, hhit.symm⟩, ?_⟩
    rw [hhit, persons_hitOf]
    exact hle

/-- The hits are exact if and only if the threshold singles out the videos searched for. -/
theorem hitsFrom_exact_iff {threshold : ℕ} {mode : SearchMode} :
    ExactHits db owner ids mode (hitsFrom (searchedRows db owner ids) threshold) ↔
      ∀ stream, Reaching db owner ids threshold stream ↔ Wanted db owner ids mode stream := by
  have hfound : ∀ stream,
      stream ∈ (hitsFrom (searchedRows db owner ids) threshold).map (·.streamId) ↔
        Reaching db owner ids threshold stream := by
    intro stream
    rw [List.mem_map]
    constructor
    · rintro ⟨hit, hhit, rfl⟩
      exact (mem_hitsFrom.mp hhit).2
    · exact fun h => ⟨hitOf (searchedRows db owner ids) stream, mem_hitsFrom.mpr ⟨rfl, h⟩, rfl⟩
  have hgroups : (((searchedRows db owner ids).map (·.streamId)).dedup.map
      (hitOf (searchedRows db owner ids))).map (·.streamId) =
        ((searchedRows db owner ids).map (·.streamId)).dedup := by
    rw [List.map_map]
    exact List.map_id _
  have honce : ((((searchedRows db owner ids).map (·.streamId)).dedup.map
      (hitOf (searchedRows db owner ids))).filter fun h => threshold ≤ h.persons).map (·.streamId)
        |>.Nodup := by
    refine List.Nodup.sublist (List.filter_sublist.map _) ?_
    rw [hgroups]
    exact List.nodup_dedup _
  refine ⟨fun h stream => (hfound stream).symm.trans (h.found stream), fun h => ?_⟩
  refine ⟨fun stream => (hfound stream).trans (h stream), ?_, fun hit hhit => ?_, fun hit hhit => ?_,
    orderBy_hits honce⟩
  · rw [hitsFrom, orderBy, ((List.perm_insertionSort _ _).map _).nodup_iff]
    exact honce
  · rw [(mem_hitsFrom.mp hhit).1, persons_hitOf]
    rfl
  · rw [(mem_hitsFrom.mp hhit).1, frames_hitOf]
    rfl

theorem reaching_any_iff {stream : Uuid} :
    Reaching db owner ids 1 stream ↔ Wanted db owner ids .any stream := by
  rw [Reaching, Wanted, Nat.one_le_iff_ne_zero, ← Nat.pos_iff_ne_zero, Finset.card_pos]
  exact ⟨fun h => h.1, fun h => ⟨h, h.imp fun id hid => Finset.mem_filter.mpr hid⟩⟩

/-- A part as large as the whole is the whole. -/
theorem reaching_card_iff (hids : ids.Nonempty) {stream : Uuid} :
    Reaching db owner ids ids.card stream ↔ Wanted db owner ids .all stream := by
  rw [Reaching, Wanted]
  constructor
  · rintro ⟨-, hcard⟩
    exact Finset.filter_eq_self.mp (Finset.eq_of_subset_of_card_le (Finset.filter_subset _ _) hcard)
  · intro hall
    obtain ⟨id, hid⟩ := hids
    exact ⟨⟨id, hid, hall id hid⟩, (Finset.filter_eq_self.mpr hall).symm ▸ le_refl _⟩

/-- No part is larger than the whole. -/
theorem not_reaching {threshold : ℕ} (h : ids.card < threshold) (stream : Uuid) :
    ¬ Reaching db owner ids threshold stream := fun hreach =>
  absurd (hreach.2.trans (Finset.card_filter_le _ _)) (not_le.mpr h)

/-- When the strings make up the right threshold. -/
theorem threshold_iff (hids : ids.Nonempty) {clusterIds : List String} (h : Denotes clusterIds ids)
    {mode : SearchMode} :
    (∀ stream, Reaching db owner ids (if mode = .all then clusterIds.toFinset.card else 1) stream ↔
      Wanted db owner ids mode stream) ↔
      mode = .any ∨ OneSpelling clusterIds ∨ ∀ stream, ¬ Wanted db owner ids .all stream := by
  cases mode with
  | any =>
      rw [if_neg (by simp)]
      exact iff_of_true (fun _ => reaching_any_iff) (.inl rfl)
  | all =>
      obtain ⟨hle, hiff⟩ := h.card
      rw [if_pos rfl]
      by_cases hone : OneSpelling clusterIds
      · rw [← hiff.mpr hone]
        exact iff_of_true (fun _ => reaching_card_iff hids) (.inr (.inl hone))
      · have hlt : ids.card < clusterIds.toFinset.card :=
          lt_of_le_of_ne hle fun heq => hone (hiff.mp heq)
        simp [not_reaching hlt, hone]

/-- There is one list of hits for every search. -/
theorem exists_exactHits (hids : ids.Nonempty) (mode : SearchMode) :
    ∃ hits, ExactHits db owner ids mode hits := by
  cases mode with
  | any => exact ⟨_, hitsFrom_exact_iff.mpr fun _ => reaching_any_iff⟩
  | all => exact ⟨_, hitsFrom_exact_iff.mpr fun _ => reaching_card_iff hids⟩

/-- **The query is exact** for ids in their canonical spelling. -/
theorem getStreamsForClusters_exact {ids : List Uuid} {ownerId : String}
    (howner : castUuid ownerId = .ok owner) (hids : ids ≠ []) (mode : SearchMode) :
    ∃ hits, getStreamsForClusters db ownerId (ids.map Uuid.text) mode = .ok hits ∧
      ExactHits db owner ids.toFinset mode hits := by
  have hne : ids.toFinset.Nonempty := List.toFinset_nonempty_iff ids |>.mpr hids
  refine ⟨_, getStreamsForClusters_eq howner hne (denotes_text ids) mode, hitsFrom_exact_iff.mpr ?_⟩
  exact (threshold_iff hne (denotes_text ids)).mpr (.inr (.inl (oneSpelling_text ids)))

end Search

/-! ### The endpoint -/

namespace Reader

variable [Arithmetic K] {pf : Platform K} {oracle : Oracle} {auth : AuthContext}

/-- **The search is exact where it counts right**: there is one list of hits, with
the videos of the caller in which all the persons occur, or one of them, with
the counts of each, in a strict order; and however the persons are listed, this
is the answer exactly if no id is listed in two spellings, or one person is
enough, or there is no video to find. -/
theorem video_search_exact_iff {w : World K} {owner : Uuid} (howner : castUuid auth.userId = .ok owner)
    {ids : Finset Uuid} (hids : ids.Nonempty) (mode : SearchMode) :
    ∃ hits, ExactHits w.db owner ids mode hits ∧
      ∀ clusterIds : List String, Denotes clusterIds ids →
        ((searchVideosByFaces auth clusterIds mode).exec (answer pf oracle) w =
            (.ok ⟨hits, hits.length, mode⟩, { w with calls := w.calls + 1 }) ↔
          mode = .any ∨ OneSpelling clusterIds ∨ ∀ stream, ¬ Wanted w.db owner ids .all stream) := by
  obtain ⟨hits, hexact⟩ := @exists_exactHits K w.db owner ids hids mode
  refine ⟨hits, hexact, fun clusterIds h => ?_⟩
  obtain ⟨found, hfound⟩ : ∃ found, hitsFrom (searchedRows w.db owner ids)
      (if mode = .all then clusterIds.toFinset.card else 1) = found := ⟨_, rfl⟩
  have hrun : (searchVideosByFaces auth clusterIds mode).exec (answer pf oracle) w =
      (.ok ⟨found, found.length, mode⟩, { w with calls := w.calls + 1 }) := by
    have hkeys : (fromKeys clusterIds).toFinset = clusterIds.toFinset := by
      ext cid
      rw [List.mem_toFinset, List.mem_toFinset, mem_fromKeys]
    unfold searchVideosByFaces
    rw [exec_bind, exec_query, Query.run, getStreamsForClusters_eq howner hids h.fromKeys, hkeys, hfound]
    rfl
  have hsame : (searchVideosByFaces auth clusterIds mode).exec (answer pf oracle) w =
      (.ok ⟨hits, hits.length, mode⟩, { w with calls := w.calls + 1 }) ↔ found = hits := by
    rw [hrun]
    constructor
    · intro heq
      exact congrArg SearchBody.streams (Except.ok.inj (congrArg Prod.fst heq))
    · rintro rfl
      rfl
  rw [hsame, ← threshold_iff hids h, ← hitsFrom_exact_iff, hfound]
  exact ⟨fun heq => heq ▸ hexact, fun h => h.unique hexact⟩

/-- Two persons in one video, one of them in another. -/
def searchedWorld : World ℚ :=
  { sceneWorld with
    db := ⟨[], [⟨Uuid.fill 1, Uuid.fill 7, Uuid.fill 3, [1], 5 / 2, 1, 0⟩,
      ⟨Uuid.fill 1, Uuid.fill 7, Uuid.fill 4, [1], 5 / 2, 1, 0⟩,
      ⟨Uuid.fill 1, Uuid.fill 8, Uuid.fill 3, [1], 5 / 2, 1, 0⟩]⟩ }

theorem video_search_exact_iff_pair :
    ∃ hits, ExactHits searchedWorld.db (Uuid.fill 1) [Uuid.fill 3, Uuid.fill 4].toFinset .all hits ∧
      Uuid.fill 7 ∈ hits.map (·.streamId) ∧ Uuid.fill 8 ∉ hits.map (·.streamId) ∧
      (searchVideosByFaces ⟨(Uuid.fill 1).text, none⟩
          ([Uuid.fill 3, Uuid.fill 4, Uuid.fill 3].map Uuid.text) .all).exec
            (answer Platform.exact (sceneOracle 9)) searchedWorld =
        (.ok ⟨hits, hits.length, .all⟩, { searchedWorld with calls := 1 }) := by
  obtain ⟨hits, hexact, hexec⟩ := @video_search_exact_iff ℚ _ Platform.exact (sceneOracle 9)
    ⟨(Uuid.fill 1).text, none⟩ searchedWorld (Uuid.fill 1) (Uuid.castUuid_text _)
    [Uuid.fill 3, Uuid.fill 4].toFinset ⟨Uuid.fill 3, by decide⟩ .all
  refine ⟨hits, hexact, ?_, ?_, ?_⟩
  · rw [hexact.found]
    show ∀ id ∈ [Uuid.fill 3, Uuid.fill 4].toFinset,
      Occurs searchedWorld.db (Uuid.fill 1) id (Uuid.fill 7)
    decide
  · rw [hexact.found]
    show ¬ ∀ id ∈ [Uuid.fill 3, Uuid.fill 4].toFinset,
      Occurs searchedWorld.db (Uuid.fill 1) id (Uuid.fill 8)
    decide
  · have hset : [Uuid.fill 3, Uuid.fill 4, Uuid.fill 3].toFinset = [Uuid.fill 3, Uuid.fill 4].toFinset := by
      decide
    exact (hexec _ (hset ▸ denotes_text _)).mpr (.inr (.inl (oneSpelling_text _)))

/-- A person who is seen once. -/
def seenOnce : Database ℚ :=
  (Write.appendStreamOccurrences (Uuid.fill 1).text (Uuid.fill 7).text
    [⟨(Uuid.fill 3).text, [1], 5 / 2, 1⟩]).commit Platform.exact (Uuid.fill 6) 1
    ((Write.upsertCluster (Uuid.fill 1).text none false [1]).commit Platform.exact (Uuid.fill 3) 0
      ⟨[], []⟩)

theorem seenOnce_reached : Reached Platform.exact seenOnce := by
  unfold seenOnce
  refine .step (.step .empty _ 0 _ ⟨rfl, rfl⟩) _ 1 _ ⟨.inr ?_, trivial⟩
  intro it hit
  rw [List.mem_singleton.mp hit]
  exact ⟨Uuid.fill 3, _, by decide, rfl, Uuid.castUuid_text _⟩

/-- The one person, with and without the hyphens of the id: no video has two. -/
theorem video_search_two_spellings :
    ¬ ∀ (w : World ℚ) (owner : Uuid) (auth : AuthContext) (ids : Finset Uuid)
        (clusterIds : List String) (mode : SearchMode),
        Reached Platform.exact w.db → castUuid auth.userId = .ok owner → ids.Nonempty →
        Denotes clusterIds ids → ∃ hits, ExactHits w.db owner ids mode hits ∧
          (searchVideosByFaces auth clusterIds mode).exec (answer Platform.exact (sceneOracle 9)) w =
            (.ok ⟨hits, hits.length, mode⟩, { w with calls := w.calls + 1 }) := by
  intro h
  have hread : castUuid "33333333333333333333333333333333" = .ok (.fill 3) := by decide +kernel
  obtain ⟨hits, hexact, hexec⟩ := h { sceneWorld with db := seenOnce } (.fill 1)
    ⟨(Uuid.fill 1).text, none⟩ {Uuid.fill 3} [(Uuid.fill 3).text, "33333333333333333333333333333333"]
    .all seenOnce_reached (Uuid.castUuid_text _) ⟨_, Finset.mem_singleton_self _⟩
    ⟨by simp [hread], by simp⟩
  have hempty : hits = [] := by
    have hnone : ((searchVideosByFaces ⟨(Uuid.fill 1).text, none⟩
        [(Uuid.fill 3).text, "33333333333333333333333333333333"] .all).exec
          (answer Platform.exact (sceneOracle 9)) { sceneWorld with db := seenOnce }).1 =
            .ok ⟨[], 0, .all⟩ := by
      decide +kernel
    rw [hexec] at hnone
    exact congrArg SearchBody.streams (Except.ok.inj hnone)
  have hwanted : Wanted seenOnce (.fill 1) {Uuid.fill 3} .all (.fill 7) := by
    intro id hid
    rw [Finset.mem_singleton.mp hid]
    decide +kernel
  have hmem := (hexact.found (.fill 7)).mpr hwanted
  rw [hempty] at hmem
  cases hmem

end Reader

end FacesService
