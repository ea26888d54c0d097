import FacesService.Reader.Agreement
import FacesService.Reader.Merge
import FacesService.Store.Labels

/-!
The views after a merge. The person merged into has the videos of all the merged
ones, each with the frames of all of them together, and a search finds for that
person what it found for any of the merged ones before. Nobody else's views
change.
-/

namespace FacesService.Reader

open Prog Database Fallible Db

variable {K : Type}

/-! ### What a search counts -/

/-- The rows of the owner in the video that show one of the persons. -/
def frames (db : Database K) (owner : Uuid) (people : List Uuid) (stream : Uuid) : ℕ :=
  db.occurrences.countP fun o => o.ownerId = owner && o.clusterId ∈ people && o.streamId = stream

/-- The hits of a search for any of the persons, with their frames. -/
structure Finds (db : Database K) (owner : Uuid) (people : List Uuid)
    (hits : List (Uuid × ℕ)) : Prop where
  once : hits.Nodup
  exact : ∀ stream n, (stream, n) ∈ hits ↔ 0 < n ∧ n = frames db owner people stream

theorem Finds.perm {db db' : Database K} {owner : Uuid} {people people' : List Uuid}
    {hits hits' : List (Uuid × ℕ)}
    (h : Finds db owner people hits) (h' : Finds db' owner people' hits')
    (hsame : ∀ stream, frames db owner people stream = frames db' owner people' stream) :
    hits.Perm hits' := by
  apply (List.perm_ext_iff_of_nodup h.once h'.once).mpr
  rintro ⟨stream, n⟩
  rw [h.exact, h'.exact, hsame]

def SearchBody.frames (found : SearchBody) : List (Uuid × ℕ) :=
  found.streams.map fun hit => (hit.streamId, hit.frames)

variable [Arithmetic K] {svc : Service K} {auth : AuthContext} {oracle : Oracle} {db : Database K}

theorem search_nobody {found : SearchBody}
    (h : Answers svc oracle db (searchVideosByFaces auth [] .any) found) :
    found.frames = [] := by
  obtain ⟨w, w', rfl, hexec⟩ := h
  obtain ⟨hits, w₁, hquery, hexec⟩ := exec_bind_eq_ok.mp hexec
  obtain ⟨hrun, -⟩ := query_answer hquery
  cases hexec
  cases hrun
  rfl

theorem fromKeys_ne_nil {α : Type} [DecidableEq α] {l : List α} (h : l ≠ []) : fromKeys l ≠ [] := by
  obtain ⟨a, ha⟩ := List.exists_mem_of_ne_nil l h
  exact List.ne_nil_of_mem (mem_fromKeys.mpr ha)

omit [Arithmetic K] in
theorem frames_hits {owner : Uuid} {people : List Uuid} {hits : List StreamHit}
    (h : ExactHits db owner people.toFinset .any hits) :
    Finds db owner people (hits.map fun hit => (hit.streamId, hit.frames)) := by
  have hcount : ∀ hit ∈ hits, hit.frames = frames db owner people hit.streamId := by
    intro hit hhit
    rw [h.frames hit hhit]
    simp only [List.mem_toFinset]
    rfl
  have hseen : ∀ stream, stream ∈ hits.map (·.streamId) ↔ 0 < frames db owner people stream := by
    intro stream
    rw [h.found, frames, List.countP_pos_iff]
    simp only [Wanted, Occurs, List.mem_toFinset, Bool.and_eq_true, decide_eq_true_eq]
    constructor
    · rintro ⟨id, hid, o, ho, howner, rfl, hstream⟩
      exact ⟨o, ho, ⟨howner, hid⟩, hstream⟩
    · rintro ⟨o, ho, ⟨howner, hid⟩, hstream⟩
      exact ⟨o.clusterId, hid, o, ho, howner, rfl, hstream⟩
  constructor
  · apply List.Nodup.of_map Prod.fst
    rw [List.map_map]
    exact h.once
  · intro stream n
    constructor
    · intro hmem
      obtain ⟨hit, hhit, heq⟩ := List.mem_map.mp hmem
      cases heq
      rw [hcount hit hhit]
      exact ⟨(hseen _).mp (List.mem_map_of_mem hhit), rfl⟩
    · rintro ⟨hpos, rfl⟩
      obtain ⟨hit, hhit, rfl⟩ := List.mem_map.mp ((hseen stream).mpr hpos)
      exact List.mem_map.mpr ⟨hit, hhit, by rw [hcount hit hhit]⟩

/-- A search for any of some persons finds the videos they are in. -/
theorem search_finds {people : List Uuid} (hpeople : people ≠ []) {found : SearchBody}
    (h : Answers svc oracle db (searchVideosByFaces auth (people.map Uuid.text) .any) found) :
    ∃ owner, castUuid auth.userId = .ok owner ∧ Finds db owner people found.frames := by
  obtain ⟨w, w', rfl, hexec⟩ := h
  unfold searchVideosByFaces at hexec
  obtain ⟨hits, w₁, hquery, hexec⟩ := exec_bind_eq_ok.mp hexec
  obtain ⟨hrun, -⟩ := query_answer hquery
  cases hexec
  rw [fromKeys_map Uuid.text_injective, Query.run] at hrun
  have hkeys := fromKeys_ne_nil hpeople
  cases howner : castUuid auth.userId with
  | error e =>
      unfold getStreamsForClusters at hrun
      simp only at hrun
      rw [if_neg (fromKeys_ne_nil (by simpa using hkeys)), howner] at hrun
      cases hrun
  | ok owner =>
      obtain ⟨hits', hrun', hexact⟩ := @getStreamsForClusters_exact K w.db owner _ _
          howner hkeys .any
      cases hrun.symm.trans hrun'
      have hsame : (fromKeys people).toFinset = people.toFinset := by
        ext id
        simp only [List.mem_toFinset, mem_fromKeys]
      rw [hsame] at hexact
      exact ⟨owner, rfl, frames_hits hexact⟩

/-! ### What a merge does to it -/

section

variable {now : ℕ} {ownerId targetId : String} {sourceIds : List String} {target : Uuid}
  {c : Commit K (Option Merged)} {m : Merged} {pf : Platform K}

/-- Persons who stand for others. -/
def asked (target : Uuid) (sources people : List Uuid) : List Uuid :=
  if target ∈ people then people ++ sources else people

/-- The sources of a merge are the target's owner's, and so are their rows. -/
theorem ownerId_of_source (hstore : StoreInvariant db) {row : Cluster K}
    (hown : Owned db targetId ownerId target row)
    (h : mergeClusters pf now db ownerId targetId sourceIds = .ok c) (hm : c.result = some m)
    {o : Occurrence K} (ho : o ∈ db.occurrences) (hsource : o.clusterId ∈ denoted sourceIds) :
    o.ownerId = row.ownerId := by
  obtain ⟨-, -, -, -, -, hsources, -⟩ := mergeClusters_some h hm
  obtain ⟨cid, hcid, hcast⟩ := mem_denoted.mp hsource
  obtain ⟨id, source, hsourceOwned⟩ := hsources cid hcid
  cases hcast.symm.trans hsourceOwned.cast
  obtain ⟨r, hr, hid, howner⟩ := hstore.owned o ho
  rw [hstore.eq_of_id hr hsourceOwned.mem.1 (hid.trans hsourceOwned.mem.2.symm)] at howner
  exact howner.symm.trans (Uuid.text_injective (hsourceOwned.owner.trans hown.owner.symm))

omit [Arithmetic K] in
theorem mem_asked {sources people : List Uuid} {id : Uuid} :
    id ∈ asked target sources people ↔ id ∈ people ∨ (target ∈ people ∧ id ∈ sources) := by
  unfold asked
  split <;> simp [*]

/-- After the merge the target stands for its sources. -/
theorem frames_merged (hstore : StoreInvariant db)
    (h : mergeClusters pf now db ownerId targetId sourceIds = .ok c) (hm : c.result = some m)
    (htarget : castUuid targetId = .ok target) (hne : target ∉ denoted sourceIds) (owner : Uuid)
    {people : List Uuid} (hpeople : ∀ id ∈ people, id ∉ denoted sourceIds) (stream : Uuid) :
    frames c.db owner people stream = frames db owner
        (asked target (denoted sourceIds) people) stream := by
  obtain ⟨row, hown, hlabels⟩ := mergeClusters_labels h hm htarget hne
  let p : Label → Bool := fun l => l.owner = owner && l.cluster ∈ people && l.stream = stream
  change c.db.occurrences.countP (fun o => p o.label) = _
  rw [← countP_labels, hlabels.countP_eq, List.countP_map, countP_labels]
  apply List.countP_congr
  intro o ho
  by_cases hsource : o.clusterId ∈ denoted sourceIds
  · have howner := ownerId_of_source hstore hown h hm ho hsource
    have hnot : o.clusterId ∉ people := fun hin => hpeople _ hin hsource
    by_cases htarget : target ∈ people
    · simp [p, Label.into, Occurrence.label, asked, hsource, howner, htarget]
    · simp [p, Label.into, Occurrence.label, asked, hsource, hnot, htarget]
  · by_cases htarget : target ∈ people
    · simp [p, Label.into, Occurrence.label, asked, hsource, htarget]
    · simp [p, Label.into, Occurrence.label, asked, hsource, htarget]

theorem sightings_merged (h : mergeClusters pf now db ownerId targetId sourceIds = .ok c)
    (hm : c.result = some m)
    (htarget : castUuid targetId = .ok target) (hne : target ∉ denoted sourceIds) {id : Uuid}
    (hid : id ∉ denoted sourceIds) (stream : Uuid) :
    sightings c.db id stream = db.occurrences.countP fun o =>
      o.clusterId ∈ (asked target (denoted sourceIds) [id]) && o.streamId = stream := by
  obtain ⟨row, -, hlabels⟩ := mergeClusters_labels h hm htarget hne
  let p : Label → Bool := fun l => l.cluster = id && l.stream = stream
  change c.db.occurrences.countP (fun o => p o.label) = _
  rw [← countP_labels, hlabels.countP_eq, List.countP_map, countP_labels]
  apply List.countP_congr
  intro o _
  by_cases hsource : o.clusterId ∈ denoted sourceIds
  · have hnot : o.clusterId ≠ id := fun heq => hid (heq ▸ hsource)
    by_cases htarget : target = id
    · simp [p, Label.into, Occurrence.label, asked, hsource, htarget]
    · simp [p, Label.into, Occurrence.label, asked, hsource, hnot, htarget]
  · by_cases htarget : target = id
    · simp [p, Label.into, Occurrence.label, asked, hsource, htarget]
    · simp [p, Label.into, Occurrence.label, asked, hsource, htarget]

end

omit [Arithmetic K] in
theorem sum_sightings (db : Database K) (ids : List Uuid) (stream : Uuid) :
    (ids.dedup.map fun id => sightings db id stream).sum =
      db.occurrences.countP fun o => o.clusterId ∈ ids && o.streamId = stream := by
  have hsum := sum_countP_eq (fun o : Occurrence K => o.clusterId)
    (db.occurrences.filter fun o => o.streamId = stream) ids.nodup_dedup
  simp only [List.mem_dedup, List.countP_filter] at hsum
  exact hsum

/-! ### Before and after -/

/-- The views after a merge of the listed clusters into the target, by those before. -/
structure Joined (svc : Service K) (oracle : Oracle) (target : Uuid) (ids : List Uuid)
    (db db' : Database K) : Prop where
  /-- `get_face` and the lists: in each video the sum of what was there -/
  seen : ∀ stream, sightings db' target stream =
      (ids.dedup.map fun id => sightings db id stream).sum
  others : ∀ id ∉ ids, ∀ stream, sightings db' id stream = sightings db id stream
  /-- a search for the target finds what a search for any of the merged ones found -/
  found : ∀ (auth : AuthContext) (people : List Uuid) (before after : SearchBody),
    (∀ id ∈ people, id ∈ ids → id = target) →
    Answers svc oracle db (searchVideosByFaces auth ((asked target ids people).map Uuid.text) .any)
        before →
    Answers svc oracle db' (searchVideosByFaces auth (people.map Uuid.text) .any) after →
    after.frames.Perm before.frames

omit [Arithmetic K] in
theorem denoted_sources {ids : List String} {targetId : String} {w : World K}
    (hchosen : mergeTarget w.db ids = some targetId) (honce : SpelledOnce w.db ids) {target : Uuid}
    (htarget : castUuid targetId = .ok target) {id : Uuid} :
    id ∈ denoted (ids.filter (· ≠ targetId)) ↔ id ∈ denoted ids ∧ id ≠ target := by
  simp only [mem_denoted, List.mem_filter, decide_eq_true_eq]
  constructor
  · rintro ⟨cid, ⟨hcid, hne⟩, hid⟩
    refine ⟨⟨cid, hcid, hid⟩, fun heq => hne (honce _ hchosen cid hcid ?_)⟩
    rw [hid, htarget, heq]
  · rintro ⟨⟨cid, hcid, hid⟩, hne⟩
    refine ⟨cid, ⟨hcid, fun heq => hne ?_⟩, hid⟩
    rw [heq, htarget] at hid
    exact (Except.ok.inj hid).symm

/-- **A merge joins the views.** -/
theorem merge_joins_views {ids : List String} {body : MergeBody K} {w w' : World K}
    (hstore : StoreInvariant w.db)
    (h : (mergeFaces svc auth ids).exec (answer svc.pf oracle) w = (.ok body, w'))
    (honce : SpelledOnce w.db ids) :
    ∃ target, castUuid body.targetId = .ok target ∧
        Joined svc oracle target (denoted ids) w.db w'.db := by
  obtain ⟨hchosen, hrows, owner, now, c, m, hmerge, hm, hdb⟩ := mergeFaces_ok h
  have hmem := mergeTarget_mem hchosen
  obtain ⟨row, hrow⟩ := hrows _ hmem
  obtain ⟨target, htarget, -⟩ := rowOf_eq_some.mp hrow
  have hsources : ∀ id, id ∈ denoted (ids.filter (· ≠ body.targetId)) ↔
      id ∈ denoted ids ∧ id ≠ target :=
    fun id => denoted_sources hchosen honce htarget
  have hnot : target ∉ denoted (ids.filter (· ≠ body.targetId)) :=
      fun hin => ((hsources target).mp hin).2 rfl
  have htargetMem : target ∈ denoted ids := mem_denoted.mpr ⟨_, hmem, htarget⟩
  refine ⟨target, htarget, ?_⟩
  rw [hdb]
  constructor
  case seen =>
    intro stream
    rw [sightings_merged hmerge hm htarget hnot hnot, sum_sightings]
    apply List.countP_congr
    intro o _
    simp only [mem_asked, hsources, List.mem_singleton, Bool.and_eq_true, decide_eq_true_eq]
    by_cases ho : o.clusterId = target <;> simp [ho, htargetMem]
  case others =>
    intro id hid stream
    have hother : id ∉ denoted (ids.filter (· ≠ body.targetId)) :=
        fun hin => hid ((hsources id).mp hin).1
    have hne : target ≠ id := fun heq => hid (heq ▸ htargetMem)
    rw [sightings_merged hmerge hm htarget hnot hother]
    apply List.countP_congr
    intro o _
    simp [mem_asked, hne]
  case found =>
    intro searcher people before after hpeople hbefore hafter
    have hapart : ∀ id ∈ people, id ∉ denoted (ids.filter (· ≠ body.targetId)) := fun id hid hin =>
      ((hsources id).mp hin).2 (hpeople id hid ((hsources id).mp hin).1)
    by_cases hnobody : people = []
    · subst hnobody
      rw [search_nobody hafter, search_nobody hbefore]
    · have hasked : asked target (denoted ids) people ≠ [] := by
        obtain ⟨id, hid⟩ := List.exists_mem_of_ne_nil people hnobody
        exact List.ne_nil_of_mem (mem_asked.mpr (.inl hid))
      obtain ⟨searchOwner, howner, hfinds⟩ := search_finds hasked hbefore
      obtain ⟨searchOwner', howner', hfinds'⟩ := search_finds hnobody hafter
      cases howner.symm.trans howner'
      apply hfinds'.perm hfinds
      intro stream
      rw [frames_merged hstore hmerge hm htarget hnot searchOwner hapart]
      -- the target is asked for already
      apply List.countP_congr
      intro o _
      simp only [mem_asked, hsources, Bool.and_eq_true, decide_eq_true_eq]
      by_cases ho : o.clusterId = target
      · simp only [ho, htargetMem, ne_eq, not_true_eq_false, and_false, or_false, and_true, or_self]
      · simp only [ne_eq, ho, not_false_eq_true, and_true]

/-- One person in two clusters, both seen in one video and one of them in another. -/
def seenApart : World ℚ :=
  { sceneWorld with
    db := ⟨[.anonymous (.fill 3) (.fill 1) [1, 0] 2, .anonymous (.fill 4) (.fill 1) [1, 0] 1],
      [⟨.fill 1, .fill 7, .fill 3, [1, 0], 5 / 2, 1, 0⟩,
          ⟨.fill 1, .fill 8, .fill 3, [1, 0], 5 / 2, 1, 0⟩,
        ⟨.fill 1, .fill 7, .fill 4, [1, 0], 5 / 2, 1, 0⟩]⟩ }

theorem seenApart_invariant : StoreInvariant seenApart.db where
  ids := by decide +kernel
  owned := by decide +kernel
  keys := by decide +kernel
  named := by
    simp only [seenApart, List.mem_cons, List.not_mem_nil, or_false]
    rintro c (rfl | rfl) <;> exact ⟨rfl, fun n hn => nomatch hn⟩
  counts := by
    simp only [seenApart, CountsOutside, List.mem_cons, List.not_mem_nil, or_false]
    rintro c (rfl | rfl) _ <;> rfl

theorem merge_joins_views_apart :
    ∃ body w', (mergeFaces (sceneService []) ⟨(Uuid.fill 1).text, none⟩
        [(Uuid.fill 3).text, (Uuid.fill 4).text]).exec
        (answer (sceneService []).pf (sceneOracle 9)) seenApart = (.ok body, w') ∧
      ∃ target, castUuid body.targetId = .ok target ∧
          Joined (sceneService []) (sceneOracle 9) target
        (denoted [(Uuid.fill 3).text, (Uuid.fill 4).text]) seenApart.db w'.db := by
  have hok : ((mergeFaces (sceneService []) ⟨(Uuid.fill 1).text, none⟩
      [(Uuid.fill 3).text, (Uuid.fill 4).text]).exec (answer (sceneService []).pf (sceneOracle 9))
        seenApart).1.isOk = true := by
    decide +kernel
  have honce : SpelledOnce seenApart.db [(Uuid.fill 3).text, (Uuid.fill 4).text] := by
    intro targetId htarget cid hcid hcast
    have hchosen : mergeTarget seenApart.db [(Uuid.fill 3).text, (Uuid.fill 4).text] =
        some (Uuid.fill 3).text := by
      decide +kernel
    cases hchosen.symm.trans htarget
    simp only [List.mem_cons, List.not_mem_nil, or_false] at hcid
    rcases hcid with rfl | rfl
    · rfl
    · rw [Uuid.castUuid_text, Uuid.castUuid_text] at hcast
      exact absurd hcast (by decide)
  cases hrun : (mergeFaces (sceneService []) ⟨(Uuid.fill 1).text, none⟩
      [(Uuid.fill 3).text, (Uuid.fill 4).text]).exec (answer (sceneService []).pf (sceneOracle 9))
          seenApart with
  | mk res w' =>
      rw [hrun] at hok
      cases res with
      | error e => cases hok
      | ok body => exact ⟨body, w', rfl, merge_joins_views seenApart_invariant hrun honce⟩

end FacesService.Reader
