import FacesService.Reader.ListFaces
import FacesService.Reader.StreamFaces
import FacesService.Reader.VideoSearch
import FacesService.Store.Invariant
import Mathlib.Algebra.BigOperators.Group.List.Lemmas

/-!
One truth behind the views. Five queries count the rows of a cluster, each in its
own way: grouped by video, joined with the owner, filtered by persons, sorted out in
Python, or kept as `sample_count`. All of them tell of one function, the `sightings`
of a cluster in a video, so the answers agree that a client puts side by side.
-/

namespace FacesService.Reader

open Prog Database Fallible Db

variable {K : Type}

/-- How often the cluster was seen in the video. -/
def sightings (db : Database K) (id stream : Uuid) : ℕ :=
  db.occurrences.countP fun o => o.clusterId = id && o.streamId = stream

/-- The videos the cluster was seen in, each once, with its sightings there. -/
structure Videos (db : Database K) (id : Uuid) (videos : List VideoCount) : Prop where
  once : (videos.map (·.streamId)).Nodup
  exact : ∀ v, v ∈ videos ↔ 0 < v.count ∧ v.count = sightings db id v.streamId

theorem Videos.perm {db : Database K} {id : Uuid} {videos videos' : List VideoCount}
    (h : Videos db id videos) (h' : Videos db id videos') : videos.Perm videos' := by
  apply (List.perm_ext_iff_of_nodup h.once.of_map h'.once.of_map).mpr
  intro v
  rw [h.exact, h'.exact]

theorem Videos.mem_streams {db : Database K} {id : Uuid} {videos : List VideoCount} (h : Videos db id videos)
    {stream : Uuid} : stream ∈ videos.map (·.streamId) ↔ 0 < sightings db id stream := by
  constructor
  · intro hmem
    obtain ⟨v, hv, rfl⟩ := List.mem_map.mp hmem
    obtain ⟨hpos, hcount⟩ := (h.exact v).mp hv
    exact hcount ▸ hpos
  · intro hpos
    exact List.mem_map.mpr ⟨⟨stream, sightings db id stream⟩, (h.exact _).mpr ⟨hpos, rfl⟩, rfl⟩

/-! ### The counts of a cluster -/

section

variable {db : Database K} {id : Uuid}

theorem countP_rows (stream : Uuid) :
    (db.occurrences.filter fun o => o.clusterId = id).countP (·.streamId = stream) = sightings db id stream := by
  rw [List.countP_filter, sightings]
  congr 1
  ext o
  simp [Bool.and_comm]

theorem videoCounts_videos :
    Videos db id (videoCounts (db.occurrences.filter fun o => o.clusterId = id)) := by
  set rows := db.occurrences.filter fun o => o.clusterId = id with hrows
  have hperm : (videoCounts rows).Perm
      ((rows.map (·.streamId)).dedup.map fun s => ⟨s, rows.countP (·.streamId = s)⟩) :=
    List.perm_insertionSort _ _
  constructor
  · rw [(hperm.map _).nodup_iff, List.map_map]
    change ((rows.map (·.streamId)).dedup.map fun s => s).Nodup
    rw [List.map_id']
    exact List.nodup_dedup _
  · intro v
    rw [hperm.mem_iff, List.mem_map]
    constructor
    · rintro ⟨s, hs, rfl⟩
      refine ⟨?_, countP_rows s⟩
      obtain ⟨o, ho, rfl⟩ := List.mem_map.mp (List.mem_dedup.mp hs)
      exact List.countP_pos_iff.mpr ⟨o, ho, by simp⟩
    · rintro ⟨hpos, hcount⟩
      have hseen : 0 < rows.countP (·.streamId = v.streamId) := by
        rw [countP_rows, ← hcount]
        exact hpos
      obtain ⟨o, ho, hstream⟩ := List.countP_pos_iff.mp hseen
      refine ⟨v.streamId, List.mem_dedup.mpr (List.mem_map.mpr ⟨o, ho, by simpa using hstream⟩), ?_⟩
      rw [countP_rows, ← hcount]

/-- The sightings over all videos are the rows of the cluster. -/
theorem Videos.sum {videos : List VideoCount} (h : Videos db id videos) :
    (videos.map (·.count)).sum = db.countFor id := by
  rw [((h.perm videoCounts_videos).map _).sum_eq]
  set rows := db.occurrences.filter fun o => o.clusterId = id with hrows
  have hperm : (videoCounts rows).Perm
      ((rows.map (·.streamId)).dedup.map fun s => ⟨s, rows.countP (·.streamId = s)⟩) :=
    List.perm_insertionSort _ _
  have hcount : ∀ s, rows.countP (·.streamId = s) = (rows.map (·.streamId)).count s := by
    intro s
    rw [List.count, List.countP_map]
    rfl
  rw [(hperm.map _).sum_eq, List.map_map]
  change (((rows.map (·.streamId)).dedup.map fun s => rows.countP (·.streamId = s))).sum = _
  simp only [hcount]
  rw [List.sum_map_count_dedup_eq_length, List.length_map, hrows, ← List.countP_eq_length_filter]
  rfl

end

/-! ### The views -/

variable [Arithmetic K] {svc : Service K} {auth : AuthContext} {oracle : Oracle} {db : Database K}

/-- What an endpoint may answer with the tables in this state. -/
def Answers (svc : Service K) (oracle : Oracle) (db : Database K) {α : Type} (p : Program K α) (a : α) : Prop :=
  ∃ w w' : World K, w.db = db ∧ p.exec (answer svc.pf oracle) w = (.ok a, w')

theorem query_answer {q : Query K} {w w' : World K} {a : q.Answer}
    (h : (query q).exec (answer svc.pf oracle) w = (.ok a, w')) :
    q.run svc.pf w.db = .ok a ∧ w'.db = w.db := by
  rw [exec_query, Prod.mk.injEq] at h
  obtain ⟨hrun, rfl⟩ := h
  exact ⟨hrun, rfl⟩

theorem getFace_view {clusterId : String} {face : FaceBody K}
    (h : Answers svc oracle db (getFace auth clusterId) face) :
    face.cluster ∈ db.clusters ∧ ensureOwner auth face.cluster.ownerId.text = .ok () ∧
      Videos db face.cluster.id face.videos ∧ face.occurrences.length = db.countFor face.cluster.id := by
  obtain ⟨w, w', rfl, hexec⟩ := h
  obtain ⟨c, w₁, hc, hexec⟩ := exec_bind_eq_ok.mp hexec
  obtain ⟨hrow, howner, rfl⟩ := ownedCluster_ok hc
  obtain ⟨occurrences, w₂, hoccurrences, hexec⟩ := exec_bind_eq_ok.mp hexec
  obtain ⟨hocc, hdb₂⟩ := query_answer hoccurrences
  obtain ⟨videos, w₃, hvideos, hexec⟩ := exec_bind_eq_ok.mp hexec
  obtain ⟨hvid, -⟩ := query_answer hvideos
  cases hexec
  obtain ⟨id, hid, hfound⟩ := rowOf_eq_some.mp hrow
  obtain ⟨hmem, rfl⟩ := mem_of_clusterById hfound
  simp only [Query.run, getClusterOccurrences, hid, ok_bind, Except.ok.injEq] at hocc
  simp only [Query.run, getClusterVideos, hid, ok_bind, Except.ok.injEq, hdb₂] at hvid
  refine ⟨hmem, howner, hvid ▸ videoCounts_videos, ?_⟩
  rw [← hocc, List.length_map, orderBy, List.length_insertionSort, ← List.countP_eq_length_filter]
  rfl

omit [Arithmetic K] in
theorem lookup_pairs {β : Type} (f : Uuid → β) {l : List Uuid} {id : Uuid} (h : id ∈ l) :
    (l.map fun a => (a, f a)).lookup id = some (f id) := by
  induction l with
  | nil => cases h
  | cons a l ih =>
      by_cases ha : id = a
      · subst ha
        simp
      · rw [List.map_cons, List.lookup_cons, beq_eq_false_iff_ne.mpr ha]
        exact ih ((List.mem_cons.mp h).resolve_left ha)

omit [Arithmetic K] in
/-- The batch of `list_faces` has for each cluster of the owner what `get_face` has. -/
theorem getClustersVideos_view {userId : String} {owner : Uuid} (howner : castUuid userId = .ok owner)
    {videos : List (Uuid × List VideoCount)} (h : getClustersVideos db userId = .ok videos) {c : Cluster K}
    (hc : c ∈ db.clusters) (hmine : c.ownerId = owner) (hseen : InVideo db c) :
    Videos db c.id (videosOf videos c.id) := by
  unfold getClustersVideos at h
  simp only [howner, ok_bind, Except.ok.injEq] at h
  subst h
  have hjoined : ∀ o : Occurrence K, o.clusterId = c.id →
      db.clusters.any (fun c => c.id = o.clusterId && c.ownerId = owner) = true := by
    intro o hid
    exact List.any_eq_true.mpr ⟨c, hc, by simp [hid, hmine]⟩
  obtain ⟨o, ho, hid⟩ := hseen
  rw [videosOf, lookup_pairs]
  · rw [List.filter_filter, Option.getD_some]
    have hsame : (db.occurrences.filter fun o => decide (o.clusterId = c.id) &&
        db.clusters.any fun c => c.id = o.clusterId && c.ownerId = owner) =
        db.occurrences.filter fun o => o.clusterId = c.id := by
      apply List.filter_congr
      intro o _
      by_cases hid : o.clusterId = c.id
      · simp only [hid, decide_true, Bool.true_and]
        exact hid ▸ hjoined o hid
      · simp [hid]
    rw [hsame]
    exact videoCounts_videos
  · rw [List.mem_dedup, List.mem_map]
    exact ⟨o, List.mem_filter.mpr ⟨ho, hjoined o hid⟩, hid⟩

/-- What `list_faces` shows, on the page or in a group. -/
def ListBody.Shows (body : ListBody K) (e : ListedCluster) : Prop :=
  e ∈ body.clusters ∨ ∃ g ∈ body.groups, e ∈ g.clusters

theorem listFaces_view {limit offset : ℕ} {sort : String} {order : Option String} {body : ListBody K}
    (h : Answers svc oracle db (listFaces svc auth limit offset sort order) body) {e : ListedCluster}
    (he : body.Shows e) :
    ∃ c ∈ db.clusters, e.id = c.id ∧ e.sampleCount = c.sampleCount ∧ e.videoCount = e.videos.length ∧
      Videos db c.id e.videos := by
  obtain ⟨w, w', rfl, hexec⟩ := h
  obtain ⟨reverse, w₁, hsort, hexec⟩ := exec_bind_eq_ok.mp hexec
  rw [exec_lift, Prod.mk.injEq] at hsort
  obtain ⟨-, rfl⟩ := hsort
  obtain ⟨rows, w₂, hrows, hexec⟩ := exec_bind_eq_ok.mp hexec
  obtain ⟨hrows, hdb₂⟩ := query_answer hrows
  obtain ⟨videos, w₃, hvideos, hexec⟩ := exec_bind_eq_ok.mp hexec
  obtain ⟨hvideos, -⟩ := query_answer hvideos
  rw [hdb₂] at hvideos
  rw [exec_lift, Prod.mk.injEq] at hexec
  obtain ⟨hbody, -⟩ := hexec
  obtain ⟨groups, hgroups, -⟩ := bind_eq_ok.mp hbody
  rw [listBody_ok hgroups] at hbody
  cases hbody
  obtain ⟨owner, howner, -⟩ := getClustersForOwner_ok hrows
  obtain ⟨rows', videos', hrows', -, hvideos', hrest⟩ := @rows_read K w.db _ _ howner
  cases hrows.symm.trans hrows'
  cases hvideos.symm.trans hvideos'
  have hshown : ∃ c ∈ withVideos rows videos, e = listed videos c := by
    rcases he with he | ⟨g, hg, he⟩
    · obtain ⟨c, hc, rfl⟩ := List.mem_map.mp he
      have hflat := (sections_perm sort reverse _).mem_iff.mp (List.mem_of_mem_drop (List.mem_of_mem_take hc))
      exact ⟨c, (mem_flatList.mp hflat).1, rfl⟩
    · obtain ⟨g₀, hg₀, rfl⟩ := List.mem_map.mp hg
      rw [listedGroup_clusters] at he
      obtain ⟨c, hc, rfl⟩ := List.mem_map.mp he
      exact ⟨c, (mem_withCentroid.mp ((group_sound hgroups hg₀).origin c hc).1).1, rfl⟩
  obtain ⟨c, hc, rfl⟩ := hshown
  obtain ⟨hmem, hmine, hseen⟩ := (hrest c).mp hc
  exact ⟨c, hmem, rfl, rfl, rfl, getClustersVideos_view howner hvideos hmem hmine hseen⟩

theorem length_sightingsOf (stream id : Uuid) :
    (sightingsOf (streamRows db stream) id).length = sightings db id stream := by
  have hperm : (streamRows db stream).Perm (db.occurrences.filter fun o => o.streamId = stream) :=
    List.perm_insertionSort _ _
  rw [sightingsOf, List.filter_map, List.length_map, (hperm.filter _).length_eq, List.filter_filter,
    ← List.countP_eq_length_filter]
  rfl

/-- The people of a video: everyone the caller may see, with the sightings there. -/
theorem streamFaces_view {streamId : String} {people : List (StreamCluster K)}
    (hids : (db.clusters.map (·.id)).Nodup) (h : Answers svc oracle db (streamFaces auth streamId) people) :
    ∃ stream, castUuid streamId = .ok stream ∧
      (∀ p ∈ people, p.cluster ∈ db.clusters ∧ p.occurrences.length = p.count ∧ 0 < p.count ∧
        p.count = sightings db p.cluster.id stream) ∧
      ∀ c ∈ db.clusters, ensureOwner auth c.ownerId.text = .ok () → 0 < sightings db c.id stream →
        ∃ p ∈ people, p.cluster = c := by
  obtain ⟨w, w', rfl, hexec⟩ := h
  obtain ⟨rows, w₁, hrows, hexec⟩ := exec_bind_eq_ok.mp hexec
  obtain ⟨hrun, hdb₁⟩ := query_answer hrows
  obtain ⟨stream, hstream, hrun⟩ := bind_eq_ok.mp hrun
  cases hrun
  rw [exec_streamFaces_loop, Prod.mk.injEq, Except.ok.injEq] at hexec
  obtain ⟨hpeople, -⟩ := hexec
  rw [List.nil_append, hdb₁] at hpeople
  change (byCluster ((streamRows w.db stream).map .ofRow)).filterMap (streamEntry auth w.db) = people at hpeople
  rw [byCluster_filterMap] at hpeople
  have hseen : ∀ id, id ∈ fromKeys ((streamRows w.db stream).map (·.clusterId)) ↔
      0 < sightings w.db id stream := by
    intro id
    rw [mem_fromKeys, ← length_sightingsOf, List.length_pos_iff_exists_mem]
    simp [sightingsOf, StreamOccurrence.ofRow]
  refine ⟨stream, hstream, fun p hp => ?_, fun c hc howner hpos => ?_⟩
  · rw [← hpeople] at hp
    obtain ⟨id, hid, hentry⟩ := List.mem_filterMap.mp hp
    unfold streamEntry at hentry
    dsimp only at hentry
    split at hentry
    · cases hentry
    · rename_i c hfound
      split at hentry
      · cases hentry
      · cases hentry
        obtain ⟨hmem, rfl⟩ := mem_of_clusterById hfound
        refine ⟨hmem, rfl, ?_, by rw [length_sightingsOf]⟩
        rw [length_sightingsOf]
        exact (hseen c.id).mp hid
  · refine ⟨⟨c, (sightingsOf (streamRows w.db stream) c.id).length, sightingsOf (streamRows w.db stream) c.id⟩,
      ?_, rfl⟩
    rw [← hpeople]
    refine List.mem_filterMap.mpr ⟨c.id, (hseen c.id).mpr hpos, ?_⟩
    simp only [streamEntry, clusterById_of_nodup hids hc, howner]

/-- A search for one person. -/
theorem search_view (hstore : StoreInvariant db) {c : Cluster K} (hc : c ∈ db.clusters)
    (hmine : c.ownerId.text = auth.userId) {mode : SearchMode} {found : SearchBody}
    (h : Answers svc oracle db (searchVideosByFaces auth [c.id.text] mode) found) {videos : List VideoCount}
    (hvideos : Videos db c.id videos) :
    (found.streams.map fun hit => (hit.streamId, hit.frames)).Perm
      (videos.map fun v => (v.streamId, v.count)) := by
  obtain ⟨w, w', rfl, hexec⟩ := h
  obtain ⟨hits, w₁, hquery, hexec⟩ := exec_bind_eq_ok.mp hexec
  obtain ⟨hrun, -⟩ := query_answer hquery
  cases hexec
  have howner : castUuid auth.userId = .ok c.ownerId := hmine ▸ Uuid.castUuid_text _
  obtain ⟨hits', hrun', hexact⟩ :=
    @getStreamsForClusters_exact K w.db c.ownerId [c.id] auth.userId howner (by simp) mode
  have hsame : hits = hits' := by
    rw [Query.run] at hrun
    exact Except.ok.inj (hrun.symm.trans hrun')
  subst hsame
  -- the rows of the cluster are all its owner's
  have hrows : ∀ s, (w.db.occurrences.countP fun o => o.ownerId = c.ownerId && o.clusterId ∈ [c.id].toFinset &&
      o.streamId = s) = sightings w.db c.id s := by
    intro s
    apply List.countP_congr
    intro o ho
    by_cases hid : o.clusterId = c.id
    · obtain ⟨c', hc', hid', howner'⟩ := hstore.owned o ho
      rw [hstore.eq_of_id hc' hc (hid'.trans hid)] at howner'
      simp [hid, howner'.symm]
    · simp [hid]
  have hwanted : ∀ s, Wanted w.db c.ownerId [c.id].toFinset mode s ↔ 0 < sightings w.db c.id s := by
    intro s
    have hone : Wanted w.db c.ownerId [c.id].toFinset mode s ↔ Occurs w.db c.ownerId c.id s := by
      cases mode <;> simp [Wanted]
    rw [hone, ← hrows, List.countP_pos_iff]
    simp [Occurs, and_assoc]
  have honce : ∀ {α : Type} {l : List α} {f : α → Uuid} {g : α → ℕ}, (l.map f).Nodup →
      (l.map fun a => (f a, g a)).Nodup := by
    intro α l f g hnodup
    apply List.Nodup.of_map Prod.fst
    rw [List.map_map]
    exact hnodup
  apply (List.perm_ext_iff_of_nodup (honce hexact.once) (honce hvideos.once)).mpr
  rintro ⟨s, n⟩
  have hhit : (s, n) ∈ hits.map (fun hit => (hit.streamId, hit.frames)) ↔
      0 < sightings w.db c.id s ∧ n = sightings w.db c.id s := by
    rw [← hwanted, ← hexact.found, List.mem_map]
    constructor
    · rintro ⟨hit, hmem, heq⟩
      cases heq
      exact ⟨List.mem_map_of_mem hmem, (hexact.frames hit hmem).trans (hrows _)⟩
    · rintro ⟨hmem, rfl⟩
      obtain ⟨hit, hhit, rfl⟩ := List.mem_map.mp hmem
      exact ⟨hit, hhit, by rw [hexact.frames hit hhit, hrows]⟩
  rw [hhit, List.mem_map]
  constructor
  · rintro ⟨hpos, rfl⟩
    exact ⟨⟨s, sightings w.db c.id s⟩, (hvideos.exact _).mpr ⟨hpos, rfl⟩, rfl⟩
  · rintro ⟨v, hv, heq⟩
    cases heq
    obtain ⟨hpos, hcount⟩ := (hvideos.exact v).mp hv
    exact ⟨hcount ▸ hpos, hcount⟩

/-! ### Side by side -/

/-- The answers about one person: of `get_face`, of a page of `list_faces`, of
`stream_faces` for one video, and of a search for that person. -/
structure Agree (auth : AuthContext) (face : FaceBody K) (page : ListBody K) (stream : Uuid) (people : List (StreamCluster K))
    (found : SearchBody) : Prop where
  counted : face.cluster.sampleCount = face.occurrences.length
  summed : (face.videos.map (·.count)).sum = face.cluster.sampleCount
  listed : ∀ e, page.Shows e → e.id = face.cluster.id →
    e.videos.Perm face.videos ∧ e.videoCount = face.videos.length ∧ e.sampleCount = face.cluster.sampleCount
  present : ∀ p ∈ people, p.cluster.id = face.cluster.id →
    p.occurrences.length = p.count ∧ ⟨stream, p.count⟩ ∈ face.videos
  absent : (∀ p ∈ people, p.cluster.id ≠ face.cluster.id) → stream ∉ face.videos.map (·.streamId)
  searched : face.cluster.ownerId.text = auth.userId →
    (found.streams.map fun hit => (hit.streamId, hit.frames)).Perm
      (face.videos.map fun v => (v.streamId, v.count))

/-- **The views agree.** Whatever a caller is answered about a person by different
endpoints, in a state that satisfies the store invariant, tells of the same videos
with the same counts. -/
theorem views_agree (hstore : StoreInvariant db) {clusterId : String} {face : FaceBody K}
    (hface : Answers svc oracle db (getFace auth clusterId) face) {limit offset : ℕ} {sort : String}
    {order : Option String} {page : ListBody K}
    (hpage : Answers svc oracle db (listFaces svc auth limit offset sort order) page) {streamId : String}
    {people : List (StreamCluster K)} (hpeople : Answers svc oracle db (streamFaces auth streamId) people)
    {mode : SearchMode} {found : SearchBody}
    (hfound : Answers svc oracle db (searchVideosByFaces auth [face.cluster.id.text] mode) found) :
    ∃ stream, castUuid streamId = .ok stream ∧ Agree auth face page stream people found := by
  obtain ⟨hmem, howner, hvideos, hlength⟩ := getFace_view hface
  obtain ⟨stream, hstream, hpresent, habsent⟩ := streamFaces_view hstore.ids hpeople
  have hsame : ∀ c ∈ db.clusters, c.id = face.cluster.id → c = face.cluster :=
    fun c hc hid => hstore.eq_of_id hc hmem hid
  have hcount : face.cluster.sampleCount = db.countFor face.cluster.id := hstore.counts _ hmem not_false
  refine ⟨stream, hstream, ?_⟩
  constructor
  case counted => exact hcount.trans hlength.symm
  case summed => exact hvideos.sum.trans hcount.symm
  case listed =>
    intro e he hid
    obtain ⟨c, hc, hcid, hcsamples, hvcount, hevideos⟩ := listFaces_view hpage he
    have hface : c = face.cluster := hsame c hc (hcid.symm.trans hid)
    subst hface
    have hperm := hevideos.perm hvideos
    exact ⟨hperm, hvcount.trans hperm.length_eq, hcsamples⟩
  case present =>
    intro p hp hid
    obtain ⟨-, hlen, hpos, hsightings⟩ := hpresent p hp
    exact ⟨hlen, (hvideos.exact _).mpr ⟨hpos, hid ▸ hsightings⟩⟩
  case absent =>
    intro hnobody hin
    obtain ⟨p, hp, hpc⟩ := habsent face.cluster hmem howner (hvideos.mem_streams.mp hin)
    exact hnobody p hp (congrArg (·.id) hpc)
  case searched => exact fun hmine => search_view hstore hmem hmine hfound hvideos

/-- One person, seen twice in one video and once in another. -/
def seenThrice : World ℚ :=
  { sceneWorld with
    db := ⟨[.anonymous (.fill 3) (.fill 1) [1, 0] 3],
      [⟨.fill 1, .fill 7, .fill 3, [1, 0], 5 / 2, 1, 0⟩, ⟨.fill 1, .fill 8, .fill 3, [1, 0], 5 / 2, 1, 0⟩,
        ⟨.fill 1, .fill 7, .fill 3, [1, 0], 15 / 2, 1, 0⟩]⟩ }

theorem seenThrice_invariant : StoreInvariant seenThrice.db where
  ids := by decide +kernel
  owned := by decide +kernel
  keys := by decide +kernel
  named := by
    intro c hc
    rw [List.mem_singleton.mp hc]
    exact ⟨rfl, fun n hn => nomatch hn⟩
  counts := by
    intro c hc _
    rw [List.mem_singleton.mp hc]
    rfl

/-- What is answered there. -/
theorem seenThrice_answers {α : Type} (p : Program ℚ α)
    (h : (p.exec (answer Platform.exact (sceneOracle 9)) seenThrice).1.isOk = true) :
    ∃ a, (p.exec (answer Platform.exact (sceneOracle 9)) seenThrice).1 = .ok a ∧
      Answers (sceneService []) (sceneOracle 9) seenThrice.db p a := by
  cases hres : (p.exec (answer Platform.exact (sceneOracle 9)) seenThrice).1 with
  | error e =>
      rw [hres] at h
      cases h
  | ok a => exact ⟨a, rfl, seenThrice, _, rfl, Prod.ext hres rfl⟩

theorem views_agree_thrice :
    ∃ (face : FaceBody ℚ) (page : ListBody ℚ) (people : List (StreamCluster ℚ)) (found : SearchBody),
      Agree ⟨(Uuid.fill 1).text, none⟩ face page (Uuid.fill 7) people found ∧
        face.cluster.id = Uuid.fill 3 := by
  obtain ⟨face, hexec, hface⟩ :=
    seenThrice_answers (getFace ⟨(Uuid.fill 1).text, none⟩ (Uuid.fill 3).text) (by decide +kernel)
  have hid : face.cluster.id = Uuid.fill 3 := by
    have hmap : ((getFace ⟨(Uuid.fill 1).text, none⟩ (Uuid.fill 3).text).exec
        (answer Platform.exact (sceneOracle 9)) seenThrice).1.map (·.cluster.id) = .ok (Uuid.fill 3) := by
      decide +kernel
    rw [hexec] at hmap
    exact Except.ok.inj hmap
  obtain ⟨page, -, hpage⟩ := seenThrice_answers
    (listFaces (sceneService []) ⟨(Uuid.fill 1).text, none⟩ 50 0 "name" none) (by decide +kernel)
  obtain ⟨people, -, hpeople⟩ := seenThrice_answers
    (streamFaces ⟨(Uuid.fill 1).text, none⟩ (Uuid.fill 7).text) (by decide +kernel)
  obtain ⟨found, -, hfound⟩ := seenThrice_answers
    (searchVideosByFaces ⟨(Uuid.fill 1).text, none⟩ [(Uuid.fill 3).text] .all) (by decide +kernel)
  rw [← hid] at hfound
  obtain ⟨stream, hstream, hagree⟩ := views_agree seenThrice_invariant hface hpage hpeople hfound
  rw [Uuid.castUuid_text] at hstream
  cases hstream
  exact ⟨face, page, people, found, hagree, hid⟩

end FacesService.Reader
