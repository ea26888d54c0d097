import FacesService.Base.Lists
import FacesService.Reader.Duplicates
import FacesService.Store.Lineage

/-!
The People list: the pages of `list_faces` and its groups. Between them they
show every cluster that occurs in a video, and a cluster is shown twice only
if it has a name and stands in a group. The proof follows the endpoint: the
clusters with videos, the groups, what the groups leave, the two sections,
the slices.
-/

namespace FacesService.Reader

open Db Fallible Prog

variable {K : Type}

/-! ### Sorting -/

theorem sortBy_perm {α β : Type} [LinearOrder β] (key : α → β) (reverse : Bool) (l : List α) :
    (sortBy key reverse l).Perm l :=
  List.perm_insertionSort _ _

/-- Sorted by `key`, in the direction asked for. -/
def Directed {β : Type} [LinearOrder β] (reverse : Bool) (a b : β) : Prop :=
  if reverse then b < a else a < b

/-- Where no two keys are equal the sort is strict. -/
theorem sortBy_strict {α β : Type} [LinearOrder β] {key : α → β} {l : List α}
    (hkey : (l.map key).Nodup) (reverse : Bool) :
    (sortBy key reverse l).Pairwise fun a b => Directed reverse (key a) (key b) := by
  have hnodup : (sortBy key reverse l).Pairwise fun a b => key a ≠ key b :=
    List.pairwise_map.mp (((sortBy_perm key reverse l).map key).nodup_iff.mpr hkey)
  cases reverse with
  | false =>
      have hsorted : (sortBy key false l).Pairwise fun a b => key a ≤ key b := by
        unfold sortBy
        exact List.pairwise_insertionSort (r := fun a b => key a ≤ key b) l
      exact (hsorted.and hnodup).imp fun h => lt_of_le_of_ne h.1 h.2
  | true =>
      have hsorted : (sortBy key true l).Pairwise fun a b => key b ≤ key a := by
        unfold sortBy
        exact List.pairwise_insertionSort (r := fun a b => key b ≤ key a) l
      exact (hsorted.and hnodup).imp fun h => lt_of_le_of_ne h.1 (Ne.symm h.2)

/-- `_flat_key`, on the entries of a page. -/
def KeyBefore (sort : String) (reverse : Bool) (a b : ListedCluster) : Prop :=
  if sort = "samples" then
    Directed reverse (toLex (a.sampleCount, a.id.text)) (toLex (b.sampleCount, b.id.text))
  else if sort = "added" then
    Directed reverse (toLex (a.createdAt, a.id.text)) (toLex (b.createdAt, b.id.text))
  else
    Directed reverse (toLex (a.name.isNone, toLex (a.name.getD "", a.id.text)))
      (toLex (b.name.isNone, toLex (b.name.getD "", b.id.text)))

theorem sortClusters_perm (sort : String) (reverse : Bool) (l : List (Cluster K)) :
    (sortClusters sort reverse l).Perm l := by
  unfold sortClusters
  split
  · exact sortBy_perm _ _ _
  · split
    · exact sortBy_perm _ _ _
    · exact sortBy_perm _ _ _

/-- The id ends every key, so no two keys are equal. -/
theorem sortClusters_strict {l : List (Cluster K)} (hids : (l.map (·.id)).Nodup) (sort : String)
    (reverse : Bool) (videos : List (Uuid × List VideoCount)) :
    (sortClusters sort reverse l).Pairwise fun a b =>
      KeyBefore sort reverse (listed videos a) (listed videos b) := by
  have hkeys : ∀ {β : Type} (key : Cluster K → β),
      (∀ a b, key a = key b → a.id.text = b.id.text) → (l.map key).Nodup := by
    intro β key hkey
    refine List.pairwise_map.mpr ((List.pairwise_map.mp hids).imp fun hne heq => hne ?_)
    exact Uuid.text_injective (hkey _ _ heq)
  unfold sortClusters KeyBefore
  split
  · exact sortBy_strict (hkeys _ fun a b h => congrArg (fun p => (ofLex p).2) h) reverse
  · split
    · exact sortBy_strict (hkeys _ fun a b h => congrArg (fun p => (ofLex p).2) h) reverse
    · exact sortBy_strict
        (hkeys _ fun a b h => congrArg (fun p => (ofLex (ofLex p).2).2) h) reverse

/-! ### The two sections -/

/-- The named clusters, then the others, each section sorted. -/
def sections (sort : String) (reverse : Bool) (l : List (Cluster K)) : List (Cluster K) :=
  sortClusters sort reverse (l.filter (·.isNamed)) ++
    sortClusters sort reverse (l.filter (!·.isNamed))

theorem sections_perm (sort : String) (reverse : Bool) (l : List (Cluster K)) :
    (sections sort reverse l).Perm l :=
  ((sortClusters_perm _ _ _).append (sortClusters_perm _ _ _)).trans
    (List.filter_append_perm _ l)

/-- Named before unnamed; within a section the key decides. -/
def ListedBefore (sort : String) (reverse : Bool) (a b : ListedCluster) : Prop :=
  (a.isNamed = true ∧ b.isNamed = false) ∨ (a.isNamed = b.isNamed ∧ KeyBefore sort reverse a b)

theorem sections_sorted {l : List (Cluster K)} (hids : (l.map (·.id)).Nodup) (sort : String)
    (reverse : Bool) (videos : List (Uuid × List VideoCount)) :
    ((sections sort reverse l).map (listed videos)).Pairwise (ListedBefore sort reverse) := by
  have hnamed : ∀ c ∈ sortClusters sort reverse (l.filter (·.isNamed)), c.isNamed = true :=
    fun c hc => (List.mem_filter.mp ((sortClusters_perm _ _ _).mem_iff.mp hc)).2
  have hunnamed : ∀ c ∈ sortClusters sort reverse (l.filter (!·.isNamed)), c.isNamed = false :=
    fun c hc => by simpa using (List.mem_filter.mp ((sortClusters_perm _ _ _).mem_iff.mp hc)).2
  have hsub : ∀ p : Cluster K → Bool, ((l.filter p).map (·.id)).Nodup :=
    fun p => hids.sublist (List.filter_sublist.map _)
  refine List.pairwise_map.mpr (List.pairwise_append.mpr ⟨?_, ?_, ?_⟩)
  · refine (sortClusters_strict (hsub _) sort reverse videos).imp_of_mem fun ha hb hlt => .inr ⟨?_, hlt⟩
    exact (hnamed _ ha).trans (hnamed _ hb).symm
  · refine (sortClusters_strict (hsub _) sort reverse videos).imp_of_mem fun ha hb hlt => .inr ⟨?_, hlt⟩
    exact (hunnamed _ ha).trans (hunnamed _ hb).symm
  · exact fun a ha b hb => .inl ⟨hnamed a ha, hunnamed b hb⟩

/-! ### One page -/

/-- A cluster that occurs in a video. -/
def InVideo (db : Database K) (c : Cluster K) : Prop := ∃ o ∈ db.occurrences, o.clusterId = c.id

/-- The rows the endpoint reads, and which of them it keeps. -/
theorem rows_read {db : Database K} {userId : String} {owner : Uuid}
    (howner : castUuid userId = .ok owner) :
    ∃ rows videos, getClustersForOwner db userId = .ok rows ∧
      rows.Perm (db.clusters.filter fun c => c.ownerId = owner) ∧
      getClustersVideos db userId = .ok videos ∧
      ∀ c, c ∈ withVideos rows videos ↔ c ∈ db.clusters ∧ c.ownerId = owner ∧ InVideo db c := by
  have hrows : ∃ rows, getClustersForOwner db userId = .ok rows := by
    unfold getClustersForOwner
    rw [howner]
    exact ⟨_, rfl⟩
  obtain ⟨rows, hrows⟩ := hrows
  obtain ⟨owner', howner', hperm⟩ := getClustersForOwner_ok hrows
  rw [howner] at howner'
  cases howner'
  have hvideos : ∃ videos, getClustersVideos db userId = .ok videos ∧
      ∀ c ∈ db.clusters, c.ownerId = owner → InVideo db c → c.id ∈ videos.map (·.1) := by
    unfold getClustersVideos
    rw [howner]
    refine ⟨_, rfl, fun c hc hown ⟨o, ho, hid⟩ => ?_⟩
    rw [List.map_map]
    refine List.mem_map.mpr ⟨c.id, List.mem_dedup.mpr (List.mem_map.mpr ⟨o, ?_, hid⟩), rfl⟩
    refine List.mem_filter.mpr ⟨ho, List.any_eq_true.mpr ⟨c, hc, ?_⟩⟩
    simp [hid, hown]
  obtain ⟨videos, hvideos, hseen⟩ := hvideos
  refine ⟨rows, videos, hrows, hperm, hvideos, fun c => ?_⟩
  rw [mem_withVideos, hperm.mem_iff, List.mem_filter, decide_eq_true_eq]
  constructor
  · rintro ⟨⟨hc, hown⟩, hid⟩
    exact ⟨hc, hown, getClustersVideos_ok hvideos hid⟩
  · rintro ⟨hc, hown, hin⟩
    exact ⟨⟨hc, hown⟩, hseen c hc hown hin⟩

/-- The clusters a group shows. -/
def ListedGroup.clusters (g : ListedGroup K) : List ListedCluster := g.rep :: g.members.map (·.1)

def listedGroup (videos : List (Uuid × List VideoCount)) (g : Group K) : ListedGroup K :=
  ⟨listed videos g.rep, g.members.map fun m => (listed videos m.cluster, m.sim), g.maxSim⟩

theorem listedGroup_clusters (videos : List (Uuid × List VideoCount)) (g : Group K) :
    (listedGroup videos g).clusters = g.clusters.map (listed videos) := by
  simp [listedGroup, ListedGroup.clusters, Group.clusters]

/-- `grouped_ids`. -/
def groupedIds (groups : List (Group K)) : List Uuid :=
  groups.flatMap fun g => g.clusters.map (·.id)

/-- What the groups leave to the flat list. -/
def flatList (groups : List (Group K)) (rest : List (Cluster K)) : List (Cluster K) :=
  rest.filter fun c => c.id ∉ groupedIds groups || c.isNamed

theorem mem_flatList {groups : List (Group K)} {rest : List (Cluster K)} {c : Cluster K} :
    c ∈ flatList groups rest ↔ c ∈ rest ∧ (c.id ∉ groupedIds groups ∨ c.isNamed = true) := by
  simp [flatList]

/-- The response at an offset, the groups being given. -/
def page (limit : ℕ) (sort : String) (reverse : Bool) (groups : List (Group K))
    (clusters : List (Cluster K)) (videos : List (Uuid × List VideoCount)) (offset : ℕ) :
    ListBody K where
  clusters := (((sections sort reverse (flatList groups (withVideos clusters videos))).drop
    offset).take limit).map (listed videos)
  groups := groups.map (listedGroup videos)
  total := (withVideos clusters videos).length
  emptyCount := clusters.length - (withVideos clusters videos).length
  restTotal := (sections sort reverse (flatList groups (withVideos clusters videos))).length
  limit := limit
  offset := offset

variable [Arithmetic K] {svc : Service K} {auth : AuthContext} {oracle : Oracle}

theorem listBody_ok {limit offset : ℕ} {sort : String} {reverse : Bool}
    {clusters : List (Cluster K)} {videos : List (Uuid × List VideoCount)} {groups : List (Group K)}
    (h : buildSimilarityGroups svc.pf (withCentroid (withVideos clusters videos))
      similarityThreshold = .ok groups) :
    listBody svc limit offset sort reverse clusters videos =
      .ok (page limit sort reverse groups clusters videos offset) := by
  unfold listBody
  simp only [h, ok_bind]
  rfl

/-- The direction asked for; `name` ascends by default, the other keys descend. -/
def descending (sort : String) (order : Option String) : Bool :=
  order.getD (if sort = "name" then "asc" else "desc") = "desc"

theorem sortOrder_ok {sort : String} {order : Option String}
    (hsort : sort ∈ ["name", "samples", "added"]) (horder : ∀ o ∈ order, o ∈ ["asc", "desc"]) :
    sortOrder sort order = .ok (descending sort order) := by
  unfold sortOrder descending
  rw [if_neg (not_not.mpr hsort)]
  cases order with
  | none =>
      by_cases hname : sort = "name"
      · simp [hname]
      · simp [hname]
  | some o => simp only [if_neg (not_not.mpr (horder o rfl)), Option.getD_some]

/-- The endpoint reads two tables and changes nothing. -/
theorem listFaces_ok {limit offset : ℕ} {sort : String} {order : Option String} {w : World K}
    {clusters : List (Cluster K)} {videos : List (Uuid × List VideoCount)} {groups : List (Group K)}
    (hsort : sort ∈ ["name", "samples", "added"]) (horder : ∀ o ∈ order, o ∈ ["asc", "desc"])
    (hclusters : getClustersForOwner w.db auth.userId = .ok clusters)
    (hvideos : getClustersVideos w.db auth.userId = .ok videos)
    (hgroups : buildSimilarityGroups svc.pf (withCentroid (withVideos clusters videos))
      similarityThreshold = .ok groups) :
    ((listFaces svc auth limit offset sort order).exec (answer svc.pf oracle) w).1 =
      .ok (page limit sort (descending sort order) groups clusters videos offset) := by
  unfold listFaces
  rw [exec_bind, exec_lift, sortOrder_ok hsort horder]
  simp only
  rw [exec_bind, exec_query]
  simp only [Query.run, hclusters]
  rw [exec_bind, exec_query]
  simp only [Query.run, hvideos]
  rw [exec_lift, listBody_ok hgroups]

/-! ### All pages -/

/-- A cluster of the caller that occurs in a video. -/
def Listable (db : Database K) (owner : Uuid) (c : Cluster K) : Prop :=
  c ∈ db.clusters ∧ c.ownerId = owner ∧ InVideo db c

/-- The groups that show the cluster `id`. -/
def ListBody.GroupedIn (body : ListBody K) (id : Uuid) (g : ListedGroup K) : Prop :=
  g ∈ body.groups ∧ id ∈ g.clusters.map (·.id)

/-- What the caller has who has followed the pages to the end: `shown` are the
entries of the pages, `first` is any one response. -/
structure PeopleList (db : Database K) (owner : Uuid) (sort : String) (reverse : Bool)
    (first : ListBody K) (shown : List ListedCluster) : Prop where
  shown_once : (shown.map (·.id)).Nodup
  shown_all : shown.length = first.restTotal
  grouped_once : (first.groups.flatMap fun g => g.clusters.map (·.id)).Nodup
  one_group : ∀ id, (∃ g, first.GroupedIn id g) → ∃! g, first.GroupedIn id g
  somewhere : ∀ c, Listable db owner c →
    c.id ∈ shown.map (·.id) ∨ ∃! g, first.GroupedIn c.id g
  twice : ∀ c ∈ db.clusters, c.ownerId = owner →
    ((c.id ∈ shown.map (·.id) ∧ ∃! g, first.GroupedIn c.id g) ↔
      c.isNamed = true ∧ ∃ g, first.GroupedIn c.id g)
  named : ∀ c, Listable db owner c → c.isNamed = true → c.id ∈ shown.map (·.id)
  known : ∀ e, e ∈ shown ∨ (∃ g ∈ first.groups, e ∈ g.clusters) →
    ∃ c videos, Listable db owner c ∧ e = listed videos c
  counted : first.total + first.emptyCount = db.clusters.countP fun c => c.ownerId = owner
  sorted : shown.Pairwise (ListedBefore sort reverse)

section Pages

variable {db : Database K} {owner : Uuid} {rows : List (Cluster K)}
  {videos : List (Uuid × List VideoCount)} {groups : List (Group K)}

omit [Arithmetic K] in
theorem listedGroup_ids (videos : List (Uuid × List VideoCount)) (g : Group K) :
    (listedGroup videos g).clusters.map (·.id) = g.clusters.map (·.id) := by
  rw [listedGroup_clusters, List.map_map]
  rfl

omit [Arithmetic K] in
theorem groupedIn_page {limit offset : ℕ} {sort : String} {reverse : Bool} {id : Uuid} :
    (∃ g, (page limit sort reverse groups rows videos offset).GroupedIn id g) ↔
      id ∈ groupedIds groups := by
  unfold ListBody.GroupedIn groupedIds page
  simp only [List.mem_map, List.mem_flatMap]
  constructor
  · rintro ⟨-, ⟨g, hg, rfl⟩, hid⟩
    exact ⟨g, hg, List.mem_map.mp (listedGroup_ids videos g ▸ List.mem_map.mpr hid)⟩
  · rintro ⟨g, hg, hid⟩
    exact ⟨_, ⟨g, hg, rfl⟩, List.mem_map.mp (listedGroup_ids videos g ▸ List.mem_map.mpr hid)⟩

omit [Arithmetic K] in
/-- A grouped cluster is in one group only. -/
theorem groupedIn_unique {limit offset : ℕ} {sort : String} {reverse : Bool}
    (hapart : groups.Pairwise Apart) {id : Uuid} (hid : id ∈ groupedIds groups) :
    ∃! g, (page limit sort reverse groups rows videos offset).GroupedIn id g := by
  have hsome : ∃ g, (page limit sort reverse groups rows videos offset).GroupedIn id g :=
    groupedIn_page.mpr hid
  obtain ⟨_, hpage, hin⟩ := hsome
  obtain ⟨g, hg, rfl⟩ := List.mem_map.mp hpage
  refine ⟨listedGroup videos g, ⟨hpage, hin⟩, ?_⟩
  rintro _ ⟨hpage', hin'⟩
  obtain ⟨g', hg', rfl⟩ := List.mem_map.mp hpage'
  have hboth : ¬ Apart g g' := by
    rw [listedGroup_ids] at hin hin'
    obtain ⟨c, hc, hcid⟩ := List.mem_map.mp hin
    obtain ⟨d, hd, hdid⟩ := List.mem_map.mp hin'
    exact fun happ => happ c hc d hd (hcid.trans hdid.symm)
  have : Std.Symm (@Apart K) := ⟨fun _ _ h c hc d hd heq => h d hd c hc heq.symm⟩
  by_contra hne
  exact hboth (hapart.forall hg hg' fun heq => hne (by rw [heq]))

omit [Arithmetic K] in
/-- The groups together show no cluster twice. -/
theorem grouped_nodup {limit offset : ℕ} {sort : String} {reverse : Bool}
    (hapart : groups.Pairwise Apart) (hids : ∀ g ∈ groups, (g.clusters.map (·.id)).Nodup) :
    ((page limit sort reverse groups rows videos offset).groups.flatMap
      fun g => g.clusters.map (·.id)).Nodup := by
  simp only [page, List.flatMap_map, listedGroup_ids]
  refine List.nodup_flatMap.mpr ⟨hids, hapart.imp fun {g g'} happ => ?_⟩
  intro id hin hin'
  obtain ⟨c, hc, hcid⟩ := List.mem_map.mp hin
  obtain ⟨d, hd, hdid⟩ := List.mem_map.mp hin'
  exact happ c hc d hd (hcid.trans hdid.symm)

omit [Arithmetic K] in
/-- The slices of the flat list make it up again. -/
theorem flatMap_pages {limit : ℕ} (hlimit : 1 ≤ limit) {sort : String} {reverse : Bool} :
    ((List.multiplesBelow limit (page limit sort reverse groups rows videos 0).restTotal).flatMap
      fun offset => (page limit sort reverse groups rows videos offset).clusters) =
    (sections sort reverse (flatList groups (withVideos rows videos))).map (listed videos) := by
  simp only [page, ← List.map_flatMap]
  rw [List.flatMap_slices hlimit]

/-- The pages put together. -/
theorem pages_peopleList {limit : ℕ} {sort : String} {reverse : Bool} (hlimit : 1 ≤ limit)
    (hids : (db.clusters.map (·.id)).Nodup)
    (hperm : rows.Perm (db.clusters.filter fun c => c.ownerId = owner))
    (hrest : ∀ c, c ∈ withVideos rows videos ↔ Listable db owner c)
    (hgroups : buildSimilarityGroups svc.pf (withCentroid (withVideos rows videos))
      similarityThreshold = .ok groups) :
    PeopleList db owner sort reverse (page limit sort reverse groups rows videos 0)
      ((List.multiplesBelow limit (page limit sort reverse groups rows videos 0).restTotal).flatMap
        fun offset => (page limit sort reverse groups rows videos offset).clusters) := by
  rw [flatMap_pages hlimit]
  have hrowIds : (rows.map (·.id)).Nodup :=
    (hperm.map _).nodup_iff.mpr (hids.sublist (List.filter_sublist.map _))
  have hrestIds : ((withVideos rows videos).map (·.id)).Nodup :=
    hrowIds.sublist (List.filter_sublist.map _)
  have hcandidates : ((withCentroid (withVideos rows videos)).map (·.id)).Nodup :=
    hrestIds.sublist (List.filter_sublist.map _)
  have hapart := groups_apart hcandidates hgroups
  have hflat := sections_perm sort reverse (flatList groups (withVideos rows videos))
  have hflatIds : ((flatList groups (withVideos rows videos)).map (·.id)).Nodup :=
    hrestIds.sublist (List.filter_sublist.map _)
  have hshownIds : (((sections sort reverse (flatList groups (withVideos rows videos))).map
      (listed videos)).map (·.id)).Perm ((flatList groups (withVideos rows videos)).map (·.id)) := by
    rw [List.map_map]
    exact hflat.map _
  -- an id is on a page iff its cluster is in the flat list
  have hshown : ∀ c ∈ withVideos rows videos,
      (c.id ∈ ((sections sort reverse (flatList groups (withVideos rows videos))).map
        (listed videos)).map (·.id) ↔ c.id ∉ groupedIds groups ∨ c.isNamed = true) := by
    intro c hc
    rw [hshownIds.mem_iff]
    constructor
    · intro hid
      obtain ⟨d, hd, hdid⟩ := List.mem_map.mp hid
      obtain ⟨hd, hkept⟩ := mem_flatList.mp hd
      rwa [List.inj_on_of_nodup_map hrestIds hd hc hdid] at hkept
    · intro hkept
      exact List.mem_map_of_mem (mem_flatList.mpr ⟨hc, hkept⟩)
  have horigin : ∀ g ∈ groups, ∀ c ∈ g.clusters, Listable db owner c := fun g hg c hc =>
    (hrest c).mp (mem_withCentroid.mp ((group_sound hgroups hg).origin c hc).1).1
  have hgroupedRest : ∀ c ∈ db.clusters, c.id ∈ groupedIds groups → c ∈ withVideos rows videos := by
    intro c hc hid
    obtain ⟨g, hg, hid⟩ := List.mem_flatMap.mp hid
    obtain ⟨d, hd, hdid⟩ := List.mem_map.mp hid
    have hlist := horigin g hg d hd
    rw [← List.inj_on_of_nodup_map hids hlist.1 hc hdid]
    exact (hrest d).mpr hlist
  constructor
  case shown_once => exact hshownIds.nodup_iff.mpr hflatIds
  case shown_all => exact List.length_map _
  case grouped_once =>
    exact grouped_nodup hapart fun g hg => group_ids_nodup hcandidates hgroups hg
  case one_group => exact fun id hid => groupedIn_unique hapart (groupedIn_page.mp hid)
  case somewhere =>
    intro c hc
    by_cases hid : c.id ∈ groupedIds groups
    · exact .inr (groupedIn_unique hapart hid)
    · exact .inl ((hshown c ((hrest c).mpr hc)).mpr (.inl hid))
  case twice =>
    intro c hc howner
    have hone : (∃! g, (page limit sort reverse groups rows videos 0).GroupedIn c.id g) ↔
        c.id ∈ groupedIds groups :=
      ⟨fun h => groupedIn_page.mp h.exists, groupedIn_unique hapart⟩
    rw [hone, groupedIn_page]
    refine and_congr_left fun hid => ?_
    rw [hshown c (hgroupedRest c hc hid)]
    exact or_iff_right (not_not.mpr hid)
  case named => exact fun c hc hnamed => (hshown c ((hrest c).mpr hc)).mpr (.inr hnamed)
  case known =>
    rintro e (he | ⟨_, hpage, he⟩)
    · obtain ⟨c, hc, rfl⟩ := List.mem_map.mp he
      exact ⟨c, videos, (hrest c).mp (mem_flatList.mp (hflat.mem_iff.mp hc)).1, rfl⟩
    · obtain ⟨g, hg, rfl⟩ := List.mem_map.mp hpage
      rw [listedGroup_clusters] at he
      obtain ⟨c, hc, rfl⟩ := List.mem_map.mp he
      exact ⟨c, videos, horigin g hg c hc, rfl⟩
  case counted =>
    have hle : (withVideos rows videos).length ≤ rows.length := List.length_filter_le _ _
    have hrows : rows.length = db.clusters.countP fun c => c.ownerId = owner := by
      rw [hperm.length_eq, List.countP_eq_length_filter]
    rw [← hrows]
    exact Nat.add_sub_cancel' hle
  case sorted => exact sections_sorted hflatIds sort reverse videos

end Pages

/-- **Nobody is lost and nobody repeated.** In every state reached with vectors
of one model, every page of every valid sort is answered, the responses agree
on the groups and the bound, and the pages up to the bound make the list. -/
theorem people_list_complete {db : Database K} {owner : Uuid} {limit : ℕ} {sort : String}
    {order : Option String}
    (hreach : ReachedWith svc db) (howner : castUuid auth.userId = .ok owner)
    (hlimit : 1 ≤ limit)
    (hsort : sort ∈ ["name", "samples", "added"]) (horder : ∀ o ∈ order, o ∈ ["asc", "desc"]) :
    ∃ body : ℕ → ListBody K,
      (∀ offset w, w.db = db →
        ((listFaces svc auth limit offset sort order).exec (answer svc.pf oracle) w).1 =
          .ok (body offset)) ∧
      (∀ offset, (body offset).groups = (body 0).groups ∧
        (body offset).restTotal = (body 0).restTotal) ∧
      PeopleList db owner sort (descending sort order) (body 0)
        ((List.multiplesBelow limit (body 0).restTotal).flatMap fun offset => (body offset).clusters) := by
  have hids : (db.clusters.map (·.id)).Nodup := hreach.reached.invariant.ids
  obtain ⟨rows, videos, hrows, hperm, hvideos, hrest⟩ := @rows_read K db _ _ howner
  have hcentroid : ∀ c ∈ withCentroid (withCentroid (withVideos rows videos)),
      c.centroid.length = svc.vision.dim := fun c hc =>
    hreach.centroids c ((hrest c).mp (mem_withCentroid.mp (mem_withCentroid.mp hc).1).1).1
  have hstack : Stackable (withCentroid (withCentroid (withVideos rows videos))) :=
    fun c hc d hd => (hcentroid c hc).trans (hcentroid d hd).symm
  obtain ⟨groups, hgroups⟩ :=
    @buildSimilarityGroups_returns K _ svc.pf similarityThreshold _ hstack
  refine ⟨page limit sort (descending sort order) groups rows videos, fun offset w hw => ?_,
    fun offset => ⟨rfl, rfl⟩, pages_peopleList hlimit hids hperm hrest hgroups⟩
  subst hw
  exact listFaces_ok hsort horder hrows hvideos hgroups

/-- Two look-alikes in one video, one of them called Ada, and a person without
a sighting. -/
def familyDb : Database ℚ :=
  (Write.renameCluster (Uuid.fill 3).text (Uuid.fill 1).text (some "Ada")).commit
    Platform.exact (Uuid.fill 6) 4
    ((Write.appendStreamOccurrences (Uuid.fill 1).text (Uuid.fill 2).text
      [⟨(Uuid.fill 3).text, [1, 0], 5 / 2, 1⟩, ⟨(Uuid.fill 4).text, [1, 0], 5 / 2, 1⟩]).commit
      Platform.exact (Uuid.fill 6) 3
      ((Write.upsertCluster (Uuid.fill 1).text none false [0, 1]).commit Platform.exact (Uuid.fill 5) 2
        ((Write.upsertCluster (Uuid.fill 1).text none false [1, 0]).commit Platform.exact (Uuid.fill 4) 1
          ((Write.upsertCluster (Uuid.fill 1).text none false [1, 0]).commit Platform.exact
            (Uuid.fill 3) 0 ⟨[], []⟩))))

theorem people_list_complete_family :
    ∃ body : ℕ → ListBody ℚ,
      (∀ offset w, w.db = familyDb →
        ((listFaces (sceneService []) ⟨(Uuid.fill 1).text, none⟩ 1 offset "name" none).exec
          (answer (sceneService []).pf (sceneOracle 9)) w).1 = .ok (body offset)) ∧
      (∀ offset, (body offset).groups = (body 0).groups ∧
        (body offset).restTotal = (body 0).restTotal) ∧
      PeopleList familyDb (Uuid.fill 1) "name" false (body 0)
        ((List.multiplesBelow 1 (body 0).restTotal).flatMap fun offset => (body offset).clusters) := by
  have hreach : ReachedWith (sceneService []) familyDb := by
    unfold familyDb
    refine .step ?_ _ 4 _ ⟨⟨trivial, trivial⟩, trivial⟩
    refine .step ?_ _ 3 _ ⟨⟨.inr ?_, trivial⟩, trivial⟩
    · refine .step ?_ _ 2 _ ⟨⟨rfl, rfl⟩, rfl⟩
      refine .step ?_ _ 1 _ ⟨⟨rfl, rfl⟩, rfl⟩
      exact .step .empty _ 0 _ ⟨⟨rfl, rfl⟩, rfl⟩
    · intro it hit
      rcases List.mem_cons.mp hit with rfl | hit
      · exact ⟨Uuid.fill 3, _, by decide, rfl, Uuid.castUuid_text _⟩
      · rw [List.mem_singleton.mp hit]
        exact ⟨Uuid.fill 4, _, by decide, rfl, Uuid.castUuid_text _⟩
  exact @people_list_complete ℚ _ (sceneService [])
    ⟨(Uuid.fill 1).text, none⟩ (sceneOracle 9) familyDb (Uuid.fill 1) 1 "name" none hreach
    (by decide) (le_refl 1) (by simp) (by simp)

end FacesService.Reader
