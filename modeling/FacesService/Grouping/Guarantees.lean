import FacesService.Grouping.Groups

/-!
The two guarantees of `build_similarity_groups` as a merge suggestion: every
group is a clique around the right representative, and nothing that could
have been suggested is missing.
-/

namespace FacesService

open CliqueCover

variable {K : Type} [Arithmetic K] {pf : Platform K} {threshold : K} {clusters : List (Cluster K)}

/-! ### Soundness -/

/-- A group as the People page may show it. -/
structure Group.Sound (pf : Platform K) (clusters : List (Cluster K)) (threshold : K)
    (g : Group K) : Prop where
  members_ne_nil : g.members ≠ []
  similar : ∀ c ∈ g.clusters, ∀ d ∈ g.clusters, c ≠ d → threshold ≤ similarity pf c d
  one_named : (g.clusters.filter (·.isNamed)).length ≤ 1
  rep_named : ∀ c ∈ g.clusters, c.isNamed → c = g.rep
  rep_largest : (∀ c ∈ g.clusters, c.isNamed = false) →
    ∀ c ∈ g.clusters, c.sampleCount ≤ g.rep.sampleCount
  sims : ∀ m ∈ g.members, m.sim = similarity pf g.rep m.cluster
  sorted : g.members.Pairwise fun m m' => m'.sim ≤ m.sim
  maxSim : g.members.head?.map (·.sim) = some g.maxSim
  origin : ∀ c ∈ g.clusters, c ∈ clusters ∧ c.centroid ≠ []

section Sound

variable {order clique : List (Fin (withCentroid clusters).length)}
  {rep : Fin (withCentroid clusters).length}

theorem FromClique.repKey_le (h : FromClique pf threshold (withCentroid clusters) order clique rep)
    {k : Fin (withCentroid clusters).length} (hk : k ∈ clique) :
    repKey (withCentroid clusters) k ≤ repKey (withCentroid clusters) rep :=
  List.le_of_mem_argmax hk h.chosen

/-- The named member of a clique is its only one, and the key prefers it. -/
theorem FromClique.named_eq_rep
    (h : FromClique pf threshold (withCentroid clusters) order clique rep)
    {k : Fin (withCentroid clusters).length} (hk : k ∈ clique)
    (hnamed : ((withCentroid clusters).get k).isNamed = true) : k = rep := by
  have hrep : ((withCentroid clusters).get rep).isNamed = true := by
    rcases repKey_le_repKey.mp (h.repKey_le hk) with ⟨-, hrep⟩ | ⟨heq, -⟩
    · exact hrep
    · rw [← heq, hnamed]
  by_contra hne
  have htwo : [k, rep].Subperm (clique.filter fun i => ((withCentroid clusters).get i).isNamed) := by
    refine List.subperm_of_subset (by simpa using hne) fun i hi => ?_
    rcases List.mem_cons.mp hi with rfl | hi
    · exact List.mem_filter.mpr ⟨hk, hnamed⟩
    · rw [List.mem_singleton.mp hi]
      exact List.mem_filter.mpr ⟨h.rep_mem, hrep⟩
  have hone : (clique.filter fun i => ((withCentroid clusters).get i).isNamed).length ≤ 1 :=
    h.isClique.1.exclusive
  have hlen := htwo.length_le
  simp only [List.length_cons, List.length_nil] at hlen
  omega

theorem FromClique.sound (h : FromClique pf threshold (withCentroid clusters) order clique rep) :
    (groupOf pf (withCentroid clusters) clique rep).Sound pf clusters threshold where
  members_ne_nil := groupOf_members_ne_nil h.isClique.1.nodup h.isClique.2
  similar := by
    intro c hc d hd hne
    obtain ⟨k, hk, rfl⟩ := h.mem_clusters.mp hc
    obtain ⟨l, hl, rfl⟩ := h.mem_clusters.mp hd
    have hkl : k ≠ l := fun heq => hne (by rw [heq])
    simpa [similarityCover] using h.isClique.1.adj k hk l hl hkl
  one_named := by
    have hperm := @groupOf_clusters_perm K _ pf _ clique rep h.isClique.1.nodup h.rep_mem
    rw [(hperm.filter _).length_eq, List.filter_map, List.length_map]
    exact h.isClique.1.exclusive
  rep_named := by
    intro c hc hnamed
    obtain ⟨k, hk, rfl⟩ := h.mem_clusters.mp hc
    rw [h.named_eq_rep hk hnamed]
    rfl
  rep_largest := by
    intro hnone c hc
    obtain ⟨k, hk, rfl⟩ := h.mem_clusters.mp hc
    have hrep : ((withCentroid clusters).get rep).isNamed = false := hnone _ List.mem_cons_self
    rcases repKey_le_repKey.mp (h.repKey_le hk) with ⟨-, hnamed⟩ | ⟨-, hle⟩
    · rw [hrep] at hnamed
      cases hnamed
    · exact hle
  sims := by
    intro m hm
    obtain ⟨k, -, -, rfl⟩ := mem_groupOf_members.mp hm
    rfl
  sorted := groupOf_sorted
  maxSim := groupOf_maxSim (groupOf_members_ne_nil h.isClique.1.nodup h.isClique.2)
  origin := by
    intro c hc
    obtain ⟨k, -, rfl⟩ := h.mem_clusters.mp hc
    exact mem_withCentroid.mp (List.get_mem _ k)

end Sound

theorem group_sound {groups : List (Group K)}
    (h : buildSimilarityGroups pf clusters threshold = .ok groups) {g : Group K} (hg : g ∈ groups) :
    g.Sound pf clusters threshold := by
  obtain ⟨order, -, hperm, -⟩ := buildSimilarityGroups_ok h
  obtain ⟨clique, rep, hfrom, rfl⟩ := fromClique_of_mem hperm hg
  exact hfrom.sound

/-- A group lists each of its clusters once. -/
theorem group_ids_nodup (hids : (clusters.map (·.id)).Nodup) {groups : List (Group K)}
    (h : buildSimilarityGroups pf clusters threshold = .ok groups) {g : Group K} (hg : g ∈ groups) :
    (g.clusters.map (·.id)).Nodup := by
  obtain ⟨order, -, hperm, -⟩ := buildSimilarityGroups_ok h
  obtain ⟨clique, rep, hfrom, rfl⟩ := fromClique_of_mem hperm hg
  have hclique := hfrom.isClique.1.nodup
  have hperm := (@groupOf_clusters_perm K _ pf _ clique rep hclique hfrom.rep_mem).map (·.id)
  rw [hperm.nodup_iff, List.map_map]
  exact hclique.map_on fun k _ l _ heq => get_withCentroid_inj hids heq

/-- Groups share no cluster. -/
def Apart (g h : Group K) : Prop := ∀ c ∈ g.clusters, ∀ d ∈ h.clusters, c.id ≠ d.id

theorem groups_apart (hids : (clusters.map (·.id)).Nodup) {groups : List (Group K)}
    (h : buildSimilarityGroups pf clusters threshold = .ok groups) : groups.Pairwise Apart := by
  obtain ⟨order, -, hperm, -⟩ := buildSimilarityGroups_ok h
  have hsymm : ∀ g g' : Group K, Apart g g' → Apart g' g :=
    fun g g' hgg' c hc d hd heq => hgg' d hd c hc heq.symm
  refine (hperm.pairwise_iff (hsymm _ _)).mpr (List.pairwise_filterMap.mpr ?_)
  refine (cover_disjoint order []).imp_of_mem fun {a b} ha hb hdisj g hg g' hg' c hc d hd heq => ?_
  obtain ⟨rep, hrep, rfl⟩ := Option.map_eq_some_iff.mp hg
  obtain ⟨rep', hrep', rfl⟩ := Option.map_eq_some_iff.mp hg'
  have hfrom : FromClique pf threshold (withCentroid clusters) order a rep := ⟨ha, hrep⟩
  have hfrom' : FromClique pf threshold (withCentroid clusters) order b rep' := ⟨hb, hrep'⟩
  obtain ⟨k, hk, rfl⟩ := hfrom.mem_clusters.mp hc
  obtain ⟨l, hl, rfl⟩ := hfrom'.mem_clusters.mp hd
  rw [get_withCentroid_inj hids heq] at hk
  exact hdisj hk hl

/-- **Soundness of the suggestions.** On clusters with distinct ids, whose
centroids have one length where there are any, the function returns, and its
groups are sound, disjoint and in order. -/
theorem similarity_groups_sound (hids : (clusters.map (·.id)).Nodup)
    (hlen : ∀ c ∈ clusters, ∀ d ∈ clusters, c.centroid ≠ [] → d.centroid ≠ [] →
      c.centroid.length = d.centroid.length) :
    ∃ groups, buildSimilarityGroups pf clusters threshold = .ok groups ∧
      (∀ g ∈ groups, g.Sound pf clusters threshold) ∧ groups.Pairwise Apart ∧
      groups.Pairwise fun g g' => g'.maxSim ≤ g.maxSim := by
  have hstack : Stackable (withCentroid clusters) := fun c hc d hd =>
    hlen c (mem_withCentroid.mp hc).1 d (mem_withCentroid.mp hd).1
      (mem_withCentroid.mp hc).2 (mem_withCentroid.mp hd).2
  obtain ⟨groups, hgroups⟩ := @buildSimilarityGroups_returns K _ pf threshold _ hstack
  obtain ⟨order, -, -, hsorted⟩ := buildSimilarityGroups_ok hgroups
  exact ⟨groups, hgroups, fun g hg => group_sound hgroups hg, groups_apart hids hgroups, hsorted⟩

/-- A chain of three, of which only neighbours are similar. -/
def chain : List (Cluster ℚ) :=
  [.anonymous (.fill 1) (.fill 9) [1, 0] 3, .anonymous (.fill 2) (.fill 9) [3 / 5, 4 / 5] 1,
    .anonymous (.fill 3) (.fill 9) [0, 1] 2]

theorem similarity_groups_sound_chain :
    ∃ groups, buildSimilarityGroups Platform.exact chain similarityThreshold = .ok groups ∧
      (∀ g ∈ groups, g.Sound Platform.exact chain similarityThreshold) ∧
      groups.Pairwise Apart ∧ groups.Pairwise fun g g' => g'.maxSim ≤ g.maxSim :=
  similarity_groups_sound (by decide) (by decide)

/-- The middle seeds first and takes the closer end. -/
example : (buildSimilarityGroups Platform.exact chain similarityThreshold).toOption.map
    (·.map fun g => g.clusters.map (·.id)) = some [[.fill 3, .fill 2]] := by
  decide +kernel

/-! ### Completeness -/

/-- In no group. -/
def Ungrouped (groups : List (Group K)) (c : Cluster K) : Prop :=
  ∀ g ∈ groups, ∀ d ∈ g.clusters, d.id ≠ c.id

theorem leftOut_of_ungrouped {groups : List (Group K)}
    {order : List (Fin (withCentroid clusters).length)}
    (hperm : groups.Perm (groupsOf pf threshold (withCentroid clusters) order))
    {i : Fin (withCentroid clusters).length}
    (h : Ungrouped groups ((withCentroid clusters).get i)) :
    (similarityCover pf threshold (withCentroid clusters)).LeftOut order [] i := by
  refine ⟨List.not_mem_nil, fun clique hclique hi => ?_⟩
  obtain ⟨rep, hfrom, hg⟩ := mem_of_clique hperm hclique
  exact h _ hg _ (hfrom.mem_clusters.mpr ⟨i, hi, rfl⟩) rfl

/-- **Completeness of the suggestions.** Two similar clusters in no group are
both named; a cluster in no group that is similar to a whole group is named,
and so is a member of the group. -/
theorem similarity_groups_complete {groups : List (Group K)}
    (h : buildSimilarityGroups pf clusters threshold = .ok groups) :
    (∀ c ∈ clusters, ∀ d ∈ clusters, c.centroid ≠ [] → d.centroid ≠ [] → c.id ≠ d.id →
      Ungrouped groups c → Ungrouped groups d → threshold ≤ similarity pf c d →
      c.isNamed = true ∧ d.isNamed = true) ∧
    ∀ g ∈ groups, ∀ c ∈ clusters, c.centroid ≠ [] → Ungrouped groups c →
      (∀ d ∈ g.clusters, threshold ≤ similarity pf c d) →
      c.isNamed = true ∧ ∃ d ∈ g.clusters, d.isNamed = true := by
  obtain ⟨order, hall, hperm, -⟩ := buildSimilarityGroups_ok h
  constructor
  · intro c hc d hd hcv hdv hne hcu hdu hsim
    obtain ⟨i, rfl⟩ := List.get_of_mem (mem_withCentroid.mpr ⟨hc, hcv⟩)
    obtain ⟨j, rfl⟩ := List.get_of_mem (mem_withCentroid.mpr ⟨hd, hdv⟩)
    have hij : i ≠ j := fun heq => hne (by rw [heq])
    have htwo : 2 ≤ (withCentroid clusters).length := by
      have := i.isLt
      have := j.isLt
      have := Fin.val_ne_of_ne hij
      omega
    exact cover_complete (hall i htwo) (List.mem_finRange j) hij (by simpa [similarityCover] using hsim)
      (leftOut_of_ungrouped hperm hcu) (leftOut_of_ungrouped hperm hdu)
  · intro g hg c hc hcv hcu hsim
    obtain ⟨i, rfl⟩ := List.get_of_mem (mem_withCentroid.mpr ⟨hc, hcv⟩)
    obtain ⟨clique, rep, hfrom, rfl⟩ := fromClique_of_mem hperm hg
    have hadj : ∀ k ∈ clique, (similarityCover pf threshold (withCentroid clusters)).adj i k := by
      intro k hk
      simpa [similarityCover] using hsim _ (hfrom.mem_clusters.mpr ⟨k, hk, rfl⟩)
    obtain ⟨hi, k, hk, hknamed⟩ := cover_maximal (List.mem_finRange i) hfrom.mem hadj
      (leftOut_of_ungrouped hperm hcu)
    exact ⟨hi, _, hfrom.mem_clusters.mpr ⟨k, hk, rfl⟩, hknamed⟩

/-- Two named look-alikes, which no group may hold together. -/
def lookAlikes : List (Cluster ℚ) :=
  [{ Cluster.anonymous (.fill 1) (.fill 9) [1, 0] 3 with name := some "Ada", isNamed := true },
    { Cluster.anonymous (.fill 2) (.fill 9) [1, 0] 1 with name := some "Bea", isNamed := true }]

theorem similarity_groups_complete_named :
    ∃ groups, buildSimilarityGroups Platform.exact lookAlikes similarityThreshold = .ok groups ∧
      (∀ c ∈ lookAlikes, ∀ d ∈ lookAlikes, c.centroid ≠ [] → d.centroid ≠ [] → c.id ≠ d.id →
        Ungrouped groups c → Ungrouped groups d →
        similarityThreshold ≤ similarity Platform.exact c d →
        c.isNamed = true ∧ d.isNamed = true) ∧
      ∀ g ∈ groups, ∀ c ∈ lookAlikes, c.centroid ≠ [] → Ungrouped groups c →
        (∀ d ∈ g.clusters, similarityThreshold ≤ similarity Platform.exact c d) →
        c.isNamed = true ∧ ∃ d ∈ g.clusters, d.isNamed = true := by
  obtain ⟨groups, h⟩ := @buildSimilarityGroups_returns ℚ _ Platform.exact similarityThreshold
    lookAlikes (by decide)
  exact ⟨groups, h, similarity_groups_complete h⟩

end FacesService
