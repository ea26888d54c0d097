import FacesService.Model.Clustering
import FacesService.Base.Fallible

/-!
What `build_similarity_groups` returns. A group is a clique of the greedy cover
seen from its representative, so soundness and completeness of the groups are
those of `CliqueCover`, read through `groupOf`.
-/

namespace FacesService

variable {K : Type} [Arithmetic K] {pf : Platform K} {threshold : K}

/-! ### Sorting -/

theorem sortDesc_pairwise {α : Type} (key : α → K) (l : List α) :
    (sortDesc key l).Pairwise fun a b => key b ≤ key a := by
  have : Std.Total fun a b : α => key b ≤ key a := ⟨fun a b => le_total _ _⟩
  have : IsTrans α fun a b => key b ≤ key a := ⟨fun _ _ _ h h' => le_trans h' h⟩
  exact List.pairwise_insertionSort _ l

theorem sortDesc_perm {α β : Type} [LinearOrder β] (key : α → β) (l : List α) :
    (sortDesc key l).Perm l :=
  List.perm_insertionSort _ l

/-- The maximum of a sorted list is its first entry. -/
theorem head?_eq_max? {l : List K} (h : l.Pairwise fun a b => b ≤ a) : l.max? = l.head? := by
  cases l with
  | nil => rfl
  | cons a l =>
      rw [List.head?_cons, List.max?_eq_some_iff]
      exact ⟨List.mem_cons_self, List.forall_mem_cons.mpr ⟨le_refl a, (List.pairwise_cons.mp h).1⟩⟩

/-! ### One group -/

section Group

variable {rows : List (Cluster K)} {clique : List (Fin rows.length)} {rep : Fin rows.length}

theorem mem_groupOf_members {m : Member K} :
    m ∈ (groupOf pf rows clique rep).members ↔
      ∃ k ∈ clique, k ≠ rep ∧ m = ⟨rows.get k, similarity pf (rows.get rep) (rows.get k)⟩ := by
  rw [groupOf, (sortDesc_perm _ _).mem_iff]
  simp only [List.mem_map, List.mem_filter, decide_eq_true_eq, and_assoc]
  simp only [eq_comm]

/-- A group is its clique, the representative first. -/
theorem groupOf_clusters_perm (hnodup : clique.Nodup) (hrep : rep ∈ clique) :
    (groupOf pf rows clique rep).clusters.Perm (clique.map rows.get) := by
  have hmembers : ((groupOf pf rows clique rep).members.map (·.cluster)).Perm
      ((clique.filter (· ≠ rep)).map rows.get) := by
    refine ((sortDesc_perm _ _).map _).trans (.of_eq ?_)
    rw [List.map_map]
    rfl
  have hclique : (rep :: clique.filter (· ≠ rep)).Perm clique := by
    have hfilter : clique.filter (· ≠ rep) = clique.erase rep := by
      rw [hnodup.erase_eq_filter]
      exact List.filter_congr fun k _ => by rw [bne, decide_not, beq_eq_decide]
    rw [hfilter]
    exact (List.perm_cons_erase hrep).symm
  exact (hmembers.cons _).trans (hclique.map rows.get)

theorem groupOf_sorted :
    (groupOf pf rows clique rep).members.Pairwise fun m m' => m'.sim ≤ m.sim :=
  sortDesc_pairwise _ _

theorem groupOf_maxSim (h : (groupOf pf rows clique rep).members ≠ []) :
    (groupOf pf rows clique rep).members.head?.map (·.sim) =
      some (groupOf pf rows clique rep).maxSim := by
  have hsorted : ((groupOf pf rows clique rep).members.map (·.sim)).Pairwise fun a b => b ≤ a :=
    List.pairwise_map.mpr groupOf_sorted
  have hmax : (groupOf pf rows clique rep).maxSim =
      ((groupOf pf rows clique rep).members.map (·.sim)).max?.getD 0 := rfl
  rw [hmax, head?_eq_max? hsorted, List.head?_map]
  cases hm : (groupOf pf rows clique rep).members with
  | nil => exact absurd hm h
  | cons m l => rfl

/-- A clique of two or more leaves the representative a member. -/
theorem groupOf_members_ne_nil (hnodup : clique.Nodup) (hlen : 2 ≤ clique.length) :
    (groupOf pf rows clique rep).members ≠ [] := by
  obtain ⟨k, hk, hne⟩ : ∃ k ∈ clique, k ≠ rep := by
    by_contra hall
    push Not at hall
    have hsub : clique ⊆ [rep] := fun k hk => List.mem_singleton.mpr (hall k hk)
    have := (List.subperm_of_subset hnodup hsub).length_le
    rw [List.length_singleton] at this
    omega
  exact List.ne_nil_of_mem (mem_groupOf_members.mpr ⟨k, hk, hne, rfl⟩)

end Group

/-! ### The result -/

/-- A group of the result comes from a clique of the cover and one of its
members, chosen by `repKey`. -/
structure FromClique (pf : Platform K) (threshold : K) (rows : List (Cluster K))
    (order clique : List (Fin rows.length)) (rep : Fin rows.length) : Prop where
  mem : clique ∈ (similarityCover pf threshold rows).cover order []
  chosen : clique.argmax (repKey rows) = some rep

omit [Arithmetic K] in
/-- The order of `repKey`: named before anonymous, then by samples. -/
theorem repKey_le_repKey {rows : List (Cluster K)} {k l : Fin rows.length} :
    repKey rows k ≤ repKey rows l ↔
      ((rows.get k).isNamed = false ∧ (rows.get l).isNamed = true) ∨
        ((rows.get k).isNamed = (rows.get l).isNamed ∧
          (rows.get k).sampleCount ≤ (rows.get l).sampleCount) := by
  rw [repKey, repKey, Prod.Lex.toLex_le_toLex, Bool.lt_iff]

theorem FromClique.rep_mem {rows : List (Cluster K)} {order clique : List (Fin rows.length)}
    {rep : Fin rows.length} (h : FromClique pf threshold rows order clique rep) : rep ∈ clique :=
  List.argmax_mem h.chosen

theorem FromClique.isClique {rows : List (Cluster K)} {order clique : List (Fin rows.length)}
    {rep : Fin rows.length} (h : FromClique pf threshold rows order clique rep) :
    (similarityCover pf threshold rows).IsClique clique ∧ 2 ≤ clique.length := by
  obtain ⟨hlen, i, -, assigned, -, -, rfl⟩ := CliqueCover.mem_cover h.mem
  exact ⟨CliqueCover.cliqueAt_isClique (List.nodup_finRange _) assigned i, hlen⟩

/-- The clusters of a group are those of its clique. -/
theorem FromClique.mem_clusters {rows : List (Cluster K)} {order clique : List (Fin rows.length)}
    {rep : Fin rows.length} (h : FromClique pf threshold rows order clique rep) {c : Cluster K} :
    c ∈ (groupOf pf rows clique rep).clusters ↔ ∃ k ∈ clique, rows.get k = c := by
  rw [(groupOf_clusters_perm h.isClique.1.nodup h.rep_mem).mem_iff, List.mem_map]

/-- What the function returns when it returns: the sorted groups of all cliques
of the cover, the seeds being all rows in some order. -/
theorem buildSimilarityGroups_ok {clusters : List (Cluster K)} {groups : List (Group K)}
    (h : buildSimilarityGroups pf clusters threshold = .ok groups) :
    ∃ order, (∀ i, 2 ≤ (withCentroid clusters).length → i ∈ order) ∧
      groups.Perm (groupsOf pf threshold (withCentroid clusters) order) ∧
      groups.Pairwise fun g g' => g'.maxSim ≤ g.maxSim := by
  unfold buildSimilarityGroups at h
  simp only at h
  split at h
  · rename_i hlen
    cases h
    exact ⟨[], fun i hi => absurd hlen (Nat.not_lt.mpr hi), .refl _, .nil⟩
  · split at h
    · cases h
      refine ⟨_, fun i _ => ?_, sortDesc_perm _ _, sortDesc_pairwise _ _⟩
      exact (sortDesc_perm _ _).mem_iff.mpr (List.mem_finRange i)
    · cases h

/-- Vectors of one length are all it takes to return. -/
theorem buildSimilarityGroups_returns {clusters : List (Cluster K)}
    (h : Stackable (withCentroid clusters)) :
    ∃ groups, buildSimilarityGroups pf clusters threshold = .ok groups := by
  unfold buildSimilarityGroups
  simp only
  rw [if_pos h]
  split
  · exact ⟨_, rfl⟩
  · exact ⟨_, rfl⟩

section Result

variable {clusters : List (Cluster K)} {groups : List (Group K)}
  {order : List (Fin (withCentroid clusters).length)}

theorem fromClique_of_mem
    (hperm : groups.Perm (groupsOf pf threshold (withCentroid clusters) order)) {g : Group K}
    (hg : g ∈ groups) :
    ∃ clique rep, FromClique pf threshold (withCentroid clusters) order clique rep ∧
      g = groupOf pf (withCentroid clusters) clique rep := by
  obtain ⟨clique, hclique, hmap⟩ := List.mem_filterMap.mp (hperm.mem_iff.mp hg)
  obtain ⟨rep, hrep, rfl⟩ := Option.map_eq_some_iff.mp hmap
  exact ⟨clique, rep, ⟨hclique, hrep⟩, rfl⟩

/-- No clique of the cover is lost on the way to the groups. -/
theorem mem_of_clique
    (hperm : groups.Perm (groupsOf pf threshold (withCentroid clusters) order))
    {clique : List (Fin (withCentroid clusters).length)}
    (hclique : clique ∈ (similarityCover pf threshold (withCentroid clusters)).cover order []) :
    ∃ rep, FromClique pf threshold (withCentroid clusters) order clique rep ∧
      groupOf pf (withCentroid clusters) clique rep ∈ groups := by
  cases hrep : clique.argmax (repKey (withCentroid clusters)) with
  | none =>
      have hlen := (CliqueCover.mem_cover hclique).1
      rw [List.argmax_eq_none.mp hrep] at hlen
      simp at hlen
  | some rep =>
      refine ⟨rep, ⟨hclique, hrep⟩, hperm.mem_iff.mpr ?_⟩
      exact List.mem_filterMap.mpr ⟨clique, hclique, by rw [hrep]; rfl⟩

omit [Arithmetic K] in
theorem mem_withCentroid {c : Cluster K} :
    c ∈ withCentroid clusters ↔ c ∈ clusters ∧ c.centroid ≠ [] := by
  simp [withCentroid]

omit [Arithmetic K] in
theorem get_withCentroid_inj (hids : (clusters.map (·.id)).Nodup)
    {i j : Fin (withCentroid clusters).length}
    (h : ((withCentroid clusters).get i).id = ((withCentroid clusters).get j).id) : i = j := by
  have hrows : ((withCentroid clusters).map (·.id)).Nodup :=
    hids.sublist (List.filter_sublist.map _)
  have heq : (withCentroid clusters).get i = (withCentroid clusters).get j :=
    List.inj_on_of_nodup_map hrows (List.get_mem _ i) (List.get_mem _ j) h
  exact (List.nodup_iff_injective_get.mp hrows.of_map) heq

end Result

end FacesService
