import Mathlib.Data.List.Nodup
import Mathlib.Data.List.Perm.Basic
import Mathlib.Data.List.Pairwise

/-!
Greedy cliques. Items are grouped by a symmetric adjacency: a seed offers its
free neighbours in some arrangement, and each joins if it is adjacent to
everything that joined before it. Some items are *exclusive*: a clique holds at
most one of them. A clique of one item is dropped, and its seed stays free.

Soundness is an invariant of the inner loop (`grow`) and disjointness one of
the outer loop (`cover`). Completeness rests on one fact about the inner loop,
`grow_left_out`: whoever was offered and did not join was kept out either by
the exclusive rule or by a member it is not adjacent to.
-/

/-- The data a greedy cover is computed from. -/
structure CliqueCover (ι : Type) where
  items : List ι
  adj : ι → ι → Bool
  symm : ∀ i j, adj i j = adj j i
  exclusive : ι → Bool
  /-- the order in which a seed offers its neighbours -/
  arrange : ι → List ι → List ι
  arrange_perm : ∀ i l, (arrange i l).Perm l

namespace CliqueCover

variable {ι : Type} (G : CliqueCover ι)

/-- The inner loop: offer each candidate in turn to the clique. -/
def grow (clique : List ι) : List ι → List ι
  | [] => clique
  | c :: rest =>
      if G.exclusive c && clique.any G.exclusive then grow clique rest
      else if clique.all (G.adj c) then grow (clique ++ [c]) rest
      else grow clique rest

variable {G}

/-! ### The inner loop -/

/-- Nobody leaves a clique, and whoever joins was a candidate. -/
theorem grow_eq_append (clique cands : List ι) :
    ∃ joined, G.grow clique cands = clique ++ joined ∧ joined.Sublist cands := by
  induction cands generalizing clique with
  | nil => exact ⟨[], by simp [grow], .slnil⟩
  | cons c rest ih =>
      unfold grow
      split
      · obtain ⟨joined, heq, hsub⟩ := ih clique
        exact ⟨joined, heq, hsub.cons c⟩
      · split
        · obtain ⟨joined, heq, hsub⟩ := ih (clique ++ [c])
          exact ⟨c :: joined, by rw [heq, List.append_assoc]; rfl, hsub.cons_cons c⟩
        · obtain ⟨joined, heq, hsub⟩ := ih clique
          exact ⟨joined, heq, hsub.cons c⟩

theorem subset_grow (clique cands : List ι) : clique ⊆ G.grow clique cands := by
  obtain ⟨joined, heq, -⟩ := @grow_eq_append ι G clique cands
  rw [heq]
  exact List.subset_append_left _ _

/-- Every later member is adjacent to every earlier one. -/
theorem grow_pairwise {clique : List ι} (h : clique.Pairwise fun m c => G.adj c m)
    (cands : List ι) : (G.grow clique cands).Pairwise fun m c => G.adj c m := by
  induction cands generalizing clique with
  | nil => exact h
  | cons c rest ih =>
      unfold grow
      split
      · exact ih h
      · split
        · rename_i hall
          refine ih (List.pairwise_append.mpr ⟨h, by simp, fun m hm c' hc' => ?_⟩)
          rw [List.mem_singleton.mp hc']
          exact List.all_eq_true.mp hall m hm
        · exact ih h

/-- At most one exclusive member. -/
theorem grow_exclusive {clique : List ι} (h : (clique.filter G.exclusive).length ≤ 1)
    (cands : List ι) : ((G.grow clique cands).filter G.exclusive).length ≤ 1 := by
  induction cands generalizing clique with
  | nil => exact h
  | cons c rest ih =>
      unfold grow
      split
      · exact ih h
      · rename_i hexcl
        split
        · refine ih ?_
          rw [List.filter_append, List.length_append]
          cases hc : G.exclusive c with
          | false => simpa [hc] using h
          | true =>
              have hnone : clique.filter G.exclusive = [] := by
                refine List.filter_eq_nil_iff.mpr fun m hm hm' => hexcl ?_
                simp only [hc, Bool.true_and, List.any_eq_true]
                exact ⟨m, hm, hm'⟩
              simp [hnone, hc]
        · exact ih h

/-- **Why a candidate stays out**: it is exclusive and so is a member, or
some member is not adjacent to it. -/
theorem grow_left_out {clique cands : List ι} {x : ι} (hx : x ∈ cands)
    (hout : x ∉ G.grow clique cands) :
    (G.exclusive x ∧ ∃ m ∈ G.grow clique cands, G.exclusive m) ∨
      ∃ m ∈ G.grow clique cands, G.adj x m = false := by
  induction cands generalizing clique with
  | nil => cases hx
  | cons c rest ih =>
      unfold grow at hout ⊢
      rcases List.mem_cons.mp hx with rfl | hx
      · split
        · rename_i hexcl
          simp only [Bool.and_eq_true, List.any_eq_true] at hexcl
          obtain ⟨hxe, m, hm, hme⟩ := hexcl
          exact .inl ⟨hxe, m, subset_grow _ _ hm, hme⟩
        · split
          · rename_i hexcl hall
            rw [if_neg hexcl, if_pos hall] at hout
            exact absurd (subset_grow _ _ (by simp)) hout
          · rename_i hall
            simp only [List.all_eq_true, not_forall, Bool.not_eq_true] at hall
            obtain ⟨m, hm, hadj⟩ := hall
            exact .inr ⟨m, subset_grow _ _ hm, hadj⟩
      · split at hout
        · rename_i hexcl
          rw [if_pos hexcl]
          exact ih hx hout
        · rename_i hexcl
          rw [if_neg hexcl]
          split at hout
          · rename_i hall
            rw [if_pos hall]
            exact ih hx hout
          · rename_i hall
            rw [if_neg hall]
            exact ih hx hout

/-! ### One clique -/

variable [DecidableEq ι]

variable (G) in
/-- The clique a seed grows from the items that are still free. -/
def cliqueAt (assigned : List ι) (i : ι) : List ι :=
  G.grow [i] (G.arrange i (G.items.filter fun j => G.adj i j && i ≠ j && j ∉ assigned))

variable (G) in
/-- The outer loop: the seeds in order, with the items assigned so far. -/
def cover : List ι → List ι → List (List ι)
  | [], _ => []
  | i :: order, assigned =>
      if i ∈ assigned ∨ (G.cliqueAt assigned i).length < 2 then cover order assigned
      else G.cliqueAt assigned i :: cover order (G.cliqueAt assigned i ++ assigned)

/-- The neighbours a seed offers. -/
theorem mem_offered {assigned : List ι} {i j : ι} :
    j ∈ G.arrange i (G.items.filter fun j => G.adj i j && i ≠ j && j ∉ assigned) ↔
      j ∈ G.items ∧ G.adj i j ∧ i ≠ j ∧ j ∉ assigned := by
  rw [(G.arrange_perm i _).mem_iff, List.mem_filter]
  simp [and_assoc]

structure IsClique (G : CliqueCover ι) (clique : List ι) : Prop where
  nodup : clique.Nodup
  adj : ∀ a ∈ clique, ∀ b ∈ clique, a ≠ b → G.adj a b
  exclusive : (clique.filter G.exclusive).length ≤ 1

theorem mem_cliqueAt {assigned : List ι} {i j : ι} (h : j ∈ G.cliqueAt assigned i) :
    j = i ∨ (j ∈ G.items ∧ j ∉ assigned) := by
  obtain ⟨joined, heq, hsub⟩ := @grow_eq_append ι G [i]
    (G.arrange i (G.items.filter fun j => G.adj i j && i ≠ j && j ∉ assigned))
  rw [cliqueAt, heq, List.singleton_append, List.mem_cons] at h
  rcases h with rfl | h
  · exact .inl rfl
  · obtain ⟨hitems, -, -, hfree⟩ := mem_offered.mp (hsub.subset h)
    exact .inr ⟨hitems, hfree⟩

theorem seed_mem_cliqueAt (assigned : List ι) (i : ι) : i ∈ G.cliqueAt assigned i :=
  subset_grow _ _ (by simp)

theorem cliqueAt_isClique (hitems : G.items.Nodup) (assigned : List ι) (i : ι) :
    G.IsClique (G.cliqueAt assigned i) where
  nodup := by
    obtain ⟨joined, heq, hsub⟩ := @grow_eq_append ι G [i]
      (G.arrange i (G.items.filter fun j => G.adj i j && i ≠ j && j ∉ assigned))
    rw [cliqueAt, heq, List.singleton_append, List.nodup_cons]
    constructor
    · intro hi
      exact (mem_offered.mp (hsub.subset hi)).2.2.1 rfl
    · exact hsub.nodup ((G.arrange_perm i _).nodup_iff.mpr (hitems.filter _))
  adj := by
    intro a ha b hb hne
    have hpair : (G.cliqueAt assigned i).Pairwise fun m c => G.adj c m :=
      grow_pairwise (by simp) _
    have : Std.Symm fun m c => G.adj c m = true := ⟨fun m c h => by rwa [G.symm]⟩
    rw [G.symm]
    exact hpair.forall ha hb hne
  exclusive := grow_exclusive (List.length_filter_le _ _) _

/-! ### The cover -/

variable (G) in
/-- A seed that is taken, or whose clique is itself alone, adds nothing. -/
theorem cover_skip {i : ι} {order assigned : List ι}
    (h : i ∈ assigned ∨ (G.cliqueAt assigned i).length < 2) :
    G.cover (i :: order) assigned = G.cover order assigned := by
  rw [cover, if_pos h]

variable (G) in
theorem cover_take {i : ι} {order assigned : List ι}
    (h : ¬ (i ∈ assigned ∨ (G.cliqueAt assigned i).length < 2)) :
    G.cover (i :: order) assigned =
      G.cliqueAt assigned i :: G.cover order (G.cliqueAt assigned i ++ assigned) := by
  rw [cover, if_neg h]

/-- A group of the cover was grown from a free seed, at a moment when at
least the given items were assigned. -/
theorem mem_cover {order assigned clique : List ι} (h : clique ∈ G.cover order assigned) :
    2 ≤ clique.length ∧ ∃ i ∈ order, ∃ assigned', assigned ⊆ assigned' ∧ i ∉ assigned' ∧
      clique = G.cliqueAt assigned' i := by
  induction order generalizing assigned with
  | nil => cases h
  | cons i order ih =>
      by_cases hskip : i ∈ assigned ∨ (G.cliqueAt assigned i).length < 2
      · rw [cover_skip G hskip] at h
        obtain ⟨hlen, j, hj, assigned', hsub, hrest⟩ := ih h
        exact ⟨hlen, j, by simp [hj], assigned', hsub, hrest⟩
      · rw [cover_take G hskip] at h
        rw [not_or, Nat.not_lt] at hskip
        rcases List.mem_cons.mp h with rfl | h
        · exact ⟨hskip.2, i, by simp, assigned, List.Subset.refl _, hskip.1, rfl⟩
        · obtain ⟨hlen, j, hj, assigned', hsub, hrest⟩ := ih h
          exact ⟨hlen, j, by simp [hj], assigned',
            List.Subset.trans (List.subset_append_right _ _) hsub, hrest⟩

/-- Groups are made of free items. -/
theorem mem_cover_free {order assigned clique : List ι} (h : clique ∈ G.cover order assigned) :
    ∀ x ∈ clique, x ∉ assigned := by
  obtain ⟨-, i, -, assigned', hsub, hi, rfl⟩ := mem_cover h
  intro x hx hassigned
  rcases mem_cliqueAt hx with rfl | ⟨-, hfree⟩
  · exact hi (hsub hassigned)
  · exact hfree (hsub hassigned)

theorem cover_disjoint (order assigned : List ι) :
    (G.cover order assigned).Pairwise List.Disjoint := by
  induction order generalizing assigned with
  | nil => exact .nil
  | cons i order ih =>
      by_cases hskip : i ∈ assigned ∨ (G.cliqueAt assigned i).length < 2
      · rw [cover_skip G hskip]
        exact ih assigned
      · rw [cover_take G hskip]
        refine List.pairwise_cons.mpr ⟨fun clique hclique x hx hx' => ?_, ih _⟩
        exact mem_cover_free hclique x hx' (List.mem_append_left _ hx)

/-! ### Items left out -/

/-- The item is free at the end. -/
def LeftOut (G : CliqueCover ι) (order assigned : List ι) (x : ι) : Prop :=
  x ∉ assigned ∧ ∀ clique ∈ G.cover order assigned, x ∉ clique

theorem LeftOut.of_skip {i x : ι} {order assigned : List ι}
    (hskip : i ∈ assigned ∨ (G.cliqueAt assigned i).length < 2)
    (h : G.LeftOut (i :: order) assigned x) : G.LeftOut order assigned x := by
  rw [LeftOut, cover_skip G hskip] at h
  exact h

/-- An item free at the end was not in the clique taken first, and was free
when the rest of the seeds were tried. -/
theorem LeftOut.of_take {i x : ι} {order assigned : List ι}
    (htake : ¬ (i ∈ assigned ∨ (G.cliqueAt assigned i).length < 2))
    (h : G.LeftOut (i :: order) assigned x) :
    x ∉ G.cliqueAt assigned i ∧ G.LeftOut order (G.cliqueAt assigned i ++ assigned) x := by
  rw [LeftOut, cover_take G htake] at h
  have hx : x ∉ G.cliqueAt assigned i := h.2 _ List.mem_cons_self
  refine ⟨hx, ?_, fun clique hclique => h.2 clique (List.mem_cons_of_mem _ hclique)⟩
  rw [List.mem_append, not_or]
  exact ⟨hx, h.1⟩

/-- An item adjacent to the seed and free, that the seed's clique left out. -/
theorem cliqueAt_left_out {assigned : List ι} {i x : ι} (hx : x ∈ G.items) (hadj : G.adj i x)
    (hfree : x ∉ assigned) (hout : x ∉ G.cliqueAt assigned i) :
    (G.exclusive x ∧ ∃ m ∈ G.cliqueAt assigned i, G.exclusive m) ∨
      ∃ m ∈ G.cliqueAt assigned i, G.adj x m = false := by
  have hne : i ≠ x := fun heq => hout (heq ▸ seed_mem_cliqueAt assigned i)
  exact grow_left_out (mem_offered.mpr ⟨hx, hadj, hne, hfree⟩) hout

/-- A clique of fewer than two items is its seed. -/
theorem eq_seed_of_alone {assigned : List ι} {i m : ι}
    (halone : (G.cliqueAt assigned i).length < 2) (hm : m ∈ G.cliqueAt assigned i) : m = i := by
  obtain ⟨joined, heq, -⟩ := @grow_eq_append ι G [i]
    (G.arrange i (G.items.filter fun j => G.adj i j && i ≠ j && j ∉ assigned))
  rw [← cliqueAt] at heq
  rw [heq, List.singleton_append, List.length_cons] at halone
  have hnil : joined = [] := List.length_eq_zero_iff.mp (by omega)
  rw [heq, hnil] at hm
  simpa using hm

/-- **Completeness.** Two different items left out are adjacent only if both
are exclusive: the first of them to be a seed would have taken the other. -/
theorem cover_complete {order assigned : List ι} {u v : ι} (hu : u ∈ order) (hv : v ∈ G.items)
    (hne : u ≠ v) (hadj : G.adj u v) (hleftu : G.LeftOut order assigned u)
    (hleftv : G.LeftOut order assigned v) : G.exclusive u ∧ G.exclusive v := by
  induction order generalizing assigned with
  | nil => cases hu
  | cons i order ih =>
      by_cases hskip : i ∈ assigned ∨ (G.cliqueAt assigned i).length < 2
      · by_cases hiu : i = u
        · -- the seed was free, so its clique was dropped for being alone
          subst hiu
          have halone : (G.cliqueAt assigned i).length < 2 := hskip.resolve_left hleftu.1
          have hout : v ∉ G.cliqueAt assigned i :=
            fun hmem => hne (eq_seed_of_alone halone hmem).symm
          rcases cliqueAt_left_out hv hadj hleftv.1 hout with ⟨hve, m, hm, hme⟩ | ⟨m, hm, hno⟩
          · exact ⟨eq_seed_of_alone halone hm ▸ hme, hve⟩
          · rw [eq_seed_of_alone halone hm, G.symm, hadj] at hno
            cases hno
        · have hu' : u ∈ order := (List.mem_cons.mp hu).resolve_left (Ne.symm hiu)
          exact ih hu' (hleftu.of_skip hskip) (hleftv.of_skip hskip)
      · obtain ⟨hout, hleftu'⟩ := hleftu.of_take hskip
        have hu' : u ∈ order := by
          rcases List.mem_cons.mp hu with rfl | hu'
          · exact absurd (seed_mem_cliqueAt assigned u) hout
          · exact hu'
        exact ih hu' hleftu' (hleftv.of_take hskip).2

/-- **Maximality.** An item left out is adjacent to a whole group only if it is
exclusive and the group has an exclusive member. -/
theorem cover_maximal {order assigned clique : List ι} {x : ι} (hx : x ∈ G.items)
    (hclique : clique ∈ G.cover order assigned) (hadj : ∀ m ∈ clique, G.adj x m)
    (hleft : G.LeftOut order assigned x) : G.exclusive x ∧ ∃ m ∈ clique, G.exclusive m := by
  induction order generalizing assigned with
  | nil => cases hclique
  | cons i order ih =>
      by_cases hskip : i ∈ assigned ∨ (G.cliqueAt assigned i).length < 2
      · rw [cover_skip G hskip] at hclique
        exact ih hclique (hleft.of_skip hskip)
      · obtain ⟨hout, hleft'⟩ := hleft.of_take hskip
        rw [cover_take G hskip] at hclique
        rcases List.mem_cons.mp hclique with rfl | hclique
        · have hseed : G.adj i x := by
            rw [G.symm]
            exact hadj i (seed_mem_cliqueAt assigned i)
          rcases cliqueAt_left_out hx hseed hleft.1 hout with hexcl | ⟨m, hm, hno⟩
          · exact hexcl
          · rw [hadj m hm] at hno
            cases hno
        · exact ih hclique hleft'

end CliqueCover
