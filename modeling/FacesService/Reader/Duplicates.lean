import FacesService.Reader.Steps
import FacesService.Store.Merge
import FacesService.Store.Invariant
import FacesService.Grouping.Guarantees

/-!
`merge_duplicate_groups`, the one bulk deletion nobody confirms. The groups are
read off one state of the tables and merged one after the other, each in a
transaction of its own that may fail.

The groups are disjoint and each is merged into its representative, which is its
named cluster if it has one. So whatever subset of the merges succeeds, they do
not disturb each other: what a run did is the sum of the merges that answered
(`Collapses`), and only anonymous duplicates are ever removed.
-/

namespace FacesService.Reader

open Prog Database Db Fallible

variable {K : Type} [Arithmetic K] {svc : Service K} {auth : AuthContext} {pf : Platform K}
  {oracle : Oracle}

/-! ### The groups -/

/-- The groups `merge_duplicate_groups` reads off the tables. -/
def duplicateGroups (pf : Platform K) (db : Database K) (userId : String) :
    Except PyError (List (Group K)) := do
  let clusters ← getClustersForOwner db userId
  let videos ← getClustersVideos db userId
  buildSimilarityGroups pf (withCentroid (withVideos clusters videos)) similarityThreshold

/-- Those it goes on to merge. -/
def exactGroups (pf : Platform K) (db : Database K) (userId : String) (minSimilarity : Option K) :
    List (Group K) :=
  match duplicateGroups pf db userId with
  | .error _ => []
  | .ok groups => selectExactDuplicateGroups groups (minSimilarity.getD exactDuplicateThreshold)

/-- The ids a merge of the group removes. -/
def groupSources (g : Group K) : List Uuid :=
  (g.clusters.map (·.id)).filter (· ≠ (groupTarget g).id)

/-- What the tables and the threshold make of a group that is to be merged. -/
structure Duplicate (pf : Platform K) (db : Database K) (userId : String) (threshold : K)
    (g : Group K) : Prop where
  ids : (g.clusters.map (·.id)).Nodup
  origin : ∀ c ∈ g.clusters, c ∈ db.clusters ∧ ∃ o ∈ db.occurrences, o.clusterId = c.id
  target : groupTarget g = g.rep
  anonymous : ∀ c ∈ g.clusters, c ≠ g.rep → c.isNamed = false
  similar : ∀ c ∈ g.clusters, c ≠ g.rep → threshold ≤ similarity pf g.rep c

omit [Arithmetic K] in
theorem groupTarget_mem (g : Group K) : groupTarget g ∈ g.clusters := by
  unfold groupTarget
  cases hfind : g.clusters.find? (·.isNamed) with
  | none => exact List.mem_cons_self
  | some c => exact List.mem_of_find?_eq_some hfind

omit [Arithmetic K] in
theorem mem_withVideos {clusters : List (Cluster K)} {videos : List (Uuid × List VideoCount)}
    {c : Cluster K} :
    c ∈ withVideos clusters videos ↔ c ∈ clusters ∧ c.id ∈ videos.map (·.1) := by
  simp [withVideos]

omit [Arithmetic K] in
theorem getClustersVideos_ok {db : Database K} {userId : String}
    {videos : List (Uuid × List VideoCount)} (h : getClustersVideos db userId = .ok videos)
    {id : Uuid} (hid : id ∈ videos.map (·.1)) : ∃ o ∈ db.occurrences, o.clusterId = id := by
  obtain ⟨owner, -, h⟩ := bind_eq_ok.mp h
  cases h
  rw [List.map_map] at hid
  obtain ⟨id', hid', rfl⟩ := List.mem_map.mp hid
  obtain ⟨o, ho, rfl⟩ := List.mem_map.mp (List.mem_dedup.mp hid')
  exact ⟨o, (List.mem_filter.mp ho).1, rfl⟩

theorem duplicateGroups_ok {db : Database K} (hids : (db.clusters.map (·.id)).Nodup)
    {userId : String} {groups : List (Group K)} (h : duplicateGroups pf db userId = .ok groups) :
    ∃ clusters, buildSimilarityGroups pf clusters similarityThreshold = .ok groups ∧
      (clusters.map (·.id)).Nodup ∧
      ∀ c ∈ clusters, c ∈ db.clusters ∧ ∃ o ∈ db.occurrences, o.clusterId = c.id := by
  obtain ⟨rows, hrows, h⟩ := bind_eq_ok.mp h
  obtain ⟨videos, hvideos, h⟩ := bind_eq_ok.mp h
  obtain ⟨owner, -, hperm⟩ := getClustersForOwner_ok hrows
  have hrowIds : (rows.map (·.id)).Nodup :=
    (hperm.map _).nodup_iff.mpr (hids.sublist (List.filter_sublist.map _))
  refine ⟨_, h, hrowIds.sublist ((List.filter_sublist.trans List.filter_sublist).map _),
    fun c hc => ?_⟩
  obtain ⟨hc, hid⟩ := mem_withVideos.mp (mem_withCentroid.mp hc).1
  exact ⟨(List.mem_filter.mp (hperm.mem_iff.mp hc)).1, getClustersVideos_ok hvideos hid⟩

theorem exactGroups_duplicate {db : Database K} (hids : (db.clusters.map (·.id)).Nodup)
    {userId : String} {minSimilarity : Option K} {g : Group K}
    (hg : g ∈ exactGroups pf db userId minSimilarity) :
    Duplicate pf db userId (minSimilarity.getD exactDuplicateThreshold) g := by
  unfold exactGroups at hg
  split at hg
  · cases hg
  · rename_i groups hgroups
    obtain ⟨clusters, hbuild, hnodup, horigin⟩ := duplicateGroups_ok hids hgroups
    rw [selectExactDuplicateGroups, List.mem_filter] at hg
    obtain ⟨hg, hexact⟩ := hg
    have hsound := group_sound hbuild hg
    refine ⟨group_ids_nodup hnodup hbuild hg, fun c hc => horigin c (hsound.origin c hc).1, ?_,
      fun c hc hne => ?_, fun c hc hne => ?_⟩
    · unfold groupTarget
      cases hfind : g.clusters.find? (·.isNamed) with
      | none => rfl
      | some c =>
          exact hsound.rep_named c (List.mem_of_find?_eq_some hfind) (List.find?_some hfind)
    · cases hnamed : c.isNamed with
      | false => rfl
      | true => exact absurd (hsound.rep_named c hc hnamed) hne
    · rcases List.mem_cons.mp hc with hc | hc
      · exact absurd hc hne
      · obtain ⟨m, hm, rfl⟩ := List.mem_map.mp hc
        rw [← hsound.sims m hm]
        simp only [Bool.and_eq_true, List.all_eq_true, decide_eq_true_eq] at hexact
        exact hexact.2 m hm

theorem exactGroups_apart {db : Database K} (hids : (db.clusters.map (·.id)).Nodup)
    (userId : String) (minSimilarity : Option K) :
    (exactGroups pf db userId minSimilarity).Pairwise Apart := by
  unfold exactGroups
  split
  · exact .nil
  · rename_i groups hgroups
    obtain ⟨clusters, hbuild, hnodup, -⟩ := duplicateGroups_ok hids hgroups
    exact (groups_apart hnodup hbuild).filter _

/-! ### One merge -/

/-- The transaction a group is merged in. -/
def mergeCall (userId : String) (g : Group K) : Call K :=
  .write (.mergeClusters userId (groupTarget g).id.text
    ((g.clusters.map (·.id.text)).filter (· ≠ (groupTarget g).id.text)))

/-- A call is answered as the service answers it, but any merge may raise and
roll back, or return `None`. -/
inductive Flaky (pf : Platform K) (oracle : Oracle) :
    (op : Call K) → World K → Except PyError op.Answer → World K → Prop
  | answered (op : Call K) (w : World K) :
      Flaky pf oracle op w (answer pf oracle op w).1 (answer pf oracle op w).2
  | raised (ownerId targetId : String) (sourceIds : List String) (e : PyError) (w : World K) :
      Flaky pf oracle (.write (.mergeClusters ownerId targetId sourceIds)) w (.error e)
        { w with calls := w.calls + 1 }
  | refused (ownerId targetId : String) (sourceIds : List String) (w : World K) :
      Flaky pf oracle (.write (.mergeClusters ownerId targetId sourceIds)) w (.ok none)
        { w with calls := w.calls + 1 }

/-- Nobody else writes. -/
def Alone (_ _ : World K) : Prop := False

/-- A run in which merges fail as they like. -/
abbrev FlakyRun {α : Type} (pf : Platform K) (oracle : Oracle) (p : Program K α) :
    World K → List (Event K) → Except PyError α → World K → Prop :=
  Runs Alone (Flaky pf oracle) p

omit [Arithmetic K] in
theorem alone_moves {w w' : World K} (h : Relation.ReflTransGen Alone w w') : w' = w := by
  cases h with
  | refl => rfl
  | tail _ hstep => exact hstep.elim

/-- A merge either answers and commits, or leaves the tables alone. -/
theorem flaky_merge {ownerId targetId : String} {sourceIds : List String} {w w' : World K}
    {r : Except PyError (Option Merged)}
    (h : Flaky pf oracle (.write (.mergeClusters ownerId targetId sourceIds)) w r w') :
    (w'.db = w.db ∧ ∀ m, r ≠ .ok (some m)) ∨
      ∃ now c m, mergeClusters pf now w.db ownerId targetId sourceIds = .ok c ∧
        c.result = some m ∧ r = .ok (some m) ∧ w'.db = c.db := by
  cases h with
  | raised => exact .inl ⟨rfl, fun m hm => by cases hm⟩
  | refused => exact .inl ⟨rfl, fun m hm => by cases hm⟩
  | answered =>
      have hexec := exec_perform (answer pf oracle)
        (.write (.mergeClusters ownerId targetId sourceIds)) w
      cases hr : (answer pf oracle (.write (.mergeClusters ownerId targetId sourceIds)) w).1 with
      | error e =>
          have hrun := write_error (hexec.trans (Prod.ext hr rfl))
          refine .inl ⟨?_, fun m hm => by cases hm⟩
          rw [answer_write_db, hrun]
      | ok result =>
          obtain ⟨c, hrun, hresult, hdb, -⟩ := write_ok (hexec.trans (Prod.ext hr rfl))
          cases result with
          | none =>
              refine .inl ⟨?_, fun m hm => by cases hm⟩
              rcases mergeClusters_ok hrun with rfl | ⟨_, _, _, _, -, -, -, rfl⟩
              · exact hdb
              · cases hresult
          | some m => exact .inr ⟨_, c, m, hrun, hresult, rfl, hdb⟩

theorem tryMerge_runs {ownerId targetId : String} {sourceIds : List String} {w w' : World K}
    {log : List (Event K)} {r : Except PyError (Option Merged)}
    (h : FlakyRun pf oracle (orElse (write (.mergeClusters ownerId targetId sourceIds)) none)
      w log r w') :
    (w'.db = w.db ∧ ∀ m, r ≠ .ok (some m)) ∨
      ∃ now c m, mergeClusters pf now w.db ownerId targetId sourceIds = .ok c ∧
        c.result = some m ∧ r = .ok (some m) ∧ w'.db = c.db ∧
        ∃ before after, ⟨.write (.mergeClusters ownerId targetId sourceIds), .ok (some m),
          before, after⟩ ∈ log := by
  rcases h.tryCatch_inv with ⟨a, hmerge, rfl⟩ | ⟨e, w₁, log₁, log₂, hmerge, hhandler, rfl⟩
  · obtain ⟨w₀, hmoves, hanswer, rfl⟩ := hmerge.perform_inv
    cases alone_moves hmoves
    rcases flaky_merge hanswer with hnone | ⟨now, c, m, hrun, hresult, hr, hdb⟩
    · exact .inl hnone
    · cases hr
      exact .inr ⟨now, c, m, hrun, hresult, rfl, hdb, _, _, List.mem_singleton.mpr rfl⟩
  · obtain ⟨w₀, hmoves, hanswer, rfl⟩ := hmerge.perform_inv
    cases alone_moves hmoves
    rcases flaky_merge hanswer with ⟨hdb, -⟩ | ⟨_, _, _, -, -, hr, -⟩
    · split at hhandler
      · cases hhandler
        exact .inl ⟨hdb, fun m hm => by cases hm⟩
      · cases hhandler
        exact .inl ⟨hdb, fun m hm => by cases hm⟩
    · cases hr

theorem flaky_purge {α : Type} {p : Program K α} (hp : p.Within Purge fun _ => True)
    {w w' : World K} {log : List (Event K)} {res : Except PyError α}
    (h : FlakyRun pf oracle p w log res w') : w'.db = w.db := by
  refine (h.preserves (I := fun v : World K => v.db = w.db) (fun _ _ hmove => hmove.elim) ?_ hp rfl).1
  intro op v r v' hop hans hdb
  cases hop with
  | crop ownerId clusterId =>
      cases hans
      exact hdb

/-- **One round**: the merge failed and nothing happened but a count, or it
answered and was counted. -/
theorem mergeGroup_runs {counts : MergeCounts} {g : Group K} {w w' : World K}
    {log : List (Event K)} {res : Except PyError MergeCounts}
    (h : FlakyRun pf oracle (mergeGroup svc auth counts g) w log res w') :
    (w'.db = w.db ∧ ∀ counts', res = .ok counts' →
        counts' = { counts with failures := counts.failures + 1 }) ∨
      ∃ now c m, mergeClusters pf now w.db auth.userId (groupTarget g).id.text
          ((g.clusters.map (·.id.text)).filter (· ≠ (groupTarget g).id.text)) = .ok c ∧
        c.result = some m ∧ w'.db = c.db ∧
        (∃ before after, ⟨mergeCall auth.userId g, .ok (some m), before, after⟩ ∈ log) ∧
        ∀ counts', res = .ok counts' → counts' = { counts with
          groupsMerged := counts.groupsMerged + 1
          clustersMerged := counts.clustersMerged + g.clusters.length } := by
  unfold mergeGroup at h
  rcases h.bind_inv with ⟨e, htry, rfl⟩ | ⟨result, w₁, log₁, log₂, htry, hrest, rfl⟩
  · rcases tryMerge_runs htry with ⟨hdb, -⟩ | ⟨_, _, _, -, -, ⟨⟩, -⟩
    exact .inl ⟨hdb, fun counts' hc => by cases hc⟩
  · rcases tryMerge_runs htry with ⟨hdb, hnone⟩ | ⟨now, c, m, hrun, hresult, ⟨⟩, hdb, before, after, hlog⟩
    · cases result with
      | some m => exact absurd rfl (hnone m)
      | none =>
          cases hrest
          refine .inl ⟨hdb, fun counts' hc => ?_⟩
          cases hc
          rfl
    · have hpurges := within_forM (fun cid => purgeCrop_within svc (E := fun _ => True)
        (fun _ hc => hc) trivial true auth.userId cid) m.deletedClusterIds
      refine .inr ⟨now, c, m, hrun, hresult, ?_,
        ⟨before, after, List.mem_append.mpr (.inl hlog)⟩, fun counts' hc => ?_⟩
      · exact (flaky_purge (within_bind hpurges fun _ => within_pure _) hrest).trans hdb
      · rcases hrest.bind_inv with ⟨e, -, hres⟩ | ⟨_, _, _, _, -, hret, -⟩
        · rw [hres] at hc
          cases hc
        · cases hret
          cases hc
          simp

/-! ### All merges -/

omit [Arithmetic K] in
theorem denoted_groupSources (g : Group K) :
    denoted ((g.clusters.map (·.id.text)).filter (· ≠ (groupTarget g).id.text)) =
      groupSources g := by
  unfold groupSources
  generalize g.clusters = rows
  induction rows with
  | nil => rfl
  | cons c rows ih =>
      by_cases hid : c.id = (groupTarget g).id
      · simpa [hid] using ih
      · simp only [List.map_cons, List.filter_cons, Uuid.text_inj, ne_eq, hid, not_false_eq_true,
          decide_true, if_true] at ih ⊢
        rw [denoted_cons (Uuid.castUuid_text c.id), ih]

omit [Arithmetic K] in
theorem target_not_mem_groupSources (g : Group K) : (groupTarget g).id ∉ groupSources g := by
  simp [groupSources]

/-- The merge of the group answered. -/
def MergeAnswered (userId : String) (log : List (Event K)) (g : Group K) : Prop :=
  ∃ m before after, ⟨mergeCall userId g, .ok (some m), before, after⟩ ∈ log

/-- What a merge of the group may have changed. -/
def groupTouched (g : Group K) : List Uuid := (groupTarget g).id :: groupSources g

/-- What a run of the loop over `gs` comes to: the merges of the groups in
`merged`, which are those that answered and were counted. -/
structure LoopRun (userId : String) (gs : List (Group K)) (counts : MergeCounts)
    (db db' : Database K) (log : List (Event K)) (res : Except PyError MergeCounts)
    (merged : List (Group K)) : Prop where
  sublist : merged.Sublist gs
  collapses : Collapses userId (merged.flatMap groupSources) (merged.flatMap groupTouched) db db'
  answered : ∀ g ∈ merged, MergeAnswered userId log g
  counted : ∀ counts', res = .ok counts' →
    counts'.groupsMerged = counts.groupsMerged + merged.length ∧
    counts'.clustersMerged = counts.clustersMerged + (merged.map (·.clusters.length)).sum

omit [Arithmetic K] in
theorem MergeAnswered.append {userId : String} {log : List (Event K)} {g : Group K}
    (h : MergeAnswered userId log g) (log' : List (Event K)) :
    MergeAnswered userId (log' ++ log) g := by
  obtain ⟨m, before, after, hmem⟩ := h
  exact ⟨m, before, after, List.mem_append.mpr (.inr hmem)⟩

omit [Arithmetic K] in
/-- A loop that ends in an error before its first merge. -/
theorem LoopRun.nothing {userId : String} {gs : List (Group K)} {counts : MergeCounts}
    {db db' : Database K} {log : List (Event K)} (hdb : db' = db) (e : PyError) :
    LoopRun userId gs counts db db' log (.error e) [] :=
  ⟨List.nil_sublist _, hdb ▸ .refl _ _, by simp, fun _ hc => by cases hc⟩

/-- **The loop**, by induction on the groups that are left. -/
theorem mergeGroups_runs {gs : List (Group K)} {counts : MergeCounts} {w w' : World K}
    {log : List (Event K)} {res : Except PyError MergeCounts} (hinv : StoreInvariant w.db)
    (h : FlakyRun pf oracle (gs.foldlM (mergeGroup svc auth) counts) w log res w') :
    ∃ merged, LoopRun auth.userId gs counts w.db w'.db log res merged := by
  induction gs generalizing counts w log with
  | nil =>
      cases h
      refine ⟨[], .slnil, .refl _ _, by simp, fun counts' hc => ?_⟩
      cases hc
      simp
  | cons g gs ih =>
      rw [List.foldlM_cons] at h
      have hstep : ∀ {now : ℕ} {c : Commit K (Option Merged)} {m : Merged},
          mergeClusters pf now w.db auth.userId (groupTarget g).id.text
            ((g.clusters.map (·.id.text)).filter (· ≠ (groupTarget g).id.text)) = .ok c →
          c.result = some m →
          Collapses auth.userId (groupSources g) (groupTouched g) w.db c.db := by
        intro now c m hrun hresult
        have hcollapses := mergeClusters_collapses hinv.toLinked hrun hresult
          (Uuid.castUuid_text _) (denoted_groupSources g ▸ target_not_mem_groupSources g)
        rw [denoted_groupSources] at hcollapses
        exact hcollapses
      rcases h.bind_inv with ⟨e, hround, rfl⟩ | ⟨counts₁, w₁, log₁, log₂, hround, hrest, rfl⟩
      · rcases mergeGroup_runs hround with ⟨hdb, -⟩ | ⟨now, c, m, hrun, hresult, hdb, hlog, -⟩
        · exact ⟨[], .nothing hdb e⟩
        · refine ⟨[g], by simp, by simpa [hdb] using hstep hrun hresult, ?_, fun _ hc => by cases hc⟩
          intro g' hg'
          rw [List.mem_singleton.mp hg']
          exact ⟨m, hlog⟩
      · rcases mergeGroup_runs hround with
          ⟨hdb, hcounts⟩ | ⟨now, c, m, hrun, hresult, hdb, ⟨before, after, hlog⟩, hcounts⟩
        · obtain ⟨merged, hmerged⟩ := ih (hdb ▸ hinv) hrest
          refine ⟨merged, hmerged.sublist.cons g, hdb ▸ hmerged.collapses,
            fun g' hg' => (hmerged.answered g' hg').append log₁, fun counts' hc => ?_⟩
          have hcounted := hmerged.counted counts' hc
          rw [hcounts counts₁ rfl] at hcounted
          exact hcounted
        · have hinv₁ : StoreInvariant w₁.db := hdb ▸ hinv.mergeClusters hrun
          obtain ⟨merged, hmerged⟩ := ih hinv₁ hrest
          refine ⟨g :: merged, hmerged.sublist.cons_cons g, ?_, ?_, fun counts' hc => ?_⟩
          · rw [List.flatMap_cons, List.flatMap_cons]
            exact (hdb ▸ hstep hrun hresult).trans hmerged.collapses
          · intro g' hg'
            rcases List.mem_cons.mp hg' with rfl | hg'
            · exact ⟨m, before, after, List.mem_append.mpr (.inl hlog)⟩
            · exact (hmerged.answered g' hg').append log₁
          · obtain ⟨hgroups, hclusters⟩ := hmerged.counted counts' hc
            rw [hcounts counts₁ rfl] at hgroups hclusters
            simp only [List.length_cons, List.map_cons, List.sum_cons] at hgroups hclusters ⊢
            omega

theorem flaky_query {q : Query K} {w w' : World K} {log : List (Event K)}
    {r : Except PyError q.Answer} (h : FlakyRun pf oracle (query q) w log r w') :
    r = q.run pf w.db ∧ w'.db = w.db := by
  obtain ⟨w₀, hmoves, hanswer, -⟩ := h.perform_inv
  cases alone_moves hmoves
  cases hanswer
  exact ⟨rfl, rfl⟩

/-- The endpoint is its loop over the groups of the state it started in. -/
theorem mergeDuplicateGroups_runs {minSimilarity : Option K} {w w' : World K} {log : List (Event K)}
    {res : Except PyError MergeCounts} (hinv : StoreInvariant w.db)
    (h : FlakyRun svc.pf oracle (mergeDuplicateGroups svc auth minSimilarity) w log res w') :
    ∃ merged, LoopRun auth.userId (exactGroups svc.pf w.db auth.userId minSimilarity) ⟨0, 0, 0⟩
      w.db w'.db log res merged := by
  unfold mergeDuplicateGroups at h
  rcases h.bind_inv with ⟨e, hquery, rfl⟩ | ⟨clusters, w₁, log₁, log₂, hquery₁, h₁, rfl⟩
  · exact ⟨[], .nothing (flaky_query hquery).2 e⟩
  obtain ⟨hclusters, hdb₁⟩ := flaky_query hquery₁
  rcases h₁.bind_inv with ⟨e, hquery, rfl⟩ | ⟨videos, w₂, log₃, log₄, hquery₂, h₂, rfl⟩
  · exact ⟨[], .nothing ((flaky_query hquery).2.trans hdb₁) e⟩
  obtain ⟨hvideos, hdb₂⟩ := flaky_query hquery₂
  rcases h₂.bind_inv with ⟨e, hlift, rfl⟩ | ⟨groups, w₃, log₅, log₆, hlift, hloop, rfl⟩
  · obtain ⟨-, rfl, -⟩ := hlift.lift_inv
    exact ⟨[], .nothing (hdb₂.trans hdb₁) e⟩
  obtain ⟨hgroups, rfl, rfl⟩ := hlift.lift_inv
  have hdb : w₃.db = w.db := hdb₂.trans hdb₁
  have hduplicates : duplicateGroups svc.pf w.db auth.userId = .ok groups := by
    rw [hdb₁] at hvideos
    exact bind_eq_ok.mpr ⟨clusters, hclusters.symm, bind_eq_ok.mpr ⟨videos, hvideos.symm, hgroups.symm⟩⟩
  obtain ⟨merged, hmerged⟩ := mergeGroups_runs (hdb ▸ hinv) hloop
  refine ⟨merged, ?_, hdb ▸ hmerged.collapses, fun g hg => ?_, hmerged.counted⟩
  · rw [exactGroups, hduplicates]
    exact hmerged.sublist
  · exact (((hmerged.answered g hg).append []).append log₃).append log₁

/-! ### Safety -/

/-- What merging duplicates may do to a person. -/
structure MergedSafely (pf : Platform K) (userId : String) (minSimilarity : Option K)
    (log : List (Event K)) (db db' : Database K) : Prop where
  named : ∀ c ∈ db.clusters, c.isNamed = true →
    ∃ c' ∈ db'.clusters, c'.id = c.id ∧ c'.isNamed = true ∧ c'.name = c.name
  removed : ∀ c ∈ removed db db', c.isNamed = false ∧ (∃ o ∈ db.occurrences, o.clusterId = c.id) ∧
    ∃ g ∈ exactGroups pf db userId minSimilarity, c ∈ g.clusters ∧
      minSimilarity.getD exactDuplicateThreshold ≤ similarity pf (groupTarget g) c ∧
      ∃ c' ∈ db'.clusters, c'.id = (groupTarget g).id
  total : (db'.occurrences.countP fun o => isMine userId o.ownerId) =
    db.occurrences.countP fun o => isMine userId o.ownerId
  kept : ∀ c ∈ db.clusters,
    (∀ g ∈ exactGroups pf db userId minSimilarity, c ∈ g.clusters → ¬ MergeAnswered userId log g) →
    c ∈ db'.clusters ∧ (db'.occurrences.filter fun o => o.clusterId = c.id) =
      db.occurrences.filter fun o => o.clusterId = c.id
  others : (db'.clusters.filter fun c => !isMine userId c.ownerId) =
    db.clusters.filter fun c => !isMine userId c.ownerId
  othersRows : (db'.occurrences.filter fun o => !isMine userId o.ownerId) =
    db.occurrences.filter fun o => !isMine userId o.ownerId

section Safety

variable {db db' : Database K} {userId : String} {minSimilarity : Option K} {merged : List (Group K)}
  {counts : MergeCounts} {log : List (Event K)} {res : Except PyError MergeCounts}

/-- A source of a merged group is a cluster of the group other than its
representative. -/
theorem LoopRun.of_mem_gone (hl : db.Linked)
    (h : LoopRun userId (exactGroups pf db userId minSimilarity) counts db db' log res merged)
    {c : Cluster K} (hc : c ∈ db.clusters) (hid : c.id ∈ merged.flatMap groupSources) :
    ∃ g ∈ merged, c ∈ g.clusters ∧ c ≠ g.rep := by
  obtain ⟨g, hg, hid⟩ := List.mem_flatMap.mp hid
  have hdup := exactGroups_duplicate hl.ids (h.sublist.subset hg)
  obtain ⟨hid, hne⟩ := List.mem_filter.mp hid
  obtain ⟨d, hd, hdid⟩ := List.mem_map.mp hid
  obtain rfl : d = c := hl.eq_of_id (hdup.origin d hd).1 hc hdid
  refine ⟨g, hg, hd, fun heq => ?_⟩
  rw [hdup.target, heq] at hne
  simp at hne

theorem LoopRun.apart (hl : db.Linked)
    (h : LoopRun userId (exactGroups pf db userId minSimilarity) counts db db' log res merged)
    {g g' : Group K} (hg : g ∈ merged) (hg' : g' ∈ merged) (hne : g ≠ g') : Apart g g' := by
  have hpair : merged.Pairwise Apart :=
    (exactGroups_apart hl.ids userId minSimilarity).sublist h.sublist
  have hsymm : Std.Symm (Apart (K := K)) :=
    ⟨fun g g' hap c hc d hd heq => hap d hd c hc heq.symm⟩
  exact hpair.forall hg hg' hne

/-- No merge removes the target of another, nor its own. -/
theorem LoopRun.target_kept (hl : db.Linked)
    (h : LoopRun userId (exactGroups pf db userId minSimilarity) counts db db' log res merged)
    {g : Group K} (hg : g ∈ merged) : (groupTarget g).id ∉ merged.flatMap groupSources := by
  intro hid
  obtain ⟨g', hg', hid⟩ := List.mem_flatMap.mp hid
  by_cases hne : g = g'
  · exact target_not_mem_groupSources g (hne ▸ hid)
  · obtain ⟨d, hd, hdid⟩ := List.mem_map.mp (List.mem_filter.mp hid).1
    exact h.apart hl hg hg' hne _ (groupTarget_mem g) d hd hdid.symm

theorem LoopRun.gone_nodup (hl : db.Linked)
    (h : LoopRun userId (exactGroups pf db userId minSimilarity) counts db db' log res merged) :
    (merged.flatMap groupSources).Nodup := by
  refine List.nodup_flatMap.mpr ⟨fun g hg => ?_, ?_⟩
  · exact (exactGroups_duplicate hl.ids (h.sublist.subset hg)).ids.filter _
  · refine ((exactGroups_apart hl.ids userId minSimilarity).sublist h.sublist).imp ?_
    intro g g' hap id hid hid'
    obtain ⟨c, hc, rfl⟩ := List.mem_map.mp (List.mem_filter.mp hid).1
    obtain ⟨d, hd, hdid⟩ := List.mem_map.mp (List.mem_filter.mp hid').1
    exact hap c hc d hd hdid.symm

omit [Arithmetic K] in
/-- A merge of a group removes all its clusters but one. -/
theorem length_groupSources {g : Group K} (h : (g.clusters.map (·.id)).Nodup) :
    g.clusters.length = (groupSources g).length + 1 := by
  have htarget : (groupTarget g).id ∈ g.clusters.map (·.id) := List.mem_map_of_mem (groupTarget_mem g)
  have herase : groupSources g = (g.clusters.map (·.id)).erase (groupTarget g).id := by
    rw [groupSources, h.erase_eq_filter]
    exact List.filter_congr fun id _ => by rw [bne, decide_not, beq_eq_decide]
  have hpos := List.length_pos_of_mem htarget
  rw [herase, List.length_erase_of_mem htarget]
  rw [List.length_map] at hpos ⊢
  omega

theorem LoopRun.length_gone (hl : db.Linked)
    (h : LoopRun userId (exactGroups pf db userId minSimilarity) counts db db' log res merged) :
    (merged.map (·.clusters.length)).sum = merged.length + (merged.flatMap groupSources).length := by
  have hids : ∀ g ∈ merged, (g.clusters.map (·.id)).Nodup := fun g hg =>
    (exactGroups_duplicate hl.ids (h.sublist.subset hg)).ids
  clear h
  induction merged with
  | nil => rfl
  | cons g merged ih =>
      have ih := ih fun g hg => hids g (List.mem_cons_of_mem _ hg)
      have hlen := length_groupSources (hids g List.mem_cons_self)
      simp only [List.map_cons, List.sum_cons, List.length_cons, List.flatMap_cons, List.length_append]
      omega

theorem LoopRun.safe (hl : db.Linked)
    (h : LoopRun userId (exactGroups pf db userId minSimilarity) counts db db' log res merged) :
    MergedSafely pf userId minSimilarity log db db' where
  named := by
    intro c hc hnamed
    have hkept : c.id ∉ merged.flatMap groupSources := by
      intro hid
      obtain ⟨g, hg, hcg, hne⟩ := h.of_mem_gone hl hc hid
      have hanon := (exactGroups_duplicate hl.ids (h.sublist.subset hg)).anonymous c hcg hne
      rw [hnamed] at hanon
      cases hanon
    obtain ⟨c', hc', hid⟩ := List.mem_map.mp
      (h.collapses.mem_ids.mpr ⟨List.mem_map_of_mem hc, hkept⟩)
    obtain ⟨c₀, hc₀, hid₀, hname, hnamed₀, -⟩ := h.collapses.origin c' hc'
    obtain rfl : c₀ = c := hl.eq_of_id hc₀ hc (hid₀.symm.trans hid)
    exact ⟨c', hc', hid, hnamed₀.trans hnamed, hname⟩
  removed := by
    intro c hc
    obtain ⟨hc, hid⟩ := h.collapses.mem_removed.mp hc
    obtain ⟨g, hg, hcg, hne⟩ := h.of_mem_gone hl hc hid
    have hdup := exactGroups_duplicate hl.ids (h.sublist.subset hg)
    refine ⟨hdup.anonymous c hcg hne, (hdup.origin c hcg).2, g, h.sublist.subset hg, hcg, ?_, ?_⟩
    · rw [hdup.target]
      exact hdup.similar c hcg hne
    · have htarget := (hdup.origin _ (groupTarget_mem g)).1
      exact List.mem_map.mp (h.collapses.mem_ids.mpr
        ⟨List.mem_map_of_mem htarget, h.target_kept hl hg⟩)
  total := h.collapses.total
  kept := by
    intro c hc hfailed
    have hnot : c.id ∉ merged.flatMap groupTouched := by
      intro hid
      obtain ⟨g, hg, hid⟩ := List.mem_flatMap.mp hid
      have hdup := exactGroups_duplicate hl.ids (h.sublist.subset hg)
      have hin : c ∈ g.clusters := by
        rcases List.mem_cons.mp hid with hid | hid
        · rw [hl.eq_of_id hc (hdup.origin _ (groupTarget_mem g)).1 hid]
          exact groupTarget_mem g
        · obtain ⟨d, hd, hdid⟩ := List.mem_map.mp (List.mem_filter.mp hid).1
          rw [← hl.eq_of_id (hdup.origin d hd).1 hc hdid]
          exact hd
      exact hfailed g (h.sublist.subset hg) hin (h.answered g hg)
    have hgone : c.id ∉ merged.flatMap groupSources := by
      intro hid
      obtain ⟨g, hg, hid⟩ := List.mem_flatMap.mp hid
      exact hnot (List.mem_flatMap.mpr ⟨g, hg, List.mem_cons_of_mem _ hid⟩)
    refine ⟨?_, h.collapses.rows c.id hnot⟩
    obtain ⟨c', hc', hid⟩ := List.mem_map.mp
      (h.collapses.mem_ids.mpr ⟨List.mem_map_of_mem hc, hgone⟩)
    obtain ⟨c₀, hc₀, hid₀, -, -, hsame⟩ := h.collapses.origin c' hc'
    obtain rfl : c₀ = c := hl.eq_of_id hc₀ hc (hid₀.symm.trans hid)
    rw [← hsame hnot]
    exact hc'
  others := h.collapses.others
  othersRows := h.collapses.othersRows

end Safety

/-- **Merging duplicates is safe**, whatever merges fail: no name is lost, only
anonymous duplicates of a surviving cluster go, no sighting is lost, failed groups
and other owners keep what they have, and the counts tell what was removed. -/
theorem merge_duplicates_safe {minSimilarity : Option K} {w w' : World K} {log : List (Event K)}
    {res : Except PyError MergeCounts} (hreach : Reached svc.pf w.db)
    (h : FlakyRun svc.pf oracle (mergeDuplicateGroups svc auth minSimilarity) w log res w') :
    MergedSafely svc.pf auth.userId minSimilarity log w.db w'.db ∧
      ∀ counts, res = .ok counts →
        counts.clustersMerged = counts.groupsMerged + (removed w.db w'.db).length := by
  have hinv := hreach.invariant
  obtain ⟨merged, hmerged⟩ := mergeDuplicateGroups_runs hinv h
  refine ⟨hmerged.safe hinv.toLinked, fun counts hc => ?_⟩
  obtain ⟨hgroups, hclusters⟩ := hmerged.counted counts hc
  simp only [Nat.zero_add] at hgroups hclusters
  have hsub : merged.flatMap groupSources ⊆ w.db.clusters.map (·.id) := by
    intro id hid
    obtain ⟨g, hg, hid⟩ := List.mem_flatMap.mp hid
    obtain ⟨c, hcg, rfl⟩ := List.mem_map.mp (List.mem_filter.mp hid).1
    exact List.mem_map_of_mem
      ((exactGroups_duplicate hinv.ids (hmerged.sublist.subset hg)).origin c hcg).1
  rw [hmerged.collapses.length_removed hinv.ids (hmerged.gone_nodup hinv.toLinked) hsub, hgroups,
    hclusters, hmerged.length_gone hinv.toLinked]

/-- Two clusters of one person, seen in one video. -/
def twinDb : Database ℚ :=
  (Write.appendStreamOccurrences (Uuid.fill 1).text (Uuid.fill 2).text
    [⟨(Uuid.fill 3).text, [1], 5 / 2, 1⟩, ⟨(Uuid.fill 4).text, [1], 5 / 2, 1⟩]).commit
    Platform.exact (Uuid.fill 5) 2
    ((Write.upsertCluster (Uuid.fill 1).text none false [1]).commit Platform.exact (Uuid.fill 4) 1
      ((Write.upsertCluster (Uuid.fill 1).text none false [1]).commit Platform.exact (Uuid.fill 3) 0
        ⟨[], []⟩))

theorem twinDb_reached : Reached Platform.exact twinDb := by
  refine .step (.step (.step .empty _ 0 _ ⟨rfl, rfl⟩) _ 1 _ ⟨rfl, rfl⟩) _ 2 _ ⟨.inr ?_, trivial⟩
  intro it hit
  rcases List.mem_cons.mp hit with rfl | hit
  · exact ⟨Uuid.fill 3, _, by decide, rfl, Uuid.castUuid_text _⟩
  · rw [List.mem_singleton.mp hit]
    exact ⟨Uuid.fill 4, _, by decide, rfl, Uuid.castUuid_text _⟩

/-- The endpoint called on them by their owner. -/
def twinRun : Except PyError MergeCounts × World ℚ :=
  (mergeDuplicateGroups (sceneService []) ⟨(Uuid.fill 1).text, none⟩ none).exec
    (answer Platform.exact (sceneOracle 9)) { sceneWorld with db := twinDb }

theorem merge_duplicates_safe_twins : ∃ log,
    FlakyRun Platform.exact (sceneOracle 9)
      (mergeDuplicateGroups (sceneService []) ⟨(Uuid.fill 1).text, none⟩ none)
      { sceneWorld with db := twinDb } log (.ok ⟨1, 2, 0⟩) twinRun.2 ∧
    MergedSafely Platform.exact (Uuid.fill 1).text none log twinDb twinRun.2.db ∧
    2 = 1 + (removed twinDb twinRun.2.db).length := by
  have hresult : twinRun.1 = .ok ⟨1, 2, 0⟩ := by decide +kernel
  obtain ⟨log, hrun⟩ := @Runs.of_exec _ _ _ _ _ Alone (Flaky Platform.exact (sceneOracle 9))
    (answer Platform.exact (sceneOracle 9)) Flaky.answered
    (mergeDuplicateGroups (sceneService []) ⟨(Uuid.fill 1).text, none⟩ none)
    { sceneWorld with db := twinDb }
  have hlog : FlakyRun Platform.exact (sceneOracle 9)
      (mergeDuplicateGroups (sceneService []) ⟨(Uuid.fill 1).text, none⟩ none)
      { sceneWorld with db := twinDb } log (.ok ⟨1, 2, 0⟩) twinRun.2 := hresult ▸ hrun
  obtain ⟨hsafe, hcounts⟩ := @merge_duplicates_safe ℚ _ (sceneService []) _ _ _
    { sceneWorld with db := twinDb } _ _ _ twinDb_reached hlog
  exact ⟨log, hlog, hsafe, hcounts _ rfl⟩

end FacesService.Reader
