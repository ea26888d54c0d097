import FacesService.Store.Specs

/-!
What a merge does to the tables. The clusters named as sources go. As long as
none of them is the target, their rows become rows of the target one for one,
and every other row stays where it is.
-/

namespace FacesService

open Database Fallible Db

variable {K : Type}

/-! ### Lists of ids -/

/-- The uuids a list of strings denotes. -/
def denoted (ids : List String) : List Uuid :=
  ids.filterMap fun cid => (castUuid cid).toOption

theorem mem_denoted {ids : List String} {id : Uuid} :
    id ∈ denoted ids ↔ ∃ cid ∈ ids, castUuid cid = .ok id := by
  simp only [denoted, List.mem_filterMap]
  refine exists_congr fun cid => and_congr_right fun _ => ?_
  cases castUuid cid with
  | error e => simp [Except.toOption]
  | ok id' => simp [Except.toOption]

theorem denoted_cons {cid : String} {id : Uuid} (h : castUuid cid = .ok id) (ids : List String) :
    denoted (cid :: ids) = id :: denoted ids := by
  simp [denoted, h, Except.toOption]

theorem denoted_append (ids ids' : List String) : denoted (ids ++ ids') = denoted ids ++ denoted ids' :=
  List.filterMap_append

theorem denoted_perm {ids ids' : List String} (h : ids.Perm ids') : (denoted ids).Perm (denoted ids') :=
  h.filterMap _

theorem countP_mem_cons {α β : Type} [DecidableEq β] (f : α → β) (xs : List α) (b : β) (l : List β) :
    (xs.countP fun x => f x ∈ b :: l) =
      (xs.countP fun x => f x = b) + xs.countP fun x => f x ∈ l && f x ≠ b := by
  induction xs with
  | nil => rfl
  | cons x xs ih =>
      have hone : (if (decide (f x ∈ b :: l) : Bool) then 1 else 0) =
          (if (decide (f x = b) : Bool) then 1 else 0) +
            if (decide (f x ∈ l) && decide (f x ≠ b) : Bool) then 1 else 0 := by
        by_cases hx : f x = b <;> simp [hx]
      rw [List.countP_cons, List.countP_cons, List.countP_cons, ih, hone]
      omega

/-- Counting by membership is counting for each distinct value. -/
theorem sum_countP_eq {α β : Type} [DecidableEq β] (f : α → β) (xs : List α) {l : List β}
    (h : l.Nodup) :
    (l.map fun b => xs.countP fun x => f x = b).sum = xs.countP fun x => f x ∈ l := by
  induction l with
  | nil => simp
  | cons b l ih =>
      obtain ⟨hb, hl⟩ := List.nodup_cons.mp h
      rw [List.map_cons, List.sum_cons, ih hl, countP_mem_cons]
      congr 1
      refine List.countP_congr fun x _ => ?_
      have hne : f x ∈ l → f x ≠ b := fun hx heq => hb (heq ▸ hx)
      simpa using hne

/-- The sightings of the listed clusters, each cluster counted once. -/
theorem sum_countFor (db : Database K) (ids : List Uuid) :
    (ids.dedup.map db.countFor).sum = db.occurrences.countP fun o => o.clusterId ∈ ids := by
  have hsum := sum_countP_eq (fun o : Occurrence K => o.clusterId) db.occurrences ids.nodup_dedup
  simp only [List.mem_dedup] at hsum
  exact hsum

/-! ### One source -/

theorem exists_of_forall₂ {α β : Type} {R : α → β → Prop} {l : List α} {l' : List β}
    (h : List.Forall₂ R l l') {b : β} (hb : b ∈ l') : ∃ a, R a b := by
  induction h with
  | nil => cases hb
  | cons hab _ ih =>
      rcases List.mem_cons.mp hb with rfl | hb
      · exact ⟨_, hab⟩
      · exact ih hb

/-- The row the merge writes for `r`. -/
def movedRow (pf : Platform K) (now : ℕ) (owner target : Uuid) (r : Occurrence K) (t : K) :
    Occurrence K where
  ownerId := owner
  streamId := r.streamId
  clusterId := target
  embedding := toListArray pf r.embedding
  tSeconds := t
  confidence := r.confidence
  createdAt := now

variable [DecidableEq K] {pf : Platform K} {now : ℕ} {owner target : Uuid}

/-- A row the merge wrote. -/
def Moved (owner target : Uuid) (o : Occurrence K) : Prop :=
  o.clusterId = target ∧ o.ownerId = owner

theorem moveRows_ok {rows : List (Occurrence K)} {st st' : MergeState K}
    (h : rows.foldlM (moveRow pf now owner target) st = .ok st') :
    ∃ added, st'.db = { st.db with occurrences := st.db.occurrences ++ added } ∧
      List.Forall₂ (fun r o => ∃ t, o = movedRow pf now owner target r t) rows added := by
  induction rows generalizing st with
  | nil =>
      cases h
      exact ⟨[], by simp, .nil⟩
  | cons r rows ih =>
      rw [List.foldlM_cons, bind_eq_ok] at h
      obtain ⟨st₁, hmove, hrest⟩ := h
      obtain ⟨t, hins⟩ := moveRow_ok hmove
      obtain ⟨-, -, hdb⟩ := insertOccurrence_eq_ok hins
      obtain ⟨added, hdb', hcopies⟩ := ih hrest
      refine ⟨movedRow pf now owner target r t :: added, ?_, .cons ⟨t, rfl⟩ hcopies⟩
      rw [hdb', hdb, List.append_assoc]
      rfl

omit [DecidableEq K] in
theorem moved_of_copies {rows added : List (Occurrence K)}
    (h : List.Forall₂ (fun r o => ∃ t, o = movedRow pf now owner target r t) rows added) :
    ∀ o ∈ added, Moved owner target o := by
  intro o ho
  obtain ⟨r, t, rfl⟩ := exists_of_forall₂ h ho
  exact ⟨rfl, rfl⟩

/-- The tables after the sources have been absorbed, but for the target's count. -/
structure Absorbed (owner target : Uuid) (sources : List Uuid) (db db' : Database K) : Prop where
  clusters : db'.clusters = db.clusters.filter fun c => c.id ∉ sources
  occurrences : ∃ added, db'.occurrences =
      (db.occurrences.filter fun o => o.clusterId ∉ sources) ++ added ∧
    added.length = (db.occurrences.countP fun o => o.clusterId ∈ sources) ∧
    ∀ o ∈ added, Moved owner target o

/-- The cluster of a source goes, whatever it is. -/
theorem mergeSource_clusters {st st' : MergeState K} {cid : String} {id : Uuid}
    (hid : castUuid cid = .ok id) (h : mergeSource pf now owner target st cid = .ok st') :
    st'.db.clusters = st.db.clusters.filter fun c => c.id ≠ id := by
  obtain ⟨id', st₁, hid', hrows, rfl⟩ := mergeSource_ok h
  cases hid.symm.trans hid'
  obtain ⟨added, hdb, -⟩ := moveRows_ok hrows
  simp only [deleteClusters, clusters_deleteOccurrences, hdb]
  refine List.filter_congr fun c _ => ?_
  by_cases hc : c.id = id <;> simp [hc]

/-- Its rows are copied before they are deleted, and the copies are the
target's, so they stay if the source is not the target itself. -/
theorem mergeSource_absorbed {st st' : MergeState K} {cid : String} {id : Uuid}
    (hid : castUuid cid = .ok id) (hne : target ≠ id)
    (h : mergeSource pf now owner target st cid = .ok st') :
    Absorbed owner target [id] st.db st'.db := by
  have hclusters := mergeSource_clusters hid h
  obtain ⟨id', st₁, hid', hrows, rfl⟩ := mergeSource_ok h
  cases hid.symm.trans hid'
  obtain ⟨added, hdb, hcopies⟩ := moveRows_ok hrows
  have hmoved := moved_of_copies hcopies
  refine ⟨by simpa using hclusters, added, ?_, ?_, hmoved⟩
  · have hkept : ∀ o ∈ added, o.clusterId ≠ id := fun o ho => (hmoved o ho).1 ▸ hne
    simp only [deleteClusters, deleteOccurrences, hdb, List.filter_append, List.filter_filter]
    congr 1
    · refine List.filter_congr fun o _ => ?_
      by_cases ho : o.clusterId = id
      · simp [ho]
      · have hany : ∀ c : Cluster K, c.id = id → ¬ c.id = o.clusterId :=
          fun c hc heq => ho (heq.symm.trans hc)
        simpa [ho] using fun c _ hc => hany c hc
    · rw [List.filter_eq_self]
      intro o ho
      have hany : ∀ c : Cluster K, c.id = id → ¬ c.id = o.clusterId :=
        fun c hc heq => hkept o ho (heq.symm.trans hc)
      simpa [hkept o ho] using fun c _ hc => hany c hc
  · rw [← hcopies.length_eq, (pf.scan_perm _ _).length_eq, List.countP_eq_length_filter]
    simp

/-! ### All sources -/

omit [DecidableEq K] in
/-- Absorbing one after the other is absorbing both. -/
theorem Absorbed.cons {db db₁ db₂ : Database K} {id : Uuid} {sources : List Uuid}
    (h : Absorbed owner target [id] db db₁) (h' : Absorbed owner target sources db₁ db₂)
    (hne : target ∉ sources) : Absorbed owner target (id :: sources) db db₂ := by
  obtain ⟨added, hocc, hlen, hmoved⟩ := h.occurrences
  obtain ⟨added', hocc', hlen', hmoved'⟩ := h'.occurrences
  have hkept : ∀ o ∈ added, o.clusterId ∉ sources := fun o ho => (hmoved o ho).1 ▸ hne
  refine ⟨?_, added ++ added', ?_, ?_, ?_⟩
  · rw [h'.clusters, h.clusters, List.filter_filter]
    refine List.filter_congr fun c _ => ?_
    by_cases hc : c.id = id <;> simp [hc]
  · rw [hocc', hocc, List.filter_append, List.filter_filter, List.append_assoc]
    congr 1
    · refine List.filter_congr fun o _ => ?_
      by_cases ho : o.clusterId = id <;> simp [ho]
    · rw [List.filter_eq_self.mpr fun o ho => by simpa using hkept o ho]
  · have hnone : added.countP (fun o => o.clusterId ∈ sources) = 0 :=
      List.countP_eq_zero.mpr fun o ho => by simpa using hkept o ho
    rw [List.length_append, hlen, hlen', hocc, List.countP_append, hnone, List.countP_filter,
      countP_mem_cons (fun o : Occurrence K => o.clusterId) db.occurrences id sources]
    simp
  · intro o ho
    rcases List.mem_append.mp ho with ho | ho
    · exact hmoved o ho
    · exact hmoved' o ho

theorem mergeSources_clusters {sources : List String} {st st' : MergeState K}
    (h : sources.foldlM (mergeSource pf now owner target) st = .ok st') :
    st'.db.clusters = st.db.clusters.filter fun c => c.id ∉ denoted sources := by
  induction sources generalizing st with
  | nil =>
      cases h
      simp [denoted]
  | cons cid sources ih =>
      rw [List.foldlM_cons, bind_eq_ok] at h
      obtain ⟨st₁, hone, hrest⟩ := h
      obtain ⟨id, -, hid, -, -⟩ := mergeSource_ok hone
      rw [ih hrest, mergeSource_clusters hid hone, List.filter_filter, denoted_cons hid]
      refine List.filter_congr fun c _ => ?_
      by_cases hc : c.id = id <;> simp [hc]

theorem mergeSources_absorbed {sources : List String} {st st' : MergeState K}
    (hne : target ∉ denoted sources)
    (h : sources.foldlM (mergeSource pf now owner target) st = .ok st') :
    Absorbed owner target (denoted sources) st.db st'.db := by
  induction sources generalizing st with
  | nil =>
      cases h
      exact ⟨by simp [denoted], [], by simp [denoted], by simp [denoted], by simp⟩
  | cons cid sources ih =>
      rw [List.foldlM_cons, bind_eq_ok] at h
      obtain ⟨st₁, hone, hrest⟩ := h
      obtain ⟨id, -, hid, -, -⟩ := mergeSource_ok hone
      rw [denoted_cons hid, List.mem_cons, not_or] at hne
      rw [denoted_cons hid]
      exact (mergeSource_absorbed hid hne.1 hone).cons (ih hne.2 hrest) hne.2

/-! ### The target among the sources -/

/-- No row can be moved to a cluster that is gone. -/
theorem moveRows_gone {rows : List (Occurrence K)} {st st' : MergeState K}
    (hgone : ∀ c ∈ st.db.clusters, c.id ≠ target)
    (h : rows.foldlM (moveRow pf now owner target) st = .ok st') : st' = st := by
  cases rows with
  | nil =>
      cases h
      rfl
  | cons r rows =>
      rw [List.foldlM_cons, bind_eq_ok] at h
      obtain ⟨st₁, hmove, -⟩ := h
      obtain ⟨t, hins⟩ := moveRow_ok hmove
      obtain ⟨-, ⟨c, hc, hid⟩, -⟩ := insertOccurrence_eq_ok hins
      exact absurd hid (hgone c hc)

theorem mergeSources_gone {sources : List String} {st st' : MergeState K}
    (hgone : ∀ c ∈ st.db.clusters, c.id ≠ target)
    (h : sources.foldlM (mergeSource pf now owner target) st = .ok st') :
    st'.db.occurrences ⊆ st.db.occurrences := by
  induction sources generalizing st with
  | nil =>
      cases h
      exact List.Subset.refl _
  | cons cid sources ih =>
      rw [List.foldlM_cons, bind_eq_ok] at h
      obtain ⟨st₁, hone, hrest⟩ := h
      obtain ⟨id, st₀, hid, hrows, rfl⟩ := mergeSource_ok hone
      cases moveRows_gone hgone hrows
      refine List.Subset.trans (ih (fun c hc => ?_) hrest) ?_
      · rw [clusters_drop, List.mem_filter] at hc
        exact hgone c hc.1
      · rw [occurrences_drop]
        exact List.filter_subset_self _

/-- A target that is among its sources loses its rows and those it was given,
and no row is moved to it after that. -/
theorem mergeSources_self {sources : List String} {st st' : MergeState K}
    (hmem : target ∈ denoted sources)
    (h : sources.foldlM (mergeSource pf now owner target) st = .ok st') :
    ∀ o ∈ st'.db.occurrences, o.clusterId ≠ target ∧ o ∈ st.db.occurrences := by
  induction sources generalizing st with
  | nil => cases hmem
  | cons cid sources ih =>
      rw [List.foldlM_cons, bind_eq_ok] at h
      obtain ⟨st₁, hone, hrest⟩ := h
      obtain ⟨id, st₀, hid, hrows, rfl⟩ := mergeSource_ok hone
      obtain ⟨added, hdb, hcopies⟩ := moveRows_ok hrows
      rw [denoted_cons hid, List.mem_cons] at hmem
      -- what the round leaves is old or the target's
      have hround : ∀ o ∈ st₀.db.occurrences, o.clusterId ≠ target → o ∈ st.db.occurrences := by
        intro o ho hne
        rw [hdb] at ho
        rcases List.mem_append.mp ho with ho | ho
        · exact ho
        · exact absurd (moved_of_copies hcopies o ho).1 hne
      by_cases hself : target = id
      · have hgone : ∀ c ∈ st₀.db.clusters.filter fun c => c.id ≠ id, c.id ≠ target := by
          intro c hc
          simpa [hself] using (List.mem_filter.mp hc).2
        intro o ho
        have ho₁ := mergeSources_gone (by simpa only [clusters_drop] using hgone) hrest ho
        rw [occurrences_drop, List.mem_filter] at ho₁
        have hne : o.clusterId ≠ target := by simpa [hself] using ho₁.2
        exact ⟨hne, hround o ho₁.1 hne⟩
      · intro o ho
        obtain ⟨hne, ho₁⟩ := ih (hmem.resolve_left hself) hrest o ho
        rw [occurrences_drop, List.mem_filter] at ho₁
        exact ⟨hne, hround o ho₁.1 hne⟩

section Reading

variable {sources : List Uuid} {db db' : Database K}

omit [DecidableEq K] in
theorem Absorbed.countFor_target (h : Absorbed owner target sources db db')
    (hne : target ∉ sources) :
    db'.countFor target = db.occurrences.countP fun o => o.clusterId ∈ target :: sources := by
  obtain ⟨added, hocc, hlen, hmoved⟩ := h.occurrences
  have hall : added.countP (fun o => o.clusterId = target) = added.length :=
    List.countP_eq_length.mpr fun o ho => by simpa using (hmoved o ho).1
  rw [countFor, hocc, List.countP_append, hall, hlen, List.countP_filter, countP_mem_cons]
  congr 1
  · refine List.countP_congr fun o _ => ?_
    have hnot : o.clusterId = target → o.clusterId ∉ sources := fun heq => heq ▸ hne
    simpa using hnot
  · refine List.countP_congr fun o _ => ?_
    have hnot : o.clusterId ∈ sources → o.clusterId ≠ target := fun hmem heq => hne (heq ▸ hmem)
    simpa using hnot

end Reading

/-! ### `merge_clusters` -/

section Call

variable {db : Database K} {ownerId targetId : String} {sourceIds : List String}
  {c : Commit K (Option Merged)} {m : Merged}

theorem mergeClusters_some (h : mergeClusters pf now db ownerId targetId sourceIds = .ok c)
    (hm : c.result = some m) :
    ∃ target row affected st, Owned db targetId ownerId target row ∧
      (∀ cid ∈ sourceIds, ∃ id row, Owned db cid ownerId id row) ∧
      sourceIds.foldlM (mergeSource pf now row.ownerId target) ⟨db, affected, []⟩ = .ok st ∧
      c.db = (st.db.recount now fun c => c.id = target) ∧ m.deletedClusterIds = sourceIds := by
  rcases mergeClusters_ok h with rfl | ⟨target, row, affected, st, hown, hverify, hst, rfl⟩
  · cases hm
  · cases hm
    exact ⟨target, row, affected, st, hown, verifySources_true hverify, hst, rfl, rfl⟩

/-- The sources are gone, even if one of them was the target. -/
theorem mergeClusters_gone (h : mergeClusters pf now db ownerId targetId sourceIds = .ok c)
    (hm : c.result = some m) : ∀ r ∈ c.db.clusters, r.id ∉ denoted sourceIds := by
  obtain ⟨target, row, affected, st, -, -, hst, hdb, -⟩ := mergeClusters_some h hm
  intro r hr
  rw [hdb] at hr
  obtain ⟨r₀, hr₀, rfl⟩ := mem_updateClusters hr
  rw [mergeSources_clusters hst, List.mem_filter] at hr₀
  split <;> simpa using hr₀.2

theorem mergeClusters_absorbed (h : mergeClusters pf now db ownerId targetId sourceIds = .ok c)
    (hm : c.result = some m) (htarget : castUuid targetId = .ok target)
    (hne : target ∉ denoted sourceIds) :
    ∃ row db₁, Owned db targetId ownerId target row ∧
      Absorbed row.ownerId target (denoted sourceIds) db db₁ ∧
      c.db = db₁.recount now fun c => c.id = target := by
  obtain ⟨target', row, affected, st, hown, -, hst, hdb, -⟩ := mergeClusters_some h hm
  cases htarget.symm.trans hown.cast
  exact ⟨row, st.db, hown, mergeSources_absorbed hne hst, hdb⟩

end Call

/-! ### Several merges -/

/-- The clusters of `db` that `db'` no longer has. -/
def removed (db db' : Database K) : List (Cluster K) :=
  db.clusters.filter fun c => c.id ∉ db'.clusters.map (·.id)

/-- What merges among a user's clusters come to: the ids in `gone` are gone, only
the clusters in `touched` have other rows than before, no sighting is lost, and
nobody else notices. -/
structure Collapses (userId : String) (gone touched : List Uuid) (db db' : Database K) : Prop where
  ids : db'.clusters.map (·.id) = (db.clusters.map (·.id)).filter (· ∉ gone)
  origin : ∀ c' ∈ db'.clusters, ∃ c ∈ db.clusters, c'.id = c.id ∧ c'.name = c.name ∧
    c'.isNamed = c.isNamed ∧ (c.id ∉ touched → c' = c)
  rows : ∀ id, id ∉ touched →
    (db'.occurrences.filter fun o => o.clusterId = id) = db.occurrences.filter fun o => o.clusterId = id
  total : (db'.occurrences.countP fun o => isMine userId o.ownerId) =
    db.occurrences.countP fun o => isMine userId o.ownerId
  others : (db'.clusters.filter fun c => !isMine userId c.ownerId) =
    db.clusters.filter fun c => !isMine userId c.ownerId
  othersRows : (db'.occurrences.filter fun o => !isMine userId o.ownerId) =
    db.occurrences.filter fun o => !isMine userId o.ownerId

namespace Collapses

omit [DecidableEq K]

variable {userId : String} {gone touched gone' touched' : List Uuid} {db db₁ db' : Database K}

theorem refl (userId : String) (db : Database K) : Collapses userId [] [] db db :=
  ⟨by simp, fun c hc => ⟨c, hc, rfl, rfl, rfl, fun _ => rfl⟩, fun _ _ => rfl, rfl, rfl, rfl⟩

theorem trans (h : Collapses userId gone touched db db₁)
    (h' : Collapses userId gone' touched' db₁ db') :
    Collapses userId (gone ++ gone') (touched ++ touched') db db' where
  ids := by
    rw [h'.ids, h.ids, List.filter_filter]
    refine List.filter_congr fun id _ => ?_
    by_cases hid : id ∈ gone <;> simp [hid]
  origin := by
    intro c' hc'
    obtain ⟨c₁, hc₁, hid₁, hname₁, hnamed₁, hsame₁⟩ := h'.origin c' hc'
    obtain ⟨c, hc, hid, hname, hnamed, hsame⟩ := h.origin c₁ hc₁
    refine ⟨c, hc, hid₁.trans hid, hname₁.trans hname, hnamed₁.trans hnamed, fun hnot => ?_⟩
    rw [List.mem_append, not_or] at hnot
    rw [hsame₁ (hid ▸ hnot.2), hsame hnot.1]
  rows := by
    intro id hnot
    rw [List.mem_append, not_or] at hnot
    rw [h'.rows id hnot.2, h.rows id hnot.1]
  total := h'.total.trans h.total
  others := h'.others.trans h.others
  othersRows := h'.othersRows.trans h.othersRows

theorem mem_ids (h : Collapses userId gone touched db db') {id : Uuid} :
    id ∈ db'.clusters.map (·.id) ↔ id ∈ db.clusters.map (·.id) ∧ id ∉ gone := by
  rw [h.ids, List.mem_filter, decide_eq_true_eq]

/-- The removed clusters are those of `gone`, one each. -/
theorem mem_removed (h : Collapses userId gone touched db db') {c : Cluster K} :
    c ∈ removed db db' ↔ c ∈ db.clusters ∧ c.id ∈ gone := by
  rw [removed, List.mem_filter, decide_eq_true_eq, h.mem_ids]
  refine and_congr_right fun hc => ?_
  have hid : c.id ∈ db.clusters.map (·.id) := List.mem_map_of_mem hc
  simp [hid]

theorem length_removed (h : Collapses userId gone touched db db')
    (hids : (db.clusters.map (·.id)).Nodup) (hnodup : gone.Nodup)
    (hsub : gone ⊆ db.clusters.map (·.id)) : (removed db db').length = gone.length := by
  have hperm : ((removed db db').map (·.id)).Perm gone := by
    refine (List.perm_ext_iff_of_nodup (hids.sublist (List.filter_sublist.map _)) hnodup).mpr
      fun id => ?_
    constructor
    · intro hid
      obtain ⟨c, hc, rfl⟩ := List.mem_map.mp hid
      exact (h.mem_removed.mp hc).2
    · intro hid
      obtain ⟨c, hc, rfl⟩ := List.mem_map.mp (hsub hid)
      exact List.mem_map_of_mem (h.mem_removed.mpr ⟨hc, hid⟩)
  rw [← hperm.length_eq, List.length_map]

end Collapses

/-- A merge that answers collapses its sources into its target. -/
theorem mergeClusters_collapses {db : Database K} {ownerId targetId : String}
    {sourceIds : List String} {c : Commit K (Option Merged)} {m : Merged} (hl : db.Linked)
    (h : mergeClusters pf now db ownerId targetId sourceIds = .ok c) (hm : c.result = some m)
    (htarget : castUuid targetId = .ok target) (hne : target ∉ denoted sourceIds) :
    Collapses ownerId (denoted sourceIds) (target :: denoted sourceIds) db c.db := by
  obtain ⟨_, _, _, _, -, hsources, -⟩ := mergeClusters_some h hm
  obtain ⟨row, db₁, hown, habsorbed, hdb⟩ := mergeClusters_absorbed h hm htarget hne
  obtain ⟨added, hocc, hlen, hmoved⟩ := habsorbed.occurrences
  -- the target and the sources are the owner's, and so are their rows
  have hmine : ∀ r ∈ db.clusters, r.id ∈ target :: denoted sourceIds → isMine ownerId r.ownerId := by
    intro r hr hid
    rcases List.mem_cons.mp hid with hid | hid
    · rw [hl.eq_of_id hr hown.mem.1 (hid.trans hown.mem.2.symm)]
      simpa [isMine] using hown.castOwner
    · obtain ⟨cid, hcid, hcast⟩ := mem_denoted.mp hid
      obtain ⟨id, row', hown'⟩ := hsources cid hcid
      cases hcast.symm.trans hown'.cast
      rw [hl.eq_of_id hr hown'.mem.1 hown'.mem.2.symm]
      simpa [isMine] using hown'.castOwner
  have hmineRows : ∀ o ∈ db.occurrences, o.clusterId ∈ denoted sourceIds → isMine ownerId o.ownerId := by
    intro o ho hid
    obtain ⟨r, hr, hrid, howner⟩ := hl.owned o ho
    rw [← howner]
    exact hmine r hr (List.mem_cons_of_mem _ (hrid ▸ hid))
  have hmineAdded : ∀ o ∈ added, isMine ownerId o.ownerId := by
    intro o ho
    rw [(hmoved o ho).2]
    simpa [isMine] using hown.castOwner
  have hids : c.db.clusters.map (·.id) =
      (db.clusters.map (·.id)).filter (· ∉ denoted sourceIds) := by
    rw [hdb, recount_ids, habsorbed.clusters, List.filter_map]
    rfl
  refine ⟨hids, ?_, ?_, ?_, ?_, ?_⟩
  · intro c' hc'
    rw [hdb] at hc'
    obtain ⟨c₀, hc₀, rfl⟩ := mem_updateClusters hc'
    rw [habsorbed.clusters, List.mem_filter] at hc₀
    refine ⟨c₀, hc₀.1, ?_⟩
    split
    · rename_i hid
      exact ⟨rfl, rfl, rfl, fun hnot => absurd (by simpa using Or.inl hid) hnot⟩
    · exact ⟨rfl, rfl, rfl, fun _ => rfl⟩
  · intro id hnot
    rw [List.mem_cons, not_or] at hnot
    have hadded : (added.filter fun o => o.clusterId = id) = [] := by
      rw [List.filter_eq_nil_iff]
      intro o ho
      simpa [(hmoved o ho).1] using fun heq : target = id => hnot.1 heq.symm
    rw [hdb, recount, occurrences_updateClusters, hocc, List.filter_append, hadded,
      List.append_nil, List.filter_filter]
    refine List.filter_congr fun o _ => ?_
    by_cases ho : o.clusterId = id
    · simp [ho, hnot.2]
    · simp [ho]
  · have hall : added.countP (fun o => isMine ownerId o.ownerId) = added.length :=
      List.countP_eq_length.mpr hmineAdded
    rw [hdb, recount, occurrences_updateClusters, hocc, List.countP_append, hall, hlen,
      List.countP_eq_countP_filter_add db.occurrences (fun o => isMine ownerId o.ownerId)
        (fun o => o.clusterId ∉ denoted sourceIds)]
    congr 1
    rw [List.countP_filter]
    refine List.countP_congr fun o ho => ?_
    simpa using hmineRows o ho
  · have hgone : (db₁.clusters.filter fun r => !isMine ownerId r.ownerId) =
        db.clusters.filter fun r => !isMine ownerId r.ownerId := by
      rw [habsorbed.clusters, List.filter_filter]
      refine List.filter_congr fun r hr => ?_
      by_cases hid : r.id ∈ denoted sourceIds
      · simp [hmine r hr (List.mem_cons_of_mem _ hid)]
      · simp [hid]
    rw [hdb, recount, filter_updateClusters, hgone]
    intro r hr hid
    rw [habsorbed.clusters, List.mem_filter] at hr
    have hr' := hmine r hr.1 (List.mem_cons.mpr (.inl (by simpa using hid)))
    simp [hr']
  · have hnone : (added.filter fun o => !isMine ownerId o.ownerId) = [] := by
      rw [List.filter_eq_nil_iff]
      intro o ho
      simp [hmineAdded o ho]
    rw [hdb, recount, occurrences_updateClusters, hocc, List.filter_append, hnone,
      List.append_nil, List.filter_filter]
    refine List.filter_congr fun o ho => ?_
    by_cases hid : o.clusterId ∈ denoted sourceIds
    · simp [hmineRows o ho hid]
    · simp [hid]

end FacesService
