import FacesService.Store.Slots
import FacesService.Store.Invariant

/-!
`merge_clusters` conserves sightings. With times as exact numbers a probe always
ends, so a merge without its target among its sources is refused or goes through:
no insert fails, and every row of a source is found again among the rows of the
target.
-/

namespace FacesService

open Database Fallible Db Probe

/-! ### Exact times -/

/-- `t + 1e-4` on exact numbers. -/
def ExactTimes (pf : Platform ℚ) : Prop := ∀ t, pf.nudge t = t + 1 / 10000

theorem ExactTimes.iterate {pf : Platform ℚ} (h : ExactTimes pf) (k : ℕ) (t : ℚ) :
    pf.nudge^[k] t = t + k / 10000 := by
  induction k generalizing t with
  | zero => simp
  | succ k ih =>
      rw [Function.iterate_succ_apply, h, ih]
      push_cast
      ring

theorem ExactTimes.ends {pf : Platform ℚ} (h : ExactTimes pf) : NudgeEnds pf := by
  intro times t hnone
  rw [probe_eq_none_iff] at hnone
  obtain ⟨i, j, hij, -, heq⟩ := exists_repeat fun j _ => hnone j
  rw [h.iterate, h.iterate] at heq
  have hcast : (i : ℚ) = j := by linarith
  have := Nat.cast_injective hcast
  omega

/-! ### One merge -/

variable {K : Type} [DecidableEq K] {pf : Platform K} {now : ℕ} {db : Database K}
  {ownerId targetId : String} {sourceIds : List String} {target : Uuid}

omit [DecidableEq K] in
theorem verifySources_error {e : PyError} (h : verifySources db ownerId sourceIds = .error e) :
    e = .invalidUuid := by
  induction sourceIds with
  | nil => cases h
  | cons cid rest ih =>
      unfold verifySources at h
      rcases bind_eq_error.mp h with h | ⟨id, -, h⟩
      · exact castUuid_error h
      · split at h
        · cases h
        · split at h
          · cases h
          · exact ih h

/-- A merge among clusters of the owner goes through. -/
theorem mergeClusters_shifts (hends : NudgeEnds pf) (now : ℕ) {row : Cluster K}
    (hown : Owned db targetId ownerId target row)
    (hsources : ∀ cid ∈ sourceIds, ∃ id source, Owned db cid ownerId id source)
    (hne : target ∉ denoted sourceIds) :
    ∃ c m moved added db₁, mergeClusters pf now db ownerId targetId sourceIds = .ok c ∧
      c.result = some m ∧
      Shifts pf now row.ownerId target (sightingsIn db (target :: denoted sourceIds))
        (denoted sourceIds) moved added db db₁ ∧ c.db = db₁.recount now fun c => c.id = target := by
  have hcast : ∀ cid ∈ sourceIds, ∃ id, castUuid cid = .ok id := by
    intro cid hcid
    obtain ⟨id, source, h⟩ := hsources cid hcid
    exact ⟨id, h.cast⟩
  have hexists : db.clusterById target ≠ none := by simp [hown.found]
  have hcache : ∀ affected, CacheExact target (⟨db, affected, []⟩ : MergeState K) := by
    intro affected stream times hlookup
    cases hlookup
  obtain ⟨st', moved, added, hmerge, -, hshift⟩ := mergeSources_spec hends now row.ownerId hcast hne
    (hcache ((db.occurrences.filter fun o => o.clusterId = target).map (·.streamId)).dedup) hexists
    fun _ => le_refl _
  let m : Merged := ⟨orderBy (· ≤ ·) (st'.affected.map (·.text)), sourceIds⟩
  refine ⟨⟨some m, st'.db.recount now fun c => c.id = target, [ownerId]⟩, m, moved, added, st'.db, ?_,
    rfl, hshift, rfl⟩
  unfold mergeClusters
  rw [hown.cast, ok_bind, hown.found]
  simp only [hown.owner, ne_eq, not_true_eq_false, if_false]
  rw [verifySources_of_owned hsources]
  simp only [ok_bind, if_true, hown.castOwner]
  rw [hmerge]
  rfl

/-- A merge raises for a string that is no uuid, refuses, or is among clusters of
the owner. -/
theorem mergeClusters_cases (pf : Platform K) (now : ℕ) (db : Database K)
    (ownerId targetId : String) (sourceIds : List String) :
    mergeClusters pf now db ownerId targetId sourceIds = .error .invalidUuid ∨
      mergeClusters pf now db ownerId targetId sourceIds = .ok ⟨none, db, []⟩ ∨
      (∃ target row, Owned db targetId ownerId target row) ∧
        ∀ cid ∈ sourceIds, ∃ id source, Owned db cid ownerId id source := by
  unfold mergeClusters
  cases htarget : castUuid targetId with
  | error e =>
      rw [castUuid_error htarget]
      exact .inl rfl
  | ok target =>
      simp only [ok_bind]
      cases hrow : db.clusterById target with
      | none => exact .inr (.inl rfl)
      | some row =>
          simp only
          split
          · exact .inr (.inl rfl)
          · rename_i howner
            cases hverify : verifySources db ownerId sourceIds with
            | error e =>
                rw [verifySources_error hverify]
                exact .inl rfl
            | ok ok =>
                cases ok with
                | false => exact .inr (.inl rfl)
                | true =>
                    exact .inr (.inr ⟨⟨target, row, htarget, hrow, not_not.mp howner⟩,
                      verifySources_true hverify⟩)

/-! ### Stored embeddings -/

/-- Every stored embedding has been through `_tolist_array`. -/
def Formatted (pf : Platform K) (db : Database K) : Prop :=
  ∀ o ∈ db.occurrences, ∃ e, o.embedding = toListArray pf e

omit [DecidableEq K] in
theorem Formatted.subset {db' : Database K} (h : Formatted pf db)
    (hsub : db'.occurrences ⊆ db.occurrences) : Formatted pf db' :=
  fun o ho => h o (hsub ho)

theorem Formatted.insertOccurrence {db' : Database K} {o : Occurrence K} (h : Formatted pf db)
    (ho : ∃ e, o.embedding = toListArray pf e) (hins : db.insertOccurrence o = .ok db') :
    Formatted pf db' := by
  obtain ⟨-, -, rfl⟩ := insertOccurrence_eq_ok hins
  intro o' ho'
  rcases List.mem_append.mp ho' with ho' | ho'
  · exact h o' ho'
  · rw [List.mem_singleton.mp ho']
    exact ho

theorem Formatted.insertItems {ownerId streamId : String} {items : List (Item K)} {n m : ℕ}
    {db' : Database K} (h : Formatted pf db)
    (hins : Db.insertItems pf now ownerId streamId items n db = .ok (m, db')) : Formatted pf db' := by
  induction items generalizing n db with
  | nil =>
      cases hins
      exact h
  | cons it items ih =>
      obtain ⟨_, _, _, _, db₁, -, -, -, hone, hrest⟩ := insertItems_cons hins
      rcases insertOccurrenceIfNew_eq_ok hone with ⟨-, rfl, -⟩ | ⟨-, hone⟩
      · exact ih h hrest
      · exact ih (h.insertOccurrence ⟨_, rfl⟩ hone) hrest

theorem Formatted.mergeSource {owner : Uuid} {st st' : MergeState K} {cid : String}
    (h : Formatted pf st.db) (hst : Db.mergeSource pf now owner target st cid = .ok st') :
    Formatted pf st'.db := by
  obtain ⟨id, st₁, -, hrows, rfl⟩ := mergeSource_ok hst
  have h₁ : Formatted pf st₁.db := by
    refine foldlM_ok (fun _ st => Formatted pf st.db) (fun _ _ _ _ hst hmove => ?_) h hrows
    obtain ⟨t, hins⟩ := moveRow_ok hmove
    exact Formatted.insertOccurrence hst ⟨_, rfl⟩ hins
  refine h₁.subset ?_
  rw [occurrences_drop]
  exact List.filter_subset_self _

omit [DecidableEq K] in
theorem cascadeClusters_occurrences (ids : List Uuid) (acc : CascadeResult × List String × Database K) :
    (ids.foldl (cascadeCluster now) acc).2.2.occurrences ⊆ acc.2.2.occurrences := by
  induction ids generalizing acc with
  | nil => exact List.Subset.refl _
  | cons cid ids ih =>
      intro o ho
      exact (mem_occurrences_deleteClusters.mp (ih _ ho)).1

/-- Rows are only ever written by `append_stream_occurrences` and by a merge, and
both format what they write. -/
theorem Formatted.run {w : Write K} {fresh : Uuid} {c : Commit K w.Answer} (h : Formatted pf db)
    (hrun : w.run pf fresh now db = .ok c) : Formatted pf c.db := by
  cases w with
  | upsertCluster ownerId name isNamed centroid =>
      obtain ⟨_, -, -, -, hins⟩ := upsertCluster_ok hrun
      exact h.subset (by rw [(insertCluster_eq_ok hins).2]; exact List.Subset.refl _)
  | appendStreamOccurrences ownerId streamId items =>
      obtain ⟨db₁, _, _, hins, -, -, -, hdb⟩ := appendStreamOccurrences_ok hrun
      have h₁ : Formatted pf db₁ := h.insertItems hins
      rw [hdb]
      exact h₁
  | renameCluster clusterId ownerId name =>
      rcases renameCluster_ok hrun with ⟨hdb, -⟩ | ⟨_, _, -, rfl⟩
      · exact hdb ▸ h
      · exact h
  | deleteCluster clusterId ownerId =>
      rcases deleteCluster_ok hrun with rfl | ⟨_, _, _, -, rfl⟩
      · exact h
      · refine h.subset ?_
        rw [occurrences_drop]
        exact List.filter_subset_self _
  | detachClusterFromStream clusterId streamId ownerId =>
      rcases detachClusterFromStream_ok hrun with rfl | ⟨_, _, _, -, -, -, -, hdb⟩
      · exact h
      · rw [hdb]
        refine h.subset fun o ho => ?_
        exact (mem_deleteOccurrences.mp (mem_occurrences_deleteClusters.mp ho).1).1
  | mergeClusters ownerId targetId sourceIds =>
      rcases mergeClusters_ok hrun with rfl | ⟨target, row, _, st, -, -, hst, rfl⟩
      · exact h
      · exact foldlM_ok (fun _ st => Formatted pf st.db)
          (fun _ _ _ _ hst hmerge => Formatted.mergeSource hst hmerge) h hst
  | updateClusterCentroid clusterId ownerId centroid =>
      obtain ⟨_, _, -, -, rfl⟩ := updateClusterCentroid_ok hrun
      exact h
  | setClusterCrop clusterId ownerId cropObject =>
      obtain ⟨_, _, -, -, rfl⟩ := setClusterCrop_ok hrun
      exact h
  | cascadeStream streamId =>
      obtain ⟨stream, -, hres⟩ := cascadeStream_ok hrun
      have hdb := congrArg (fun r => r.2.2) hres
      simp only at hdb
      rw [hdb]
      refine h.subset fun o ho => ?_
      exact (mem_deleteOccurrences.mp (cascadeClusters_occurrences _ _ ho)).1

theorem Reachable.formatted {ok : ℕ → Database K → Write K → Prop} (h : Reachable pf ok db) :
    Formatted pf db := by
  induction h with
  | empty => exact fun o ho => by cases ho
  | @step db _ fresh now w hw ih =>
      unfold Write.commit
      split
      · rename_i hrun
        exact ih.run hrun
      · exact ih

omit [DecidableEq K] in
/-- To format what has been formatted changes nothing. -/
theorem Formatted.toListArray_eq (h : Formatted pf db) (hfmt : ∀ x, pf.fmt (pf.fmt x) = pf.fmt x)
    {o : Occurrence K} (ho : o ∈ db.occurrences) : toListArray pf o.embedding = o.embedding := by
  obtain ⟨e, he⟩ := h o ho
  rw [he, toListArray, toListArray, List.map_map]
  exact List.map_congr_left fun x _ => hfmt x

/-! ### Conservation -/

/-- What a row says was seen, apart from when. -/
def sighting {K : Type} (o : Occurrence K) : Uuid × List K × K := (o.streamId, o.embedding, o.confidence)

/-- A merge that conserves the sightings of its clusters. A moved row is found at
its own time or some steps of `1e-4` later, and not more of them than the merged
clusters have rows in its stream. -/
structure Conserves (now : ℕ) (target : Uuid) (sources : List Uuid) (db db' : Database ℚ) : Prop where
  gone : ∀ c ∈ db'.clusters, c.id ∉ sources
  sightings : ((db'.occurrences.filter fun o => o.clusterId = target).map sighting).Perm
    ((db.occurrences.filter fun o => o.clusterId ∈ target :: sources).map sighting)
  kept : ∀ o ∈ db.occurrences, o.clusterId = target → o ∈ db'.occurrences
  moved : ∃ moved added, moved.Perm (db.occurrences.filter fun o => o.clusterId ∈ sources) ∧
    db'.occurrences = (db.occurrences.filter fun o => o.clusterId ∉ sources) ++ added ∧
    List.Forall₂ (fun r o : Occurrence ℚ => o.clusterId = target ∧ sighting o = sighting r ∧
      ∃ k : ℕ, k ≤ sightingsIn db (target :: sources) r.streamId ∧
        o.tSeconds = r.tSeconds + k / 10000) moved added
  row : ∃ c, db.clusterById target = some c ∧ db'.clusterById target =
    some { c with sampleCount := db'.countFor target, updatedAt := now }
  clusters : (db'.clusters.filter fun c => c.id ∉ target :: sources) =
    db.clusters.filter fun c => c.id ∉ target :: sources
  occurrences : (db'.occurrences.filter fun o => o.clusterId ∉ target :: sources) =
    db.occurrences.filter fun o => o.clusterId ∉ target :: sources

section Exact

variable {pf : Platform ℚ} {now : ℕ} {owner target : Uuid} {sources : List Uuid}
  {moved added : List (Occurrence ℚ)} {db db₁ : Database ℚ}

/-- A copy differs from its row by the target's ids and by the steps. -/
theorem copies_sighted (htimes : ExactTimes pf) (hfmt : ∀ x, pf.fmt (pf.fmt x) = pf.fmt x)
    (hstored : Formatted pf db) {bound : Uuid → ℕ}
    (h : Shifts pf now owner target bound sources moved added db db₁) :
    List.Forall₂ (fun r o : Occurrence ℚ => o.clusterId = target ∧ sighting o = sighting r ∧
      ∃ k : ℕ, k ≤ bound r.streamId ∧ o.tSeconds = r.tSeconds + k / 10000) moved added := by
  have hmoved : ∀ r ∈ moved, toListArray pf r.embedding = r.embedding := fun r hr =>
    hstored.toListArray_eq hfmt (List.mem_of_mem_filter (h.rows.mem_iff.mp hr))
  refine List.Forall₂.imp ?_ ((List.forall₂_and_left _ _).mpr ⟨hmoved, h.copies⟩)
  rintro r o ⟨hr, k, hk, rfl⟩
  exact ⟨rfl, by simp [sighting, movedRow, hr], k, hk, htimes.iterate k r.tSeconds⟩

theorem Shifts.conserves (htimes : ExactTimes pf) (hfmt : ∀ x, pf.fmt (pf.fmt x) = pf.fmt x)
    (hstored : Formatted pf db) {row : Cluster ℚ} (hrow : db.clusterById target = some row)
    (hne : target ∉ sources)
    (h : Shifts pf now owner target (sightingsIn db (target :: sources)) sources moved added db db₁) :
    Conserves now target sources db (db₁.recount now fun c => c.id = target) := by
  have hcopies := copies_sighted htimes hfmt hstored h
  have htarget : ∀ o ∈ added, o.clusterId = target := by
    intro o ho
    obtain ⟨r, hcopy⟩ := exists_of_forall₂ hcopies ho
    exact hcopy.1
  have hsame : added.map sighting = moved.map sighting := by
    refine (List.forall₂_eq_eq_eq ▸ List.forall₂_map_left_iff.mpr (List.forall₂_map_right_iff.mpr
      (hcopies.imp fun r o hcopy => ?_)) : moved.map sighting = added.map sighting).symm
    exact hcopy.2.1.symm
  have hbefore : (db₁.occurrences.filter fun o => o.clusterId = target) =
      (db.occurrences.filter fun o => o.clusterId = target) ++ added := by
    rw [h.occurrences, List.filter_append, List.filter_filter]
    congr 1
    · refine List.filter_congr fun o _ => ?_
      by_cases ho : o.clusterId = target
      · simp [ho, hne]
      · simp [ho]
    · exact List.filter_eq_self.mpr fun o ho => by simpa using htarget o ho
  have hids : ∀ c : Cluster ℚ, (if decide (c.id = target) then
      { c with sampleCount := db₁.countFor c.id, updatedAt := now } else c).id = c.id := by
    intro c
    split <;> rfl
  refine ⟨?_, ?_, ?_, ⟨moved, added, h.rows, h.occurrences, hcopies⟩, ⟨row, hrow, ?_⟩, ?_, ?_⟩
  · intro c hc
    obtain ⟨c₀, hc₀, rfl⟩ := mem_updateClusters hc
    rw [h.clusters, List.mem_filter] at hc₀
    rw [hids]
    simpa using hc₀.2
  · rw [recount, occurrences_updateClusters, hbefore, List.map_append, hsame, ← List.map_append]
    refine List.Perm.map _ (((List.Perm.refl _).append h.rows).trans ?_)
    refine List.filter_append_filter_perm (fun o ho => ?_) (fun o => ?_) _
    · have htarget : o.clusterId = target := by simpa using ho
      simpa [htarget] using hne
    · by_cases ho : o.clusterId = target <;> simp [ho]
  · intro o ho htarget
    have hmem : o ∈ db₁.occurrences := by
      rw [h.occurrences]
      exact List.mem_append_left _ (List.mem_filter.mpr ⟨ho, by simpa [htarget] using hne⟩)
    exact hmem
  · rw [clusterById_recount, clusterById_congr h.clusters, hrow]
    · have hid := (mem_of_clusterById hrow).2
      simp only [Option.map_some, hid, decide_true, if_true]
      rfl
    · intro c _ hid
      simpa [hid] using hne
  · rw [recount, filter_updateClusters, h.clusters, List.filter_filter]
    · refine List.filter_congr fun c _ => ?_
      by_cases hc : c.id = target <;> simp [hc]
    · intro c _ hc
      have hid : c.id = target := by simpa using hc
      simp [hid]
  · rw [recount, occurrences_updateClusters, h.occurrences, List.filter_append, List.filter_filter]
    have hnone : (added.filter fun o => o.clusterId ∉ target :: sources) = [] :=
      List.filter_eq_nil_iff.mpr fun o ho => by simp [htarget o ho]
    rw [hnone, List.append_nil]
    refine List.filter_congr fun o _ => ?_
    by_cases ho : o.clusterId = target <;> simp [ho]

/-- `merge_clusters` in a state of the service, the target not being among the
sources: it raises for a string that is no uuid and for nothing else, it leaves
the tables alone when it raises or refuses, and it conserves the sightings when
it goes through. -/
theorem merge_conserves (htimes : ExactTimes pf) (hfmt : ∀ x, pf.fmt (pf.fmt x) = pf.fmt x)
    (hdb : Reached pf db) (fresh : Uuid) (now : ℕ) {ownerId targetId : String}
    {sourceIds : List String}
    (hne : ∀ target, castUuid targetId = .ok target → target ∉ denoted sourceIds) :
    (∀ e, (Write.mergeClusters ownerId targetId sourceIds).run pf fresh now db = .error e →
      e = .invalidUuid ∧
        (Write.mergeClusters ownerId targetId sourceIds).commit pf fresh now db = db) ∧
    ∀ c, (Write.mergeClusters ownerId targetId sourceIds).run pf fresh now db = .ok c →
      (c.result = none → c.db = db) ∧
      ∀ m, c.result = some m → ∃ target, castUuid targetId = .ok target ∧
        Conserves now target (denoted sourceIds) db c.db := by
  rcases mergeClusters_cases pf now db ownerId targetId sourceIds with
    herror | hnone | ⟨⟨target, row, hown⟩, hsources⟩
  · have hrun : (Write.mergeClusters ownerId targetId sourceIds).run pf fresh now db =
        .error .invalidUuid := herror
    refine ⟨fun e he => ⟨?_, ?_⟩, fun c hc => ?_⟩
    · exact (Except.error.inj (hrun.symm.trans he)).symm
    · exact Write.commit_of_error hrun
    · cases hrun.symm.trans hc
  · have hrun : (Write.mergeClusters ownerId targetId sourceIds).run pf fresh now db =
        .ok ⟨none, db, []⟩ := hnone
    refine ⟨fun e he => ?_, fun c hc => ?_⟩
    · cases hrun.symm.trans he
    · cases hrun.symm.trans hc
      exact ⟨fun _ => rfl, fun m hm => absurd hm.symm (Option.some_ne_none m)⟩
  · obtain ⟨c, m, moved, added, db₁, hok, hm, hshift, hdb₁⟩ :=
      mergeClusters_shifts htimes.ends now hown hsources (hne target hown.cast)
    have hrun : (Write.mergeClusters ownerId targetId sourceIds).run pf fresh now db = .ok c := hok
    refine ⟨fun e he => ?_, fun c' hc => ?_⟩
    · cases hrun.symm.trans he
    · cases hrun.symm.trans hc
      refine ⟨fun hnone => ?_, fun m' _ => ⟨target, hown.cast, ?_⟩⟩
      · exact absurd (hm.symm.trans hnone) (Option.some_ne_none m)
      · rw [hdb₁]
        exact hshift.conserves htimes hfmt hdb.formatted hown.found (hne target hown.cast)

end Exact

/-- Two clusters of one owner, each seen once, in the same stream at the same time. -/
def sameInstant : Database ℚ :=
  let owner := (Uuid.fill 1).text
  let upsert : Write ℚ := .upsertCluster owner none false [1]
  let append : Write ℚ := .appendStreamOccurrences owner (Uuid.fill 2).text
    [⟨(Uuid.fill 3).text, [1], 5 / 2, 1⟩, ⟨(Uuid.fill 4).text, [1], 5 / 2, 1⟩]
  let db := upsert.commit .exact (.fill 3) 0 ⟨[], []⟩
  append.commit .exact (.fill 5) 2 (upsert.commit .exact (.fill 4) 1 db)

theorem sameInstant_reached : Reached Platform.exact sameInstant := by
  unfold sameInstant
  refine .step (.step (.step .empty _ 0 _ ⟨rfl, rfl⟩) _ 1 _ ⟨rfl, rfl⟩) _ 2 _ ⟨.inr ?_, trivial⟩
  intro it hit
  simp only [List.mem_cons, List.not_mem_nil, or_false] at hit
  rcases hit with rfl | rfl
  · exact ⟨Uuid.fill 3, _, by decide, rfl, Uuid.castUuid_text _⟩
  · exact ⟨Uuid.fill 4, _, by decide, rfl, Uuid.castUuid_text _⟩

/-- Whether a merge goes through can be computed. -/
theorem exists_merged {x : Except PyError (Commit ℚ (Option Merged))}
    (h : (x.toOption.bind (·.result)).isSome) : ∃ c m, x = .ok c ∧ c.result = some m := by
  obtain ⟨m, hm⟩ := Option.isSome_iff_exists.mp h
  cases x with
  | error e => cases hm
  | ok c => exact ⟨c, m, rfl, hm⟩

/-- The second cluster merged into the first: its row has to give way. -/
theorem merge_conserves_sameInstant : ∃ c m,
    (Write.mergeClusters (Uuid.fill 1).text (Uuid.fill 3).text [(Uuid.fill 4).text]).run
      Platform.exact (.fill 5) 3 sameInstant = .ok c ∧ c.result = some m ∧
      Conserves 3 (.fill 3) [.fill 4] sameInstant c.db := by
  let w : Write ℚ := .mergeClusters (Uuid.fill 1).text (Uuid.fill 3).text [(Uuid.fill 4).text]
  have hne : ∀ target, castUuid (Uuid.fill 3).text = .ok target →
      target ∉ denoted [(Uuid.fill 4).text] := by
    intro target htarget
    cases (Uuid.castUuid_text _).symm.trans htarget
    decide
  have hgoes : ((w.run Platform.exact (.fill 5) 3 sameInstant).toOption.bind (·.result)).isSome := by
    decide +kernel
  obtain ⟨c, m, hrun, hm⟩ := exists_merged hgoes
  obtain ⟨target, htarget, hconserves⟩ :=
    ((merge_conserves (fun _ => rfl) (fun _ => rfl) sameInstant_reached (.fill 5) 3 hne).2 c hrun).2 m hm
  cases (Uuid.castUuid_text _).symm.trans htarget
  exact ⟨c, m, hrun, hm, hconserves⟩

end FacesService
