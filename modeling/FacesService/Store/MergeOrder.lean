import FacesService.Store.Conservation

/-!
The places the target of a merge has taken in the end do not depend on the order
of its sources, on the order in which Postgres returns their rows, or on how the
sources are spread over calls. Individual rows do end up in different places.
-/

namespace FacesService

open Database Fallible Db Probe

variable {pf : Platform ℚ} {now : ℕ} {owner target : Uuid} {sources : List Uuid}
  {moved added : List (Occurrence ℚ)} {db db₁ : Database ℚ} {ownerId targetId : String}

/-- One call of a sequence. The platform has the order its rows come in. -/
structure MergeCall where
  pf : Platform ℚ
  fresh : Uuid
  now : ℕ
  sourceIds : List String

def MergeCall.commit (ownerId targetId : String) (db : Database ℚ) (call : MergeCall) : Database ℚ :=
  (Write.mergeClusters ownerId targetId call.sourceIds).commit call.pf call.fresh call.now db

/-- The database after calls into the same target. -/
def mergeCalls (ownerId targetId : String) (calls : List MergeCall) (db : Database ℚ) : Database ℚ :=
  calls.foldl (MergeCall.commit ownerId targetId) db

/-- The next place on exact times. -/
def exactLater (p : Uuid × ℚ) : Uuid × ℚ := (p.1, p.2 + 1 / 10000)

theorem ExactTimes.later_eq (h : ExactTimes pf) : later pf = exactLater :=
  funext fun p => congrArg (Prod.mk p.1) (h p.2)

/-! ### One call -/

/-- What the sources of later calls have is not touched. -/
theorem Shifts.rest {bound : Uuid → ℕ} {ids : List Uuid}
    (h : Shifts pf now owner target bound sources moved added db db₁)
    (hdisjoint : ∀ id ∈ sources, id ∉ ids) (hne : target ∉ ids) :
    (db₁.occurrences.filter fun o => o.clusterId ∈ ids) =
      db.occurrences.filter fun o => o.clusterId ∈ ids := by
  have hnone : (added.filter fun o => o.clusterId ∈ ids) = [] := by
    rw [List.filter_eq_nil_iff]
    intro o ho
    obtain ⟨r, hcopy⟩ := exists_of_forall₂ h.copies ho
    simpa [hcopy.clusterId] using hne
  rw [h.occurrences, List.filter_append, hnone, List.append_nil, List.filter_filter]
  refine List.filter_congr fun o _ => ?_
  by_cases ho : o.clusterId ∈ sources
  · simp [ho, hdisjoint _ ho]
  · simp [ho]

/-- A cluster that was no source is still its owner's. -/
theorem Shifts.owned {bound : Uuid → ℕ} {cid : String} {id : Uuid} {row : Cluster ℚ}
    (h : Shifts pf now owner target bound sources moved added db db₁) (hid : id ∉ sources)
    (hown : Owned db cid ownerId id row) :
    ∃ row', Owned (db₁.recount now fun c => c.id = target) cid ownerId id row' := by
  have hfound : db₁.clusterById id = some row := by
    rw [clusterById_congr h.clusters, hown.found]
    intro c _ hcid
    simpa [hcid] using hid
  refine ⟨_, hown.cast, by rw [clusterById_recount, hfound, Option.map_some], ?_⟩
  split
  · exact hown.owner
  · exact hown.owner

/-- A refused call leaves the tables alone. -/
theorem MergeCall.commit_of_refused (call : MergeCall)
    (h : ¬ ((∃ target row, Owned db targetId ownerId target row) ∧
      ∀ cid ∈ call.sourceIds, ∃ id source, Owned db cid ownerId id source)) :
    call.commit ownerId targetId db = db := by
  rcases mergeClusters_cases call.pf call.now db ownerId targetId call.sourceIds with
    herror | hnone | hgoes
  · exact Write.commit_of_error herror
  · have hrun : (Write.mergeClusters ownerId targetId call.sourceIds).run call.pf call.fresh call.now
        db = .ok ⟨none, db, []⟩ := hnone
    exact Write.commit_of_ok hrun
  · exact absurd hgoes h

/-- A call among clusters of the owner fills places from the rows of its sources. -/
theorem MergeCall.commit_of_owned {call : MergeCall} (hexact : ExactTimes call.pf)
    {row : Cluster ℚ} (hown : Owned db targetId ownerId target row)
    (hsources : ∀ cid ∈ call.sourceIds, ∃ id source, Owned db cid ownerId id source)
    (hne : target ∉ denoted call.sourceIds) :
    ∃ (moved added : List (Occurrence ℚ)) (db₁ : Database ℚ), Shifts call.pf call.now row.ownerId target
        (sightingsIn db (target :: denoted call.sourceIds)) (denoted call.sourceIds) moved added db db₁ ∧
      call.commit ownerId targetId db = (db₁.recount call.now fun c => c.id = target) ∧
      Fills exactLater (slots db target) (moved.map slot)
        (slots (call.commit ownerId targetId db) target) := by
  obtain ⟨c, m, moved, added, db₁, hok, -, hshift, hdb₁⟩ :=
    mergeClusters_shifts hexact.ends call.now hown hsources hne
  have hrun : (Write.mergeClusters ownerId targetId call.sourceIds).run call.pf call.fresh call.now
      db = .ok c := hok
  have hcommit : call.commit ownerId targetId db = db₁.recount call.now fun c => c.id = target :=
    (Write.commit_of_ok hrun).trans hdb₁
  refine ⟨moved, added, db₁, hshift, hcommit, ?_⟩
  rw [hcommit, ← hexact.later_eq]
  exact hshift.fills

/-! ### Several calls -/

theorem mergeCalls_fills {calls : List MergeCall} (hexact : ∀ call ∈ calls, ExactTimes call.pf)
    {row : Cluster ℚ} (hown : Owned db targetId ownerId target row)
    (hsources : ∀ cid ∈ calls.flatMap (·.sourceIds), ∃ id source, Owned db cid ownerId id source)
    (hnodup : (denoted (calls.flatMap (·.sourceIds))).Nodup)
    (hne : target ∉ denoted (calls.flatMap (·.sourceIds))) :
    ∃ moved : List (Occurrence ℚ), moved.Perm (db.occurrences.filter fun o =>
        o.clusterId ∈ denoted (calls.flatMap (·.sourceIds))) ∧
      Fills exactLater (slots db target) (moved.map slot)
        (slots (mergeCalls ownerId targetId calls db) target) := by
  induction calls generalizing db row with
  | nil => exact ⟨[], by simp [denoted], .nil⟩
  | cons call calls ih =>
      rw [List.flatMap_cons, denoted_append] at hnodup hne
      rw [List.flatMap_cons, denoted_append]
      rw [List.mem_append, not_or] at hne
      obtain ⟨-, hnodup', hdisjoint⟩ := List.nodup_append.mp hnodup
      have hlater : ∀ id ∈ denoted call.sourceIds, id ∉ denoted (calls.flatMap (·.sourceIds)) :=
        fun id hid hid' => hdisjoint id hid id hid' rfl
      obtain ⟨moved, added, db₁, hshift, hcommit, hfills⟩ := MergeCall.commit_of_owned
        (hexact call List.mem_cons_self) hown
        (fun cid hcid => hsources cid (by simp [hcid])) hne.1
      obtain ⟨row', hown'⟩ := hshift.owned hne.1 hown
      have hsources' : ∀ cid ∈ calls.flatMap (·.sourceIds), ∃ id source,
          Owned (call.commit ownerId targetId db) cid ownerId id source := by
        intro cid hcid
        obtain ⟨id, source, hown⟩ := hsources cid (by
          rw [List.flatMap_cons]
          exact List.mem_append_right _ hcid)
        obtain ⟨source', hown'⟩ := hshift.owned
          (fun hid => hlater id hid (mem_denoted.mpr ⟨cid, hcid, hown.cast⟩)) hown
        exact ⟨id, source', hcommit ▸ hown'⟩
      obtain ⟨moved', hrows', hfills'⟩ := ih
        (fun call hcall => hexact call (List.mem_cons_of_mem _ hcall)) (hcommit ▸ hown') hsources'
        hnodup' hne.2
      refine ⟨moved ++ moved', ?_, ?_⟩
      · have hrest : ((call.commit ownerId targetId db).occurrences.filter fun o =>
            o.clusterId ∈ denoted (calls.flatMap (·.sourceIds))) =
            db.occurrences.filter fun o => o.clusterId ∈ denoted (calls.flatMap (·.sourceIds)) := by
          rw [hcommit]
          exact hshift.rest hlater hne.2
        rw [hrest] at hrows'
        refine (hshift.rows.append hrows').trans ?_
        refine List.filter_append_filter_perm (fun o ho => ?_) (fun o => ?_) _
        · simpa using hlater _ (by simpa using ho)
        · simp [List.mem_append]
      · rw [List.map_append]
        exact hfills.append hfills'

/-- Where the target is not the owner's, no call does anything. -/
theorem mergeCalls_of_not_owned (calls : List MergeCall)
    (h : ¬ ∃ target row, Owned db targetId ownerId target row) :
    mergeCalls ownerId targetId calls db = db := by
  induction calls with
  | nil => rfl
  | cons call calls ih =>
      have hstay : call.commit ownerId targetId db = db :=
        call.commit_of_refused fun hgoes => h hgoes.1
      unfold mergeCalls
      rw [List.foldl_cons, hstay]
      exact ih

/-- The same sources in the same sequence of calls, or spread over others: the
target has the same places. -/
theorem mergeCalls_slots {calls calls' : List MergeCall} (htarget : castUuid targetId = .ok target)
    (hexact : ∀ call ∈ calls, ExactTimes call.pf) (hexact' : ∀ call ∈ calls', ExactTimes call.pf)
    (hsame : (calls.flatMap (·.sourceIds)).Perm (calls'.flatMap (·.sourceIds)))
    (hsources : ∀ cid ∈ calls.flatMap (·.sourceIds), ∃ id source, Owned db cid ownerId id source)
    (hnodup : (denoted (calls.flatMap (·.sourceIds))).Nodup)
    (hne : target ∉ denoted (calls.flatMap (·.sourceIds))) :
    slots (mergeCalls ownerId targetId calls db) target =
      slots (mergeCalls ownerId targetId calls' db) target := by
  by_cases howned : ∃ target row, Owned db targetId ownerId target row
  · obtain ⟨target', row, hown⟩ := howned
    cases htarget.symm.trans hown.cast
    have hids := denoted_perm hsame
    obtain ⟨moved, hrows, hfills⟩ := mergeCalls_fills hexact hown hsources hnodup hne
    obtain ⟨moved', hrows', hfills'⟩ := mergeCalls_fills hexact' hown
      (fun cid hcid => hsources cid (hsame.mem_iff.mpr hcid)) (hids.nodup_iff.mp hnodup)
      (fun hmem => hne (hids.mem_iff.mpr hmem))
    have hperm : moved.Perm moved' := by
      refine hrows.trans (List.Perm.trans (List.Perm.of_eq ?_) hrows'.symm)
      exact List.filter_congr fun o _ => by simp [hids.mem_iff]
    exact (hfills.perm (hperm.map slot)).unique hfills'
  · rw [mergeCalls_of_not_owned calls howned, mergeCalls_of_not_owned calls' howned]

/-- One call with its sources in another order, refused or not. -/
theorem mergeCall_slots {call call' : MergeCall} (htarget : castUuid targetId = .ok target)
    (hexact : ExactTimes call.pf) (hexact' : ExactTimes call'.pf)
    (hsame : call.sourceIds.Perm call'.sourceIds) (hne : target ∉ denoted call.sourceIds) :
    slots (call.commit ownerId targetId db) target =
      slots (call'.commit ownerId targetId db) target := by
  by_cases hgoes : (∃ target row, Owned db targetId ownerId target row) ∧
      ∀ cid ∈ call.sourceIds, ∃ id source, Owned db cid ownerId id source
  · obtain ⟨⟨target', row, hown⟩, hsources⟩ := hgoes
    cases htarget.symm.trans hown.cast
    have hids := denoted_perm hsame
    obtain ⟨moved, added, db₁, hshift, -, hfills⟩ :=
      MergeCall.commit_of_owned hexact hown hsources hne
    obtain ⟨moved', added', db₁', hshift', -, hfills'⟩ := MergeCall.commit_of_owned hexact' hown
      (fun cid hcid => hsources cid (hsame.mem_iff.mpr hcid)) (fun hmem => hne (hids.mem_iff.mpr hmem))
    have hperm : moved.Perm moved' := by
      refine hshift.rows.trans (List.Perm.trans (List.Perm.of_eq ?_) hshift'.rows.symm)
      exact List.filter_congr fun o _ => by simp [hids.mem_iff]
    exact (hfills.perm (hperm.map slot)).unique hfills'
  · rw [call.commit_of_refused hgoes, call'.commit_of_refused]
    exact fun hgoes' => hgoes ⟨hgoes'.1, fun cid hcid => hgoes'.2 cid (hsame.mem_iff.mp hcid)⟩

/-- Neither the order of the sources nor the order of the rows decides which
places of the target are taken, and as long as every source is a cluster of the
owner, no split into calls does. -/
theorem merge_order_irrelevant (htarget : castUuid targetId = .ok target) :
    (∀ call call' : MergeCall, ExactTimes call.pf → ExactTimes call'.pf →
      call.sourceIds.Perm call'.sourceIds → target ∉ denoted call.sourceIds →
      slots (call.commit ownerId targetId db) target =
        slots (call'.commit ownerId targetId db) target) ∧
    ∀ calls calls' : List MergeCall, (∀ call ∈ calls ++ calls', ExactTimes call.pf) →
      (calls.flatMap (·.sourceIds)).Perm (calls'.flatMap (·.sourceIds)) →
      (denoted (calls.flatMap (·.sourceIds))).Nodup →
      target ∉ denoted (calls.flatMap (·.sourceIds)) →
      (∀ cid ∈ calls.flatMap (·.sourceIds), ∃ id source, Owned db cid ownerId id source) →
      slots (mergeCalls ownerId targetId calls db) target =
        slots (mergeCalls ownerId targetId calls' db) target :=
  ⟨fun _ _ hexact hexact' hsame hne => mergeCall_slots htarget hexact hexact' hsame hne,
    fun _ _ hexact hsame hnodup hne hsources => mergeCalls_slots htarget
      (fun call hcall => hexact call (List.mem_append_left _ hcall))
      (fun call hcall => hexact call (List.mem_append_right _ hcall)) hsame hsources hnodup hne⟩

/-- A call on exact numbers. -/
def MergeCall.exact (sourceIds : List String) : MergeCall := ⟨.exact, .fill 9, 3, sourceIds⟩

/-- Three clusters of one owner seen at the same instant of one stream. -/
def threeAtOnce : Database ℚ where
  clusters := [.anonymous (.fill 3) (.fill 1) [1] 1, .anonymous (.fill 4) (.fill 1) [1] 1,
    .anonymous (.fill 5) (.fill 1) [1] 1]
  occurrences := [⟨.fill 1, .fill 2, .fill 3, [1], 5 / 2, 1, 0⟩,
    ⟨.fill 1, .fill 2, .fill 4, [1], 5 / 2, 1, 0⟩, ⟨.fill 1, .fill 2, .fill 5, [1], 5 / 2, 1, 0⟩]

/-- Two sources at once, and one after the other in the other order. -/
theorem merge_order_irrelevant_threeAtOnce :
    slots (mergeCalls (Uuid.fill 1).text (Uuid.fill 3).text
        [.exact [(Uuid.fill 4).text, (Uuid.fill 5).text]] threeAtOnce) (.fill 3) =
      slots (mergeCalls (Uuid.fill 1).text (Uuid.fill 3).text
        [.exact [(Uuid.fill 5).text], .exact [(Uuid.fill 4).text]] threeAtOnce) (.fill 3) := by
  refine (merge_order_irrelevant (Uuid.castUuid_text _)).2 _ _ ?_ ?_ (by decide) (by decide) ?_
  · intro call hcall t
    simp only [List.mem_append, List.mem_cons, List.not_mem_nil, or_false] at hcall
    rcases hcall with rfl | rfl | rfl <;> rfl
  · exact List.Perm.swap _ _ _
  · intro cid hcid
    simp only [MergeCall.exact, List.flatMap_cons, List.flatMap_nil, List.append_nil, List.mem_cons,
      List.not_mem_nil, or_false] at hcid
    rcases hcid with rfl | rfl
    · exact ⟨.fill 4, _, ⟨Uuid.castUuid_text _, rfl, rfl⟩⟩
    · exact ⟨.fill 5, _, ⟨Uuid.castUuid_text _, rfl, rfl⟩⟩

/-- With a source that is nobody's cluster the split matters: together the call is
refused as a whole, one by one the first source is merged. -/
theorem merge_split_matters :
    ¬ ∀ (db : Database ℚ) (ownerId targetId : String) (target : Uuid) (calls calls' : List MergeCall),
      Reached Platform.exact db → castUuid targetId = .ok target →
      (∀ call ∈ calls ++ calls', ExactTimes call.pf) →
      (calls.flatMap (·.sourceIds)).Perm (calls'.flatMap (·.sourceIds)) →
      (denoted (calls.flatMap (·.sourceIds))).Nodup →
      target ∉ denoted (calls.flatMap (·.sourceIds)) →
      slots (mergeCalls ownerId targetId calls db) target =
        slots (mergeCalls ownerId targetId calls' db) target := by
  intro h
  let split : List MergeCall := [.exact [(Uuid.fill 4).text], .exact [(Uuid.fill 7).text]]
  let joint : List MergeCall := [.exact [(Uuid.fill 4).text, (Uuid.fill 7).text]]
  have hsame := h sameInstant (Uuid.fill 1).text (Uuid.fill 3).text (.fill 3) split joint
    sameInstant_reached (Uuid.castUuid_text _) (by
      intro call hcall t
      simp only [split, joint, List.mem_append, List.mem_cons, List.not_mem_nil, or_false] at hcall
      rcases hcall with (rfl | rfl) | rfl <;> rfl) (.refl _) (by decide) (by decide)
  have hmoved : (Uuid.fill 2, (25001 : ℚ) / 10000) ∈
      slots (mergeCalls (Uuid.fill 1).text (Uuid.fill 3).text split sameInstant) (.fill 3) := by
    change ∃ o ∈ _, _
    decide +kernel
  rw [hsame] at hmoved
  have hnot : ¬ ∃ o ∈ (mergeCalls (Uuid.fill 1).text (Uuid.fill 3).text joint sameInstant).occurrences,
      o.clusterId = Uuid.fill 3 ∧ slot o = (Uuid.fill 2, (25001 : ℚ) / 10000) := by
    decide +kernel
  exact hnot hmoved

end FacesService
