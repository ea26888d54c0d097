import FacesService.Store.Merge

/-!
Who was seen where: the labels of the rows. A merge keeps every row but for its
label, and changes the label of a row only if it is a source's: the row is the
target's then. What is counted by label alone can so be told from the tables
before the merge.
-/

namespace FacesService

open Database Fallible Db

variable {K : Type}

/-- What a row says, apart from when and how the person looked. -/
structure Label where
  owner : Uuid
  stream : Uuid
  cluster : Uuid
  deriving DecidableEq

def Occurrence.label (o : Occurrence K) : Label := ⟨o.ownerId, o.streamId, o.clusterId⟩

def labels (db : Database K) : List Label := db.occurrences.map (·.label)

theorem countP_labels (db : Database K) (p : Label → Bool) :
    (labels db).countP p = db.occurrences.countP fun o => p o.label := List.countP_map

/-- The label after the sources have been merged into the target. -/
def Label.into (owner target : Uuid) (sources : List Uuid) (l : Label) : Label :=
  if l.cluster ∈ sources then ⟨owner, l.stream, target⟩ else l

theorem Label.into_into {owner target id : Uuid} {sources : List Uuid}
    (h : target ∉ sources) (l : Label) :
    (l.into owner target [id]).into owner target sources = l.into owner target (id :: sources) := by
  unfold Label.into
  by_cases hid : l.cluster = id
  · simp [hid, h]
  · simp [hid]

variable [DecidableEq K] {pf : Platform K} {now : ℕ} {owner target : Uuid}

omit [DecidableEq K] in
/-- The rows without those of one cluster, and without the cluster. -/
theorem occurrences_without (db : Database K) (id : Uuid) :
    ((db.deleteOccurrences fun o => o.clusterId = id).deleteClusters
        fun c => c.id = id).occurrences =
      db.occurrences.filter fun o => o.clusterId ≠ id := by
  change (db.occurrences.filter _).filter _ = _
  rw [List.filter_filter]
  apply List.filter_congr
  intro o _
  by_cases ho : o.clusterId = id
  · simp [ho]
  · have hne : ∀ c : Cluster K, c.id = id → c.id ≠ o.clusterId :=
      fun c hc heq => ho (heq.symm.trans hc)
    simpa [ho] using fun c _ hc => hne c hc

omit [DecidableEq K] in
theorem labels_of_copies {rows added : List (Occurrence K)}
    (h : List.Forall₂ (fun r o => ∃ t, o = movedRow pf now owner target r t) rows added) :
    added.map (·.label) = rows.map fun r => ⟨owner, r.streamId, target⟩ := by
  induction h with
  | nil => rfl
  | cons hcopy _ ih =>
      obtain ⟨t, rfl⟩ := hcopy
      rw [List.map_cons, List.map_cons, ih]
      rfl

theorem mergeSource_labels {st st' : MergeState K} {cid : String} {id : Uuid}
    (hid : castUuid cid = .ok id)
    (hne : target ≠ id) (h : mergeSource pf now owner target st cid = .ok st') :
    (labels st'.db).Perm ((labels st.db).map (Label.into owner target [id])) := by
  obtain ⟨id', st₁, hid', hrows, rfl⟩ := mergeSource_ok h
  cases hid.symm.trans hid'
  obtain ⟨added, hdb, hcopies⟩ := moveRows_ok hrows
  have hadded : (added.map (·.label)).Perm
      ((st.db.occurrences.filter fun o => o.clusterId = id).map fun r =>
          ⟨owner, r.streamId, target⟩) := by
    rw [labels_of_copies hcopies]
    exact (pf.scan_perm id _).map _
  have hkept : ∀ o ∈ added, o.clusterId ≠ id := fun o ho => (moved_of_copies hcopies o ho).1 ▸ hne
  have hocc : labels ((st₁.db.deleteOccurrences fun o => o.clusterId = id).deleteClusters
        fun c => c.id = id) =
      (st.db.occurrences.filter fun o => o.clusterId ≠ id).map (·.label) ++
          added.map (·.label) := by
    rw [labels, occurrences_without, hdb, List.filter_append, List.map_append]
    congr 2
    exact List.filter_eq_self.mpr fun o ho => by simpa using hkept o ho
  have hsplit : st.db.occurrences.Perm ((st.db.occurrences.filter fun o => o.clusterId ≠ id) ++
      st.db.occurrences.filter fun o => o.clusterId = id) := by
    apply List.Perm.symm
    apply (List.perm_append_comm).trans
    simpa using List.filter_append_perm (fun o : Occurrence K => decide (o.clusterId = id))
        st.db.occurrences
  change (labels (deleteClusters _ _)).Perm _
  rw [hocc, labels, List.map_map]
  apply ((hadded.append_left _).trans _).trans (hsplit.map _).symm
  rw [List.map_append]
  apply List.Perm.of_eq
  congr 1
  · apply List.map_congr_left
    intro o ho
    have hne : o.clusterId ≠ id := by simpa using (List.mem_filter.mp ho).2
    simp [Label.into, Occurrence.label, hne]
  · apply List.map_congr_left
    intro o ho
    have heq : o.clusterId = id := by simpa using (List.mem_filter.mp ho).2
    simp [Label.into, Occurrence.label, heq]

theorem mergeSources_labels {sources : List String} {st st' : MergeState K}
    (hne : target ∉ denoted sources)
    (h : sources.foldlM (mergeSource pf now owner target) st = .ok st') :
    (labels st'.db).Perm ((labels st.db).map (Label.into owner target (denoted sources))) := by
  induction sources generalizing st with
  | nil =>
      cases h
      have hid : Label.into owner target (denoted []) = id :=
          funext fun l => if_neg List.not_mem_nil
      rw [hid, List.map_id]
  | cons cid sources ih =>
      rw [List.foldlM_cons, bind_eq_ok] at h
      obtain ⟨st₁, hone, hrest⟩ := h
      obtain ⟨id, -, hid, -, -⟩ := mergeSource_ok hone
      rw [denoted_cons hid, List.mem_cons, not_or] at hne
      have hboth : Label.into owner target (denoted (cid :: sources)) =
          Label.into owner target (denoted sources) ∘ Label.into owner target [id] := by
        funext l
        rw [denoted_cons hid]
        exact (Label.into_into hne.2 l).symm
      rw [hboth, ← List.map_map]
      exact (ih hne.2 hrest).trans ((mergeSource_labels hid hne.1 hone).map _)

/-- **A merge relabels the rows of its sources**, and no others. -/
theorem mergeClusters_labels {db : Database K} {ownerId targetId : String} {sourceIds : List String}
    {c : Commit K (Option Merged)} {m : Merged}
    (h : mergeClusters pf now db ownerId targetId sourceIds = .ok c) (hm : c.result = some m)
    (htarget : castUuid targetId = .ok target) (hne : target ∉ denoted sourceIds) :
    ∃ row, Owned db targetId ownerId target row ∧
      (labels c.db).Perm ((labels db).map (Label.into row.ownerId target (denoted sourceIds))) := by
  obtain ⟨target', row, affected, st, hown, -, hst, hdb, -⟩ := mergeClusters_some h hm
  cases htarget.symm.trans hown.cast
  refine ⟨row, hown, ?_⟩
  rw [hdb]
  exact mergeSources_labels hne hst

end FacesService
