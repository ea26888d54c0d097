import FacesService.Model.MergeTx
import FacesService.Store.Conservation

/-!
A merge while others append. A row that is committed for a source before the
merge reads the source's rows is copied, one that is committed for the target
stays. What is lost is what is committed for a source between the read and the
deletes, since the deletes are by cluster and not by what was read.
-/

namespace FacesService

open Prog Database Db Fallible

variable {K : Type} [DecidableEq K] {pf : Platform K} {now : ℕ}

def SqlAnswered (pf : Platform K) (now : ℕ) (q : Sql K) (t : Tx K) (r : Except PyError q.Answer)
    (t' : Tx K) : Prop :=
  Sql.answer pf now q t = (r, t')

theorem SqlAnswered.run {q : Sql K} {t t' : Tx K} {a : q.Answer}
    (h : SqlAnswered pf now q t (.ok a) t') : q.run pf now t = .ok (a, t') := by
  unfold SqlAnswered Sql.answer at h
  cases hrun : q.run pf now t with
  | error e =>
      rw [hrun] at h
      cases h
  | ok r =>
      rw [hrun] at h
      cases h
      rfl

/-! ### The appends -/

omit [DecidableEq K] in
def Database.rowsFor (db : Database K) (id : Uuid) : List (Occurrence K) :=
  db.occurrences.filter fun o => o.clusterId = id

theorem insertItems_prefix {ownerId streamId : String} {items : List (Item K)} {n m : ℕ}
    {db db' : Database K} (h : insertItems pf now ownerId streamId items n db = .ok (m, db')) :
    db.occurrences <+: db'.occurrences := by
  induction items generalizing n db with
  | nil =>
      cases h
      exact List.prefix_refl _
  | cons it items ih =>
      obtain ⟨_, _, _, _, db₁, -, -, -, hins, hrest⟩ := insertItems_cons h
      refine List.IsPrefix.trans ?_ (ih hrest)
      rcases insertOccurrenceIfNew_eq_ok hins with ⟨-, rfl, -⟩ | ⟨-, hins⟩
      · exact List.prefix_refl _
      · obtain ⟨-, -, rfl⟩ := insertOccurrence_eq_ok hins
        exact List.prefix_append _ _

/-- An append adds rows, and the merge sees the same ones. -/
theorem AppendCommits.rows {t t' : Tx K} (h : AppendCommits pf t t') :
    t'.read = t.read ∧
      t'.committed.occurrences = t.committed.occurrences ++ t.committed.addedBy t'.committed ∧
      t'.view.occurrences = t.view.occurrences ++ t.committed.addedBy t'.committed := by
  obtain ⟨now, ownerId, streamId, items, c, happend, -, rfl⟩ := h
  obtain ⟨db₁, owner, stream, hins, -, -, -, hdb⟩ := appendStreamOccurrences_ok happend
  refine ⟨rfl, ?_, rfl⟩
  have hrows : c.db.occurrences = db₁.occurrences := by
    rw [hdb]
    rfl
  obtain ⟨more, hmore⟩ := insertItems_prefix hins
  simp only [addedBy, hrows, ← hmore, List.drop_left]

/-- An append that adds no row for a cluster the merge has read already. -/
def CommitsElsewhere (pf : Platform K) (t t' : Tx K) : Prop :=
  AppendCommits pf t t' ∧ ∀ o ∈ t.committed.addedBy t'.committed, o.clusterId ∉ t.read

/-! ### The rows under way -/

/-- A row of a source and its copy for the target, at the same time or later. -/
def CopyOf (pf : Platform K) (now : ℕ) (owner target : Uuid) (r o : Occurrence K) : Prop :=
  ∃ k, o = movedRow pf now owner target r (pf.nudge^[k] r.tSeconds)

/-- The merge so far: the rows `moved` have their copies `added`, the rows `rest`
of the current source have been read, and no other row of a source is lost. -/
structure Moving (pf : Platform K) (now : ℕ) (owner target : Uuid) (current : Option Uuid) (t : Tx K)
    (moved added rest : List (Occurrence K)) : Prop where
  unread : target ∉ t.read
  untouched : ∀ id, id ≠ target → id ∉ t.read → t.view.rowsFor id = t.committed.rowsFor id
  kept : (t.view.rowsFor target).Perm (t.committed.rowsFor target ++ added)
  copies : List.Forall₂ (CopyOf pf now owner target) moved added
  taken : (moved ++ rest).Perm (t.committed.occurrences.filter fun o => o.clusterId ∈ t.read)
  gone : ∀ id ∈ t.read, current ≠ some id → t.view.rowsFor id = []

section Moving

variable {owner target : Uuid} {current : Option Uuid} {t t' : Tx K}
  {moved added rest : List (Occurrence K)}

omit [DecidableEq K] in
theorem Moving.start (db : Database K) : Moving pf now owner target none (Tx.start db) [] [] [] where
  unread := List.not_mem_nil
  untouched _ _ _ := rfl
  kept := by rw [List.append_nil]; exact .refl _
  copies := .nil
  taken := by simp [Tx.start]
  gone id hid := absurd hid List.not_mem_nil

/-- An append elsewhere keeps all of it. -/
theorem Moving.append (h : Moving pf now owner target current t moved added rest)
    (hstep : CommitsElsewhere pf t t') :
    Moving pf now owner target current t' moved added rest ∧ t'.read = t.read := by
  obtain ⟨happend, helsewhere⟩ := hstep
  obtain ⟨hread, hcommitted, hview⟩ := happend.rows
  set new := t.committed.addedBy t'.committed with hnew
  have hrows : ∀ id, t'.view.rowsFor id = t.view.rowsFor id ++ new.filter (·.clusterId = id) ∧
      t'.committed.rowsFor id = t.committed.rowsFor id ++ new.filter (·.clusterId = id) := by
    intro id
    simp only [rowsFor, hview, hcommitted, List.filter_append, and_self]
  have hnone : (new.filter fun o => o.clusterId ∈ t.read) = [] :=
    List.filter_eq_nil_iff.mpr fun o ho => by simpa using helsewhere o ho
  refine ⟨⟨hread ▸ h.unread, fun id hid hnot => ?_, ?_, h.copies, ?_, fun id hid hcurrent => ?_⟩, hread⟩
  · rw [(hrows id).1, (hrows id).2, h.untouched id hid (hread ▸ hnot)]
  · rw [(hrows target).1, (hrows target).2, List.append_assoc]
    refine (h.kept.append_right _).trans ?_
    rw [List.append_assoc]
    exact List.perm_append_comm.append_left _
  · rw [hread, hcommitted, List.filter_append, hnone, List.append_nil]
    exact h.taken
  · rw [hread] at hid
    have hfilter : (new.filter fun o => o.clusterId = id) = [] :=
      List.filter_eq_nil_iff.mpr fun o ho => by
        simpa using fun heq : o.clusterId = id => helsewhere o ho (heq ▸ hid)
    rw [(hrows id).1, h.gone id hid hcurrent, hfilter]
    rfl

theorem Moving.moves (h : Moving pf now owner target current t moved added rest)
    (hmoves : Relation.ReflTransGen (CommitsElsewhere pf) t t') :
    Moving pf now owner target current t' moved added rest ∧ t'.read = t.read := by
  induction hmoves with
  | refl => exact ⟨h, rfl⟩
  | tail _ hstep ih =>
      obtain ⟨h₁, hread₁⟩ := ih
      obtain ⟨h₂, hread₂⟩ := h₁.append hstep
      exact ⟨h₂, hread₂.trans hread₁⟩

omit [DecidableEq K] in
/-- Reading the rows of a source that is not the target. -/
theorem Moving.read (h : Moving pf now owner target none t moved added []) {id : Uuid}
    (hne : id ≠ target) :
    Moving pf now owner target (some id) { t with read := id :: t.read } moved added
      (pf.scan id (t.view.rowsFor id)) where
  unread := by
    rw [List.mem_cons, not_or]
    exact ⟨Ne.symm hne, h.unread⟩
  untouched id' hid' hnot := h.untouched id' hid' fun hmem => hnot (List.mem_cons_of_mem _ hmem)
  kept := h.kept
  copies := h.copies
  taken := by
    have htaken := h.taken
    rw [List.append_nil] at htaken
    refine (htaken.append (pf.scan_perm id _)).trans ?_
    by_cases hread : id ∈ t.read
    · -- a source named twice has no rows left
      rw [h.gone id hread (by simp), List.append_nil]
      refine List.Perm.of_eq (List.filter_congr fun o _ => ?_)
      by_cases ho : o.clusterId = id <;> simp [ho, hread]
    · rw [h.untouched id hne hread, rowsFor]
      refine List.filter_append_filter_perm (fun o ho => ?_) (fun o => ?_) _
      · have hmem : o.clusterId ∈ t.read := by simpa using ho
        simpa using fun heq : o.clusterId = id => hread (heq ▸ hmem)
      · by_cases ho : o.clusterId = id <;> simp [ho]
  gone id' hid' hcurrent := by
    have hne' : id' ≠ id := fun heq => hcurrent (by rw [heq])
    exact h.gone id' (List.mem_of_ne_of_mem hne' hid') (by simp)

/-- One row copied. -/
theorem Moving.insert {r : Occurrence K}
    (h : Moving pf now owner target current t moved added (r :: rest)) (k : ℕ) {db : Database K}
    (hinsert : t.view.insertOccurrence
      (movedRow pf now owner target r (pf.nudge^[k] r.tSeconds)) = .ok db) :
    Moving pf now owner target current { t with view := db } (moved ++ [r])
      (added ++ [movedRow pf now owner target r (pf.nudge^[k] r.tSeconds)]) rest := by
  obtain ⟨-, -, rfl⟩ := insertOccurrence_eq_ok hinsert
  set o := movedRow pf now owner target r (pf.nudge^[k] r.tSeconds)
  have hother : ∀ id, id ≠ target →
      Database.rowsFor { t.view with occurrences := t.view.occurrences ++ [o] } id =
        t.view.rowsFor id := by
    intro id hid
    have hnot : ¬ o.clusterId = id := fun heq => hid heq.symm
    simp only [rowsFor, List.filter_append]
    rw [List.filter_cons_of_neg (by simpa using hnot), List.filter_nil, List.append_nil]
  have hown : Database.rowsFor { t.view with occurrences := t.view.occurrences ++ [o] } target =
      t.view.rowsFor target ++ [o] := by
    have hyes : o.clusterId = target := rfl
    simp only [rowsFor, List.filter_append]
    rw [List.filter_cons_of_pos (by simpa using hyes), List.filter_nil]
  refine ⟨h.unread, fun id hid hnot => ?_, ?_, ?_, ?_, fun id hid hcurrent => ?_⟩
  · exact (hother id hid).trans (h.untouched id hid hnot)
  · rw [hown, ← List.append_assoc]
    exact h.kept.append_right _
  · exact List.rel_append h.copies (.cons ⟨k, rfl⟩ .nil)
  · have htaken := h.taken
    rw [List.append_assoc]
    exact htaken
  · have hne : id ≠ target := fun heq => h.unread (heq ▸ hid)
    exact (hother id hne).trans (h.gone id hid hcurrent)

end Moving

/-! ### The merge among appends -/

section Runs

variable {env : Tx K → Tx K → Prop} {owner target : Uuid} {current : Option Uuid} {t t' : Tx K}
  {moved added rest : List (Occurrence K)} {ownerId targetId : String}

/-- A statement that goes through, after some moves of the others. -/
theorem sql_inv {q : Sql K} {a : q.Answer} {log : List (Step (Sql K) Sql.Answer PyError (Tx K))}
    (h : Runs env (SqlAnswered pf now) (sql q) t log (.ok a) t') :
    ∃ t₁, Relation.ReflTransGen env t t₁ ∧ q.run pf now t₁ = .ok (a, t') := by
  obtain ⟨t₁, hmoves, hanswer, -⟩ := h.perform_inv
  exact ⟨t₁, hmoves, hanswer.run⟩

theorem runs_pure {α : Type} {a b : α} {log : List (Step (Sql K) Sql.Answer PyError (Tx K))}
    (h : Runs env (SqlAnswered pf now) (pure a) t log (.ok b) t') : b = a ∧ t' = t := by
  cases h
  exact ⟨rfl, rfl⟩

theorem timesTx_moving {st : MergeLocals K} {stream : Uuid} {times : List K}
    {log : List (Step (Sql K) Sql.Answer PyError (Tx K))}
    (h : Runs (CommitsElsewhere pf) (SqlAnswered pf now) (timesTx targetId st stream) t log
      (.ok times) t') (hm : Moving pf now owner target current t moved added rest) :
    Moving pf now owner target current t' moved added rest ∧ t'.read = t.read := by
  unfold timesTx at h
  split at h
  · obtain ⟨-, rfl⟩ := runs_pure h
    exact ⟨hm, rfl⟩
  · obtain ⟨t₁, hmoves, hrun⟩ := sql_inv h
    obtain ⟨id, -, hrun⟩ := bind_eq_ok.mp hrun
    cases hrun
    exact hm.moves hmoves

/-- A row of the current source gets its copy. -/
theorem moveRowTx_moving (howner : castUuid ownerId = .ok owner)
    (htarget : castUuid targetId = .ok target) {st st' : MergeLocals K} {r : Occurrence K}
    {log : List (Step (Sql K) Sql.Answer PyError (Tx K))}
    (h : Runs (CommitsElsewhere pf) (SqlAnswered pf now) (moveRowTx pf ownerId targetId st r) t log
      (.ok st') t') (hm : Moving pf now owner target current t moved added (r :: rest)) :
    ∃ o, Moving pf now owner target current t' (moved ++ [r]) (added ++ [o]) rest ∧
      t'.read = t.read := by
  unfold moveRowTx at h
  obtain ⟨times, t₁, _, _, htimes, h, -⟩ := h.bind_ok_inv
  obtain ⟨hm₁, hread₁⟩ := timesTx_moving htimes hm
  cases hprobe : Probe.probe pf.nudge times r.tSeconds with
  | none =>
      rw [hprobe] at h
      cases h
  | some time =>
      rw [hprobe] at h
      obtain ⟨⟨⟩, t₂, _, _, hinsert, h, -⟩ := h.bind_ok_inv
      obtain ⟨-, rfl⟩ := runs_pure h
      obtain ⟨t₃, hmoves, hrun⟩ := sql_inv hinsert
      obtain ⟨hm₃, hread₃⟩ := hm₁.moves hmoves
      obtain ⟨owner', howner', hrun⟩ := bind_eq_ok.mp hrun
      obtain ⟨target', htarget', hrun⟩ := bind_eq_ok.mp hrun
      obtain ⟨db, hins, hrun⟩ := bind_eq_ok.mp hrun
      cases hrun
      rw [howner] at howner'
      rw [htarget] at htarget'
      cases howner'
      cases htarget'
      obtain ⟨-, k, -, htime, -⟩ := Probe.probeFrom_eq_some hprobe
      rw [htime] at hins
      exact ⟨_, hm₃.insert k hins, hread₃.trans hread₁⟩

theorem moveRowsTx_moving (howner : castUuid ownerId = .ok owner)
    (htarget : castUuid targetId = .ok target) {rows : List (Occurrence K)} {st st' : MergeLocals K}
    {log : List (Step (Sql K) Sql.Answer PyError (Tx K))}
    (h : Runs (CommitsElsewhere pf) (SqlAnswered pf now)
      (rows.foldlM (moveRowTx pf ownerId targetId) st) t log (.ok st') t')
    (hm : Moving pf now owner target current t moved added rows) :
    ∃ more, Moving pf now owner target current t' (moved ++ rows) (added ++ more) [] ∧
      t'.read = t.read := by
  induction rows generalizing t st log moved added with
  | nil =>
      obtain ⟨-, rfl⟩ := runs_pure h
      exact ⟨[], by simpa using hm, rfl⟩
  | cons r rows ih =>
      rw [List.foldlM_cons] at h
      obtain ⟨st₁, t₁, _, _, hrow, hrest, -⟩ := h.bind_ok_inv
      obtain ⟨o, hm₁, hread₁⟩ := moveRowTx_moving howner htarget hrow hm
      obtain ⟨more, hm', hread'⟩ := ih hrest hm₁
      exact ⟨o :: more, by simpa using hm', hread'.trans hread₁⟩

omit [DecidableEq K] in
/-- Deleting the rows of the current source, or its cluster with them. -/
theorem Moving.delete {id : Uuid} (h : Moving pf now owner target current t moved added [])
    (hid : id ∈ t.read) (hcurrent : current = some id ∨ current = none) (view : Database K)
    (hview : view.occurrences = t.view.occurrences.filter fun o => o.clusterId ≠ id) :
    Moving pf now owner target none { t with view := view } moved added [] := by
  have hne : id ≠ target := fun heq => h.unread (heq ▸ hid)
  have hother : ∀ id', id' ≠ id → view.rowsFor id' = t.view.rowsFor id' := by
    intro id' hne'
    rw [rowsFor, hview, List.filter_filter, rowsFor]
    refine List.filter_congr fun o _ => ?_
    by_cases ho : o.clusterId = id'
    · simp [ho, hne']
    · simp [ho]
  refine ⟨h.unread, fun id' hid' hnot => ?_, ?_, h.copies, h.taken, fun id' hid' _ => ?_⟩
  · have hne' : id' ≠ id := fun heq => hnot (heq ▸ hid)
    exact (hother id' hne').trans (h.untouched id' hid' hnot)
  · change (view.rowsFor target).Perm _
    rw [hother target hne.symm]
    exact h.kept
  · by_cases heq : id' = id
    · change view.rowsFor id' = []
      rw [rowsFor, hview, List.filter_filter, List.filter_eq_nil_iff]
      simp [heq]
    · refine (hother id' heq).trans (h.gone id' hid' fun hcur => ?_)
      rcases hcurrent with hcur' | hcur' <;> rw [hcur'] at hcur
      · exact heq (Option.some.inj hcur).symm
      · cases hcur

theorem mergeSourceTx_moving (howner : castUuid ownerId = .ok owner)
    (htarget : castUuid targetId = .ok target) {cid : String} {id : Uuid}
    (hid : castUuid cid = .ok id) (hne : id ≠ target) {st st' : MergeLocals K}
    {log : List (Step (Sql K) Sql.Answer PyError (Tx K))}
    (h : Runs (CommitsElsewhere pf) (SqlAnswered pf now) (mergeSourceTx pf ownerId targetId st cid) t
      log (.ok st') t') (hm : Moving pf now owner target none t moved added []) :
    ∃ moved' added', Moving pf now owner target none t' moved' added' [] ∧
      t'.read = id :: t.read := by
  unfold mergeSourceTx at h
  obtain ⟨rows, t₁, _, _, hrows, h, -⟩ := h.bind_ok_inv
  obtain ⟨st₁, t₂, _, _, hmove, h, -⟩ := h.bind_ok_inv
  obtain ⟨⟨⟩, t₃, _, _, hdelete, h, -⟩ := h.bind_ok_inv
  obtain ⟨⟨⟩, t₄, _, _, hcluster, h, -⟩ := h.bind_ok_inv
  obtain ⟨-, rfl⟩ := runs_pure h
  -- the read
  obtain ⟨t₀, hmoves, hrun⟩ := sql_inv hrows
  obtain ⟨hm₀, hread₀⟩ := hm.moves hmoves
  obtain ⟨id', hid', hrun⟩ := bind_eq_ok.mp hrun
  rw [hid] at hid'
  cases hid'
  cases hrun
  have hm₁ := hm₀.read hne
  -- the copies
  obtain ⟨more, hm₂, hread₂⟩ := moveRowsTx_moving howner htarget hmove hm₁
  -- the deletes
  obtain ⟨t₂', hmoves₂, hrun₂⟩ := sql_inv hdelete
  obtain ⟨hm₂', hread₂'⟩ := hm₂.moves hmoves₂
  obtain ⟨id', hid', hrun₂⟩ := bind_eq_ok.mp hrun₂
  rw [hid] at hid'
  cases hid'
  cases hrun₂
  have hmem : id ∈ t₂'.read := by
    rw [hread₂', hread₂]
    exact List.mem_cons_self
  have hm₃ := hm₂'.delete hmem (.inl rfl) (t₂'.view.deleteOccurrences fun o => o.clusterId = id)
    (List.filter_congr fun o _ => by simp)
  obtain ⟨t₃', hmoves₃, hrun₃⟩ := sql_inv hcluster
  obtain ⟨hm₃', hread₃'⟩ := hm₃.moves hmoves₃
  obtain ⟨id', hid', hrun₃⟩ := bind_eq_ok.mp hrun₃
  rw [hid] at hid'
  cases hid'
  cases hrun₃
  have hmem₃ : id ∈ t₃'.read := hread₃' ▸ hmem
  have hcascade : (t₃'.view.deleteClusters fun c => c.id = id).occurrences =
      t₃'.view.occurrences.filter fun o => o.clusterId ≠ id := by
    -- its rows are gone already, so the cascade finds none
    have hnone : ∀ o ∈ t₃'.view.occurrences, o.clusterId ≠ id := by
      have hgone := hm₃'.gone id hmem₃ (by simp)
      rw [rowsFor, List.filter_eq_nil_iff] at hgone
      exact fun o ho => by simpa using hgone o ho
    rw [List.filter_eq_self.mpr fun o ho => by simpa using hnone o ho]
    refine List.filter_eq_self.mpr fun o ho => ?_
    have hne' := hnone o ho
    simpa using fun c _ hcid heq => hne' (heq.symm.trans hcid)
  refine ⟨_, _, hm₃'.delete hmem₃ (.inr rfl) _ hcascade, ?_⟩
  change t₃'.read = id :: t.read
  rw [hread₃']
  change t₂'.read = id :: t.read
  rw [hread₂', hread₂]
  change id :: t₀.read = id :: t.read
  rw [hread₀]

theorem mergeSourcesTx_moving (howner : castUuid ownerId = .ok owner)
    (htarget : castUuid targetId = .ok target) {sourceIds : List String}
    (hne : target ∉ denoted sourceIds) {st st' : MergeLocals K}
    {log : List (Step (Sql K) Sql.Answer PyError (Tx K))}
    (h : Runs (CommitsElsewhere pf) (SqlAnswered pf now)
      (sourceIds.foldlM (mergeSourceTx pf ownerId targetId) st) t log (.ok st') t')
    (hm : Moving pf now owner target none t moved added []) :
    ∃ moved' added', Moving pf now owner target none t' moved' added' [] ∧
      ∀ id, id ∈ t'.read ↔ id ∈ t.read ∨ id ∈ denoted sourceIds := by
  induction sourceIds generalizing t st log moved added with
  | nil =>
      obtain ⟨-, rfl⟩ := runs_pure h
      exact ⟨moved, added, hm, by simp [denoted]⟩
  | cons cid sourceIds ih =>
      rw [List.foldlM_cons] at h
      obtain ⟨st₁, t₁, _, _, hone, hrest, -⟩ := h.bind_ok_inv
      have hcast : ∃ id, castUuid cid = .ok id := by
        obtain ⟨rows, t₂, _, _, hrows, -, -⟩ := (hone.bind_ok_inv)
        obtain ⟨t₀, -, hrun⟩ := sql_inv hrows
        obtain ⟨id, hid, -⟩ := bind_eq_ok.mp hrun
        exact ⟨id, hid⟩
      obtain ⟨id, hid⟩ := hcast
      rw [denoted_cons hid, List.mem_cons, not_or] at hne
      obtain ⟨moved₁, added₁, hm₁, hread₁⟩ :=
        mergeSourceTx_moving howner htarget hid (Ne.symm hne.1) hone hm
      obtain ⟨moved', added', hm', hread'⟩ := ih hne.2 hrest hm₁
      refine ⟨moved', added', hm', fun id' => ?_⟩
      rw [hread', hread₁, denoted_cons hid, List.mem_cons, List.mem_cons, or_comm (a := id' = id),
        or_assoc]

theorem verifySourcesTx_moving {sourceIds : List String} {b : Bool}
    {log : List (Step (Sql K) Sql.Answer PyError (Tx K))}
    (h : Runs (CommitsElsewhere pf) (SqlAnswered pf now) (verifySourcesTx ownerId sourceIds) t log
      (.ok b) t') (hm : Moving pf now owner target none t moved added []) :
    Moving pf now owner target none t' moved added [] ∧ t'.read = t.read := by
  induction sourceIds generalizing t log with
  | nil =>
      obtain ⟨-, rfl⟩ := runs_pure h
      exact ⟨hm, rfl⟩
  | cons cid sourceIds ih =>
      unfold verifySourcesTx at h
      obtain ⟨found, t₁, _, _, hfound, h, -⟩ := h.bind_ok_inv
      obtain ⟨t₀, hmoves, hrun⟩ := sql_inv hfound
      obtain ⟨id, -, hrun⟩ := bind_eq_ok.mp hrun
      cases hrun
      obtain ⟨hm₁, hread₁⟩ := hm.moves hmoves
      cases howner : (t₁.view.clusterById id).map (·.ownerId) with
      | none =>
          rw [howner] at h
          obtain ⟨-, rfl⟩ := runs_pure h
          exact ⟨hm₁, hread₁⟩
      | some found =>
          rw [howner] at h
          dsimp only at h
          split at h
          · obtain ⟨-, rfl⟩ := runs_pure h
            exact ⟨hm₁, hread₁⟩
          · obtain ⟨hm', hread'⟩ := ih h hm₁
            exact ⟨hm', hread'.trans hread₁⟩

/-- What a merge that goes through has moved by its end. -/
theorem mergeClustersTx_moving {sourceIds : List String} {db : Database K} {m : Merged}
    {log : List (Step (Sql K) Sql.Answer PyError (Tx K))} (htarget : castUuid targetId = .ok target)
    (hne : target ∉ denoted sourceIds)
    (h : Runs (CommitsElsewhere pf) (SqlAnswered pf now)
      (mergeClustersTx pf ownerId targetId sourceIds) (Tx.start db) log (.ok (some m)) t') :
    ∃ owner moved added, Moving pf now owner target none t' moved added [] ∧
      ∀ id, id ∈ t'.read ↔ id ∈ denoted sourceIds := by
  unfold mergeClustersTx at h
  obtain ⟨found, t₁, _, _, hfound, h, -⟩ := h.bind_ok_inv
  obtain ⟨t₀, hmoves, hrun⟩ := sql_inv hfound
  obtain ⟨id, -, hrun⟩ := bind_eq_ok.mp hrun
  cases hrun
  cases howner : (t₁.view.clusterById id).map (·.ownerId) with
  | none =>
      rw [howner] at h
      cases (runs_pure h).1
  | some owner =>
      obtain ⟨hm₁, hread₁⟩ := (Moving.start db : Moving pf now owner target none _ _ _ _).moves hmoves
      rw [howner] at h
      dsimp only at h
      split at h
      · cases (runs_pure h).1
      · rename_i hsame
        rw [not_not] at hsame
        obtain ⟨verified, t₂, _, _, hverify, h, -⟩ := h.bind_ok_inv
        obtain ⟨hm₂, hread₂⟩ := verifySourcesTx_moving hverify hm₁
        split at h
        · obtain ⟨affected, t₃, _, _, haffected, h, -⟩ := h.bind_ok_inv
          obtain ⟨st, t₄, _, _, hmerge, h, -⟩ := h.bind_ok_inv
          obtain ⟨⟨⟩, t₅, _, _, hrecount, h, -⟩ := h.bind_ok_inv
          obtain ⟨-, rfl⟩ := runs_pure h
          obtain ⟨t₂', hmoves₂, hrun₂⟩ := sql_inv haffected
          obtain ⟨_, -, hrun₂⟩ := bind_eq_ok.mp hrun₂
          cases hrun₂
          obtain ⟨hm₃, hread₃⟩ := hm₂.moves hmoves₂
          have howner' : castUuid ownerId = .ok owner := by
            rw [← hsame, Uuid.castUuid_text]
          obtain ⟨moved, added, hm₄, hread₄⟩ := mergeSourcesTx_moving howner' htarget hne hmerge hm₃
          obtain ⟨t₄', hmoves₄, hrun₄⟩ := sql_inv hrecount
          obtain ⟨_, -, hrun₄⟩ := bind_eq_ok.mp hrun₄
          cases hrun₄
          obtain ⟨hm₅, hread₅⟩ := hm₄.moves hmoves₄
          -- the recount leaves the rows as they are
          refine ⟨owner, moved, added, ⟨hm₅.unread, hm₅.untouched, hm₅.kept, hm₅.copies, hm₅.taken,
            hm₅.gone⟩, fun id => ?_⟩
          change id ∈ t₄'.read ↔ _
          rw [hread₅, hread₄, hread₃, hread₂, hread₁]
          simp [Tx.start]
        · cases (runs_pure h).1

end Runs

/-! ### What is kept -/

/-- The same sighting, at the same time or nudged on from it. -/
def SameSighting (pf : Platform K) (o o' : Occurrence K) : Prop :=
  o'.streamId = o.streamId ∧ o'.confidence = o.confidence ∧
    (o'.embedding = o.embedding ∨ o'.embedding = toListArray pf o.embedding) ∧
    ∃ k, o'.tSeconds = pf.nudge^[k] o.tSeconds

/-- Every sighting that is committed for the target or a source has a row of the
target among those the merge commits. -/
def SightingsKept (pf : Platform K) (target : Uuid) (sources : List Uuid) (t : Tx K) : Prop :=
  ∀ o ∈ t.committed.occurrences, o.clusterId ∈ target :: sources →
    ∃ o' ∈ t.view.occurrences, o'.clusterId = target ∧ SameSighting pf o o'

omit [DecidableEq K] in
/-- Every row moved has its copy. -/
theorem exists_copy {owner target : Uuid} {moved added : List (Occurrence K)}
    (h : List.Forall₂ (CopyOf pf now owner target) moved added) {r : Occurrence K} (hr : r ∈ moved) :
    ∃ o ∈ added, CopyOf pf now owner target r o := by
  induction h with
  | nil => cases hr
  | @cons r₀ o moved added hcopy _ ih =>
      rcases List.mem_cons.mp hr with rfl | hr
      · exact ⟨o, List.mem_cons_self, hcopy⟩
      · obtain ⟨o', ho', hcopy'⟩ := ih hr
        exact ⟨o', List.mem_cons_of_mem _ ho', hcopy'⟩

/-- **A merge among appends.** In a merge during which nothing is appended for a
source after its rows have been read, no sighting of the target or of a source
is lost, and no two become one. -/
theorem merge_keeps_sightings {ownerId targetId : String} {sourceIds : List String} {target : Uuid}
    {db : Database K} {m : Merged} {log : List (Step (Sql K) Sql.Answer PyError (Tx K))} {t : Tx K}
    (htarget : castUuid targetId = .ok target) (hne : target ∉ denoted sourceIds)
    (h : Runs (CommitsElsewhere pf) (SqlAnswered pf now)
      (mergeClustersTx pf ownerId targetId sourceIds) (Tx.start db) log (.ok (some m)) t) :
    SightingsKept pf target (denoted sourceIds) t ∧ t.view.countFor target =
      t.committed.occurrences.countP fun o => o.clusterId ∈ target :: denoted sourceIds := by
  obtain ⟨owner, moved, added, hm, hread⟩ := mergeClustersTx_moving htarget hne h
  have htaken : moved.Perm (t.committed.occurrences.filter fun o =>
      o.clusterId ∈ denoted sourceIds) := by
    have htaken := hm.taken
    rw [List.append_nil] at htaken
    refine htaken.trans (List.Perm.of_eq (List.filter_congr fun o _ => ?_))
    simp [hread]
  constructor
  · intro o ho hmem
    rcases List.mem_cons.mp hmem with hid | hid
    · have hkept : o ∈ t.view.rowsFor target := hm.kept.mem_iff.mpr
        (List.mem_append_left _ (List.mem_filter.mpr ⟨ho, by simpa using hid⟩))
      exact ⟨o, (List.mem_filter.mp hkept).1, hid, rfl, rfl, .inl rfl, 0, rfl⟩
    · have hmoved : o ∈ moved := htaken.mem_iff.mpr (List.mem_filter.mpr ⟨ho, by simpa using hid⟩)
      obtain ⟨o', ho', k, rfl⟩ := exists_copy hm.copies hmoved
      have hkept : movedRow pf now owner target o (pf.nudge^[k] o.tSeconds) ∈ t.view.rowsFor target :=
        hm.kept.mem_iff.mpr (List.mem_append_right _ ho')
      exact ⟨_, (List.mem_filter.mp hkept).1, rfl, rfl, rfl, .inr rfl, k, rfl⟩
  · have hlength : added.length = t.committed.occurrences.countP fun o =>
        o.clusterId ∈ denoted sourceIds := by
      rw [← hm.copies.length_eq, htaken.length_eq, List.countP_eq_length_filter]
    have hrows := hm.kept.length_eq
    rw [List.length_append, hlength, rowsFor, rowsFor, ← List.countP_eq_length_filter,
      ← List.countP_eq_length_filter] at hrows
    rw [countFor, hrows, countP_mem_cons (fun o : Occurrence K => o.clusterId), Nat.add_right_inj]
    refine List.countP_congr fun o _ => ?_
    have hnot : o.clusterId ∈ denoted sourceIds → o.clusterId ≠ target := fun hmem heq =>
      hne (heq ▸ hmem)
    simpa using hnot

/-! ### Two merges to look at -/

/-- The append, where it goes through without waiting and `allowed` says so. -/
def Tx.appended (pf : Platform K) (allowed : Tx K → Occurrence K → Bool) (ownerId streamId : String)
    (items : List (Item K)) (t : Tx K) : Tx K :=
  match appendStreamOccurrences pf 4 t.committed ownerId streamId items with
  | .error _ => t
  | .ok c =>
      if ∀ o ∈ t.committed.addedBy c.db, (t.view.clusterById o.clusterId ≠ none ∧
          ∀ o' ∈ t.view.occurrences, o'.key ≠ o.key) ∧ allowed t o = true then
        { t with committed := c.db, view := t.view.catchUp t.committed c.db }
      else t

theorem Tx.appended_moves (pf : Platform K) (allowed : Tx K → Occurrence K → Bool)
    (ownerId streamId : String) (items : List (Item K)) (t : Tx K) :
    Relation.ReflTransGen (fun t t' => AppendCommits pf t t' ∧
        ∀ o ∈ t.committed.addedBy t'.committed, allowed t o = true) t
      (t.appended pf allowed ownerId streamId items) := by
  unfold Tx.appended
  cases happend : appendStreamOccurrences pf 4 t.committed ownerId streamId items with
  | error e => exact .refl
  | ok c =>
      dsimp only
      by_cases hfree : ∀ o ∈ t.committed.addedBy c.db, (t.view.clusterById o.clusterId ≠ none ∧
          ∀ o' ∈ t.view.occurrences, o'.key ≠ o.key) ∧ allowed t o = true
      · rw [if_pos hfree]
        exact .single ⟨⟨4, ownerId, streamId, items, c, happend, fun o ho => (hfree o ho).1, rfl⟩,
          fun o ho => (hfree o ho).2⟩
      · rw [if_neg hfree]

/-- A merge of the two clusters during which a sighting of the source is appended
before statement `n`, where it is allowed. -/
def racedMerge (allowed : Tx ℚ → Occurrence ℚ → Bool) (n : ℕ) :
    List (Step (Sql ℚ) Sql.Answer PyError (Tx ℚ)) × Except PyError (Option Merged) × Tx ℚ :=
  (mergeClustersTx .exact (Uuid.fill 1).text (Uuid.fill 3).text [(Uuid.fill 4).text]).interrupted
    (Sql.answer .exact 3) (Tx.appended .exact allowed (Uuid.fill 1).text (Uuid.fill 2).text
      [⟨(Uuid.fill 4).text, [1], 15 / 2, 1 / 2⟩]) n (Tx.start sameInstant)

theorem racedMerge_runs {allowed : Tx ℚ → Occurrence ℚ → Bool} {n : ℕ} {m : Merged}
    (h : (racedMerge allowed n).2.1 = .ok (some m)) :
    Runs (fun t t' => AppendCommits .exact t t' ∧
        ∀ o ∈ t.committed.addedBy t'.committed, allowed t o = true) (SqlAnswered .exact 3)
      (mergeClustersTx .exact (Uuid.fill 1).text (Uuid.fill 3).text [(Uuid.fill 4).text])
      (Tx.start sameInstant) (racedMerge allowed n).1 (.ok (some m)) (racedMerge allowed n).2.2 := by
  rw [← h]
  exact Runs.of_interrupted _ (fun _ _ => rfl)
    (fun t => t.appended_moves .exact allowed _ _ _) n _ _

/-- A sighting of the source that is there in time is moved with the others. -/
theorem merge_keeps_sightings_appended :
    SightingsKept .exact (.fill 3) (denoted [(Uuid.fill 4).text])
        (racedMerge (fun t o => o.clusterId ∉ t.read) 3).2.2 ∧
      (racedMerge (fun t o => o.clusterId ∉ t.read) 3).2.2.view.countFor (.fill 3) =
        (racedMerge (fun t o => o.clusterId ∉ t.read) 3).2.2.committed.occurrences.countP fun o =>
          o.clusterId ∈ Uuid.fill 3 :: denoted [(Uuid.fill 4).text] := by
  have hruns := @racedMerge_runs (fun t o => o.clusterId ∉ t.read) 3
    ⟨[(Uuid.fill 2).text], [(Uuid.fill 4).text]⟩ (by decide +kernel)
  simp only [decide_eq_true_eq] at hruns
  exact merge_keeps_sightings (Uuid.castUuid_text _) (by decide) hruns

/-- One that comes between the read and the deletes is deleted with the cluster. -/
theorem merge_loses_sighting :
    ¬ ∀ (pf : Platform ℚ) (now : ℕ) (db : Database ℚ) (ownerId targetId : String)
      (sourceIds : List String) (target : Uuid) (m : Merged)
      (log : List (Step (Sql ℚ) Sql.Answer PyError (Tx ℚ))) (t : Tx ℚ),
      Reached pf db → castUuid targetId = .ok target → target ∉ denoted sourceIds →
      Runs (AppendCommits pf) (SqlAnswered pf now) (mergeClustersTx pf ownerId targetId sourceIds)
        (Tx.start db) log (.ok (some m)) t →
      SightingsKept pf target (denoted sourceIds) t := by
  intro h
  have hruns := @racedMerge_runs (fun _ _ => true) 6
    ⟨[(Uuid.fill 2).text], [(Uuid.fill 4).text]⟩ (by decide +kernel)
  simp only [implies_true, and_true] at hruns
  have hkept := h _ _ _ _ _ _ _ _ _ _ sameInstant_reached (Uuid.castUuid_text _) (by decide) hruns
  obtain ⟨o', ho', -, -, hconfidence, -⟩ := hkept
    ⟨.fill 1, .fill 2, .fill 4, [1], 15 / 2, 1 / 2, 4⟩ (by decide +kernel) (by decide)
  have hall : ∀ o ∈ (racedMerge (fun _ _ => true) 6).2.2.view.occurrences, o.confidence = 1 := by
    decide +kernel
  rw [hall o' ho'] at hconfidence
  exact absurd hconfidence (by decide +kernel)

end FacesService
