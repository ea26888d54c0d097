import FacesService.Model.RenameTx

/-!
Renames that race. With the unique index every interleaving of the statements of
`rename_cluster` comes to what the calls come to as single steps, in the order of
their commits (`renames_serialize`). A call that finds its name or its cluster gone
halfway may reply otherwise than the single step would, and then changes nothing.
-/

namespace FacesService.RenameTx

open Database Db Fallible

variable {ι K : Type} [DecidableEq ι] [DecidableEq K] {pf : Platform K} {calls : ι → Args}

/-! ### Calls as single steps -/

/-- The tables, and the replies so far. -/
structure Atomic (ι K : Type) where
  db : Database K
  replies : ι → Option Reply

def Atomic.answer (a : Atomic ι K) (i : ι) (r : Reply) : Atomic ι K :=
  { a with replies := Function.update a.replies i (some r) }

/-- `rename_cluster` as the transaction it is elsewhere. -/
abbrev Args.run (call : Args) (pf : Platform K) (now : ℕ) (db : Database K) :
    Except PyError (Commit K (Option (String × String))) :=
  renameCluster pf now db call.clusterId call.ownerId call.name

inductive Atomic.Step (pf : Platform K) (calls : ι → Args) : Atomic ι K → Atomic ι K → Prop
  | rename {a : Atomic ι K} (i : ι) {now : ℕ} {c : Commit K (Option (String × String))}
      (h : a.replies i = none) (hrun : (calls i).run pf now a.db = .ok c) :
      Atomic.Step pf calls a ({ a with db := c.db }.answer i (.ok c.result))
  | fails {a : Atomic ι K} (i : ι) {now : ℕ} {e : PyError} (h : a.replies i = none)
      (hrun : (calls i).run pf now a.db = .error e) : Atomic.Step pf calls a (a.answer i (.error e))
  /-- the index is quicker than the reply -/
  | violates {a : Atomic ι K} (i : ι) {now : ℕ} {c : Commit K (Option (String × String))}
      (h : a.replies i = none) (hrun : (calls i).run pf now a.db = .ok c)
      (htaken : c.result = some ("conflict", "name already in use")) :
      Atomic.Step pf calls a (a.answer i (.error .integrity))
  /-- another cluster of the owner has the name, whether or not the one to rename is there -/
  | taken {a : Atomic ι K} (i : ι) {id owner : Uuid} (h : a.replies i = none)
      (hid : castUuid (calls i).clusterId = .ok id) (howner : castUuid (calls i).ownerId = .ok owner)
      (htaken : nameTaken pf a.db owner id (storedName (calls i).name) = true) :
      Atomic.Step pf calls a (a.answer i (.ok (some ("conflict", "name already in use"))))
  /-- the cluster is gone -/
  | late {a : Atomic ι K} (i : ι) {id : Uuid} (h : a.replies i = none)
      (hid : castUuid (calls i).clusterId = .ok id) (hgone : a.db.clusterById id = none) :
      Atomic.Step pf calls a (a.answer i (.ok none))
  | others {a : Atomic ι K} {w : Write K} {fresh : Uuid} {now : ℕ} {c : Commit K w.Answer}
      (hw : w.isRename = false) (hsound : w.Sound a.db) (h : w.run pf fresh now a.db = .ok c) :
      Atomic.Step pf calls a { a with db := c.db }

/-- What the calls have come to, as single steps. -/
def Renames.atomic (s : Renames ι K) : Atomic ι K := ⟨s.db, fun i => (s.phases i).reply⟩

omit [DecidableEq K] in
theorem atomic_goto (s : Renames ι K) (i : ι) {p : Phase} (hp : p.reply = (s.phases i).reply) :
    (s.goto i p).atomic = s.atomic := by
  unfold Renames.atomic Renames.goto
  congr 1
  ext1 j
  by_cases hj : j = i
  · subst hj
    simp [hp]
  · simp [Function.update_of_ne hj]

omit [DecidableEq K] in
theorem atomic_done (s : Renames ι K) (i : ι) (r : Reply) :
    (s.goto i (.done r)).atomic = s.atomic.answer i r := by
  unfold Renames.atomic Renames.goto Atomic.answer
  congr 1
  ext1 j
  by_cases hj : j = i
  · subst hj
    simp [Phase.reply]
  · simp [Function.update_of_ne hj]

/-! ### What a call knows -/

/-- Every row of the id is the owner's. -/
def OwnedBy (db : Database K) (id : Uuid) (ownerId : String) : Prop :=
  ∀ c ∈ db.clusters, c.id = id → c.ownerId.text = ownerId

def Knows (pf : Platform K) (db : Database K) (call : Args) : Phase → Prop
  | .owned id owner => castUuid call.clusterId = .ok id ∧ owner.text = call.ownerId ∧ OwnedBy db id call.ownerId
  | .cleared id => castUuid call.clusterId = .ok id ∧ OwnedBy db id call.ownerId
  | .written id => ∃ row, Owned db call.clusterId call.ownerId id row ∧
      nameTaken pf db row.ownerId id (storedName call.name) = false
  | _ => True

/-- Two written rows keep apart: they are two, and do not get one name of one owner. -/
def Apart (pf : Platform K) (db : Database K) (call : Args) (id : Uuid) (other : Args) (id' : Uuid) : Prop :=
  id ≠ id' ∧ ∀ row row', db.clusterById id = some row → db.clusterById id' = some row' →
    row.ownerId = row'.ownerId → storedName call.name ≠ none →
      (storedName call.name).map pf.lower ≠ (storedName other.name).map pf.lower

structure Inv (pf : Platform K) (calls : ι → Args) (s : Renames ι K) : Prop where
  store : StoreInvariant s.db
  names : s.db.NamesUnique pf
  knows : ∀ i, Knows pf s.db (calls i) (s.phases i)
  apart : ∀ i j id id', i ≠ j → s.phases i = .written id → s.phases j = .written id' →
    Apart pf s.db (calls i) id (calls j) id'

section Apart

variable {db db' : Database K} {call other : Args} {id id' : Uuid}

omit [DecidableEq K] in
theorem Apart.symm (h : Apart pf db call id other id') : Apart pf db other id' call id := by
  refine ⟨h.1.symm, fun row row' hrow hrow' howner hname hsame => ?_⟩
  have hnone : storedName call.name = none := by
    by_contra hne
    exact h.2 row' row hrow' hrow howner.symm hne hsame.symm
  rw [hnone, Option.map_none, Option.map_eq_none_iff] at hsame
  exact hname hsame

omit [DecidableEq K] in
/-- Owners are all that matters of the tables. -/
theorem Apart.change (h : Apart pf db call id other id')
    (hid : (db'.clusterById id).map (·.ownerId) = (db.clusterById id).map (·.ownerId))
    (hid' : (db'.clusterById id').map (·.ownerId) = (db.clusterById id').map (·.ownerId)) :
    Apart pf db' call id other id' := by
  refine ⟨h.1, fun row row' hrow hrow' howner => ?_⟩
  rw [hrow, Option.map_some] at hid
  rw [hrow', Option.map_some] at hid'
  obtain ⟨row₀, hrow₀, howner₀⟩ := Option.map_eq_some_iff.mp hid.symm
  obtain ⟨row₀', hrow₀', howner₀'⟩ := Option.map_eq_some_iff.mp hid'.symm
  exact h.2 row₀ row₀' hrow₀ hrow₀' (by rw [howner₀, howner₀', howner])

omit [DecidableEq K] in
theorem apart_of_not_awaits (h : ¬ Awaits pf db call id other id') : Apart pf db call id other id' := by
  refine ⟨fun hid => h (.inl hid.symm), fun row₁ row' hrow₁ hrow' howner hname hsame => h (.inr ?_)⟩
  exact ⟨row₁, row', hrow₁, hrow', howner.symm, hname, .inr hsame.symm⟩

end Apart

omit [DecidableEq K] in
theorem Inv.goto {s : Renames ι K} (h : Inv pf calls s) (i : ι) {p : Phase} (hp : Knows pf s.db (calls i) p)
    (happart : ∀ id j id', p = .written id → j ≠ i → s.phases j = .written id' →
      Apart pf s.db (calls i) id (calls j) id') : Inv pf calls (s.goto i p) where
  store := h.store
  names := h.names
  knows j := by
    by_cases hj : j = i
    · subst hj
      simpa [Renames.goto] using hp
    · simpa [Renames.goto, Function.update_of_ne hj] using h.knows j
  apart j k id id' hjk hj hk := by
    change Apart pf s.db _ _ _ _
    change Function.update s.phases i p j = _ at hj
    change Function.update s.phases i p k = _ at hk
    by_cases hji : j = i
    · subst hji
      rw [Function.update_self] at hj
      rw [Function.update_of_ne hjk.symm] at hk
      exact happart id k id' hj hjk.symm hk
    · rw [Function.update_of_ne hji] at hj
      by_cases hki : k = i
      · subst hki
        rw [Function.update_self] at hk
        exact (happart id' j id hk hji hj).symm
      · rw [Function.update_of_ne hki] at hk
        exact h.apart j k id id' hjk hj hk

omit [DecidableEq K] in
theorem Inv.done {s : Renames ι K} (h : Inv pf calls s) (i : ι) (r : Reply) : Inv pf calls (s.goto i (.done r)) :=
  h.goto i trivial fun _ _ _ hp => nomatch hp

/-! ### The statements, as single steps -/

omit [DecidableEq K] in
theorem run_of_free {db : Database K} {call : Args} {id : Uuid} {row : Cluster K} (now : ℕ)
    (hown : Owned db call.clusterId call.ownerId id row)
    (hfree : nameTaken pf db row.ownerId id (storedName call.name) = false) :
    call.run pf now db = .ok ⟨none, renamed now db call id, [call.ownerId]⟩ := by
  unfold Args.run renameCluster
  rw [hown.cast, ok_bind, hown.found]
  simp [hown.owner, hown.castOwner, hfree, renamed]

omit [DecidableEq K] in
theorem run_of_taken {db : Database K} {call : Args} {id : Uuid} {row : Cluster K} (now : ℕ)
    (hown : Owned db call.clusterId call.ownerId id row)
    (htaken : nameTaken pf db row.ownerId id (storedName call.name) = true) :
    call.run pf now db = .ok ⟨some ("conflict", "name already in use"), db, []⟩ := by
  unfold Args.run renameCluster
  rw [hown.cast, ok_bind, hown.found]
  simp [hown.owner, hown.castOwner, htaken]

/-- One statement: the invariant, and the single step it is, if it is one. -/
abbrev Serves (pf : Platform K) (calls : ι → Args) (s s' : Renames ι K) : Prop :=
  Inv pf calls s' ∧ Relation.ReflTransGen (Atomic.Step pf calls) s.atomic s'.atomic

theorem serves_select {s : Renames ι K} (hs : Inv pf calls s) (i : ι) (h : s.phases i = .called) :
    Serves pf calls s (s.goto i (select s.db (calls i))) := by
  have hopen : s.atomic.replies i = none := by simp [Renames.atomic, h, Phase.reply]
  cases hid : castUuid (calls i).clusterId with
  | error e =>
      have hselect : select s.db (calls i) = .done (.error e) := by simp [select, hid]
      have hrun : (calls i).run pf 0 s.db = .error e := by simp [Args.run, renameCluster, hid]
      rw [hselect]
      refine ⟨hs.done i _, .single ?_⟩
      rw [atomic_done]
      exact .fails i hopen hrun
  | ok id =>
      have hrefused : select s.db (calls i) = .done (.ok (some ("not_found", "cluster not found"))) →
          (calls i).run pf 0 s.db = .ok ⟨some ("not_found", "cluster not found"), s.db, []⟩ →
          Serves pf calls s (s.goto i (select s.db (calls i))) := by
        intro hselect hrun
        rw [hselect]
        refine ⟨hs.done i _, .single ?_⟩
        rw [atomic_done]
        exact .rename i hopen hrun
      cases hrow : s.db.clusterById id with
      | none =>
          apply hrefused
          · simp [select, hid, hrow]
          · simp [Args.run, renameCluster, hid, hrow]
      | some row =>
          by_cases howner : row.ownerId.text = (calls i).ownerId
          · have hselect : select s.db (calls i) = .owned id row.ownerId := by
              simp [select, hid, hrow, howner]
            have hown : Owned s.db (calls i).clusterId (calls i).ownerId id row := ⟨hid, hrow, howner⟩
            have hall : OwnedBy s.db id (calls i).ownerId := by
              intro c hc hcid
              rw [owner_of_owned hs.store.ids hown hc hcid, howner]
            rw [hselect]
            refine ⟨hs.goto i ⟨hid, howner, hall⟩ (fun _ _ _ hp => nomatch hp), ?_⟩
            rw [atomic_goto s i (by simp [h, Phase.reply])]
          · apply hrefused
            · simp [select, hid, hrow, howner]
            · simp [Args.run, renameCluster, hid, hrow, howner]

theorem serves_check {s : Renames ι K} (hs : Inv pf calls s) (i : ι) {id owner : Uuid}
    (h : s.phases i = .owned id owner) : Serves pf calls s (s.goto i (check pf s.db (calls i) id owner)) := by
  have hopen : s.atomic.replies i = none := by simp [Renames.atomic, h, Phase.reply]
  have hknows := hs.knows i
  rw [h] at hknows
  obtain ⟨hid, howner, hall⟩ := hknows
  unfold check
  split
  · rename_i htaken
    have hcast : castUuid (calls i).ownerId = .ok owner := by rw [← howner, Uuid.castUuid_text]
    refine ⟨hs.done i _, .single ?_⟩
    rw [atomic_done]
    exact .taken i hopen hid hcast htaken
  · refine ⟨hs.goto i ⟨hid, hall⟩ (fun _ _ _ hp => nomatch hp), ?_⟩
    rw [atomic_goto s i (by simp [h, Phase.reply])]

theorem serves_update {s : Renames ι K} (hs : Inv pf calls s) (i : ι) {id : Uuid} (h : s.phases i = .cleared id)
    (hfree : ∀ j id', s.phases j = .written id' → ¬ Awaits pf s.db (calls i) id (calls j) id') :
    Serves pf calls s (s.goto i (update pf s.db (calls i) id)) := by
  have hopen : s.atomic.replies i = none := by simp [Renames.atomic, h, Phase.reply]
  have hknows := hs.knows i
  rw [h] at hknows
  obtain ⟨hid, hall⟩ := hknows
  cases hrow : s.db.clusterById id with
  | none =>
      have hupdate : update pf s.db (calls i) id = .done (.ok none) := by simp [update, hrow]
      rw [hupdate]
      refine ⟨hs.done i _, .single ?_⟩
      rw [atomic_done]
      exact .late i hopen hid hrow
  | some row =>
      obtain ⟨hmem, hrowid⟩ := mem_of_clusterById hrow
      have hown : Owned s.db (calls i).clusterId (calls i).ownerId id row := ⟨hid, hrow, hall row hmem hrowid⟩
      cases htaken : nameTaken pf s.db row.ownerId id (storedName (calls i).name) with
      | true =>
          have hupdate : update pf s.db (calls i) id = .done (.error .integrity) := by
            simp [update, hrow, htaken]
          rw [hupdate]
          refine ⟨hs.done i _, .single ?_⟩
          rw [atomic_done]
          exact .violates i hopen (run_of_taken 0 hown htaken) rfl
      | false =>
          have hupdate : update pf s.db (calls i) id = .written id := by simp [update, hrow, htaken]
          rw [hupdate]
          refine ⟨hs.goto i ⟨row, hown, htaken⟩ fun id₁ j id' hp _ hj => ?_, ?_⟩
          · cases hp
            exact apart_of_not_awaits (hfree j id' hj)
          · rw [atomic_goto s i (by simp [h, Phase.reply])]

/-! ### Changes of the tables -/

section Change

variable {db db' : Database K} {call : Args}

omit [DecidableEq K] in
theorem OwnedBy.change {id : Uuid} {ownerId : String} (h : OwnedBy db id ownerId)
    (hrows : ∀ c' ∈ db'.clusters, c'.id = id → ∃ c ∈ db.clusters, c.id = c'.id ∧ c.ownerId = c'.ownerId) :
    OwnedBy db' id ownerId := by
  intro c' hc' hid
  obtain ⟨c, hc, hcid, howner⟩ := hrows c' hc' hid
  rw [← howner]
  exact h c hc (hcid.trans hid)

omit [DecidableEq K] in
/-- What a call knows stays, if the rows of its cluster keep their owner, the row it has
written is as it was, and nobody else has come by its name. -/
theorem Knows.change {p : Phase} (h : Knows pf db call p)
    (hrows : ∀ id, castUuid call.clusterId = .ok id → ∀ c' ∈ db'.clusters, c'.id = id →
      ∃ c ∈ db.clusters, c.id = c'.id ∧ c.ownerId = c'.ownerId)
    (hwritten : ∀ id, p = .written id → db'.clusterById id = db.clusterById id)
    (hnames : ∀ id row, p = .written id → db.clusterById id = some row → storedName call.name ≠ none →
      ∀ c' ∈ db'.clusters, c'.ownerId = row.ownerId →
        c'.name.map pf.lower = (storedName call.name).map pf.lower →
          c' ∈ db.clusters ∨ ∃ c ∈ db.clusters, c.id = c'.id ∧ c.ownerId = c'.ownerId ∧ c.name = c'.name) :
    Knows pf db' call p := by
  cases p with
  | owned id owner => exact ⟨h.1, h.2.1, h.2.2.change (hrows id h.1)⟩
  | cleared id => exact ⟨h.1, h.2.change (hrows id h.1)⟩
  | written id =>
      obtain ⟨row, hown, hfree⟩ := h
      refine ⟨row, ⟨hown.cast, (hwritten id rfl).trans hown.found, hown.owner⟩, ?_⟩
      by_cases hname : storedName call.name = none
      · rw [hname]
        rfl
      · rw [nameTaken_eq_false hname] at hfree ⊢
        intro c' hc' howner hsame
        rcases hnames id row rfl hown.found hname c' hc' howner hsame with hc | ⟨c, hc, hid, ho, hn⟩
        · exact hfree c' hc howner hsame
        · rw [← hid]
          exact hfree c hc (ho.trans howner) (by rw [hn, hsame])
  | called => trivial
  | done reply => trivial

omit [DecidableEq K] in
theorem owner_renamed (now : ℕ) (call : Args) (id id' : Uuid) :
    ((renamed now db call id).clusterById id').map (·.ownerId) = (db.clusterById id').map (·.ownerId) := by
  unfold renamed
  rw [clusterById_updateClusters, Option.map_map]
  · congr 1
    ext1 c
    simp only [Function.comp_apply]
    split
    · rfl
    · rfl
  · exact fun _ => rfl

omit [DecidableEq K] in
theorem clusterById_renamed (now : ℕ) (call : Args) {id id' : Uuid} (hne : id' ≠ id) :
    (renamed now db call id).clusterById id' = db.clusterById id' := by
  unfold renamed
  rw [clusterById_updateClusters]
  · cases hrow : db.clusterById id' with
    | none => rfl
    | some row =>
        have hid : row.id ≠ id := fun h => hne ((mem_of_clusterById hrow).2.symm.trans h)
        simp [hid]
  · exact fun _ => rfl

end Change

theorem serves_commit {s : Renames ι K} (hs : Inv pf calls s) (i : ι) {id : Uuid} (h : s.phases i = .written id)
    (now : ℕ) : Serves pf calls s ({ s with db := renamed now s.db (calls i) id }.goto i (.done (.ok none))) := by
  have hopen : s.atomic.replies i = none := by simp [Renames.atomic, h, Phase.reply]
  have hknows := hs.knows i
  rw [h] at hknows
  obtain ⟨row, hown, hfree⟩ := hknows
  have hrun := run_of_free now hown hfree
  have hwrite : (Write.renameCluster (calls i).clusterId (calls i).ownerId (calls i).name).run pf id now s.db =
    .ok ⟨none, renamed now s.db (calls i) id, [(calls i).ownerId]⟩ := hrun
  have hstore : StoreInvariant (renamed now s.db (calls i) id) := by
    apply hs.store.run_sound _ hwrite
    trivial
  refine ⟨⟨hstore, hs.names.renameCluster hs.store.ids hrun, fun j => ?_,
    fun j k id₁ id₂ hjk hj hk => ?_⟩, .single ?_⟩
  · change Knows pf (renamed now s.db (calls i) id) (calls j) (Function.update s.phases i _ j)
    by_cases hj : j = i
    · subst hj
      rw [Function.update_self]
      trivial
    rw [Function.update_of_ne hj]
    apply (hs.knows j).change
    · intro _ _ c' hc' _
      obtain ⟨c, hc, rfl⟩ := mem_updateClusters hc'
      refine ⟨c, hc, ?_⟩
      split
      · exact ⟨rfl, rfl⟩
      · exact ⟨rfl, rfl⟩
    · intro id' hwritten
      exact clusterById_renamed now _ (hs.apart j i id' id hj hwritten h).1
    · intro id' row' hwritten hrow' hname c' hc' howner hsame
      obtain ⟨c, hc, rfl⟩ := mem_updateClusters hc'
      by_cases hid : c.id = id
      · -- the row that is committed now has another name
        rw [if_pos (decide_eq_true hid)] at howner hsame
        have hrow : c.ownerId = row.ownerId := owner_of_owned hs.store.ids hown hc hid
        have hapart := (hs.apart j i id' id hj hwritten h).2 row' row hrow' hown.found
        exact absurd hsame.symm (hapart (howner.symm.trans hrow) hname)
      · rw [if_neg (by simpa using hid)]
        exact .inl hc
  · change Apart pf (renamed now s.db (calls i) id) _ _ _ _
    change Function.update s.phases i _ j = _ at hj
    change Function.update s.phases i _ k = _ at hk
    by_cases hji : j = i
    · subst hji
      rw [Function.update_self] at hj
      cases hj
    by_cases hki : k = i
    · subst hki
      rw [Function.update_self] at hk
      cases hk
    rw [Function.update_of_ne hji] at hj
    rw [Function.update_of_ne hki] at hk
    exact (hs.apart j k id₁ id₂ hjk hj hk).change (owner_renamed now _ _ _) (owner_renamed now _ _ _)
  · rw [atomic_done]
    exact .rename i hopen hrun

theorem serves_others {s : Renames ι K} (hs : Inv pf calls s) {w : Write K} {fresh : Uuid} {now : ℕ}
    {c : Commit K w.Answer} (hw : w.isRename = false) (hsound : w.Sound s.db)
    (h : w.run pf fresh now s.db = .ok c)
    (hlocks : ∀ i id, s.phases i = .written id → c.db.clusterById id = s.db.clusterById id)
    (hfresh : ∀ i, castUuid (calls i).clusterId ≠ .ok fresh) :
    Serves pf calls s { s with db := c.db } := by
  refine ⟨⟨hs.store.run_sound hsound h, Write.run_namesUnique hs.store.ids hs.names hsound h, fun i => ?_,
    fun i j id id' hij hi hj => ?_⟩, .single (.others hw hsound h)⟩
  · apply (hs.knows i).change
    · intro id hid c' hc' hcid
      rcases Write.run_owner h hc' with ⟨-, hdrawn⟩ | hrow
      · exact absurd (hid.trans (congrArg Except.ok (hcid.symm.trans hdrawn))) (hfresh i)
      · exact hrow
    · exact fun id hwritten => hlocks i id hwritten
    · intro id row hwritten hrow hname c' hc' howner hsame
      rcases Write.run_inherits hw h c' hc' with hins | hrow'
      · have hnone : c'.name = none := by
          cases w with
          | upsertCluster ownerId name isNamed centroid => exact hins.2.trans hsound.1
          | _ => exact hins.elim
        rw [hnone, Option.map_none] at hsame
        exact absurd (Option.map_eq_none_iff.mp hsame.symm) hname
      · exact .inr hrow'
  · apply (hs.apart i j id id' hij hi hj).change
    · exact congrArg (Option.map (·.ownerId)) (hlocks i id hi)
    · exact congrArg (Option.map (·.ownerId)) (hlocks j id' hj)

/-! ### The race -/

theorem Step.serves {s s' : Renames ι K} (hs : Inv pf calls s) (h : Step pf calls s s') : Serves pf calls s s' := by
  cases h with
  | select i h => exact serves_select hs i h
  | check i h => exact serves_check hs i h
  | update i h hfree => exact serves_update hs i h hfree
  | commit i h now => exact serves_commit hs i h now
  | others hw hsound h hlocks hfresh => exact serves_others hs hw hsound h hlocks hfresh

/-- **Renames are as good as single steps**, thanks to the unique index: whatever way
the statements of any number of calls come between each other and between the
transactions of others, tables and replies are those of a run in which each call is one
step. At every moment the store invariant holds, and no owner has one name twice. -/
theorem renames_serialize {db : Database K} (hstore : StoreInvariant db) (hnames : db.NamesUnique pf)
    {s : Renames ι K} (h : Leads pf calls (.start ι db) s) :
    Relation.ReflTransGen (Atomic.Step pf calls) ⟨db, fun _ => none⟩ s.atomic ∧
      StoreInvariant s.db ∧ s.db.NamesUnique pf := by
  have hall : Inv pf calls s ∧
      Relation.ReflTransGen (Atomic.Step pf calls) (Renames.start ι db).atomic s.atomic := by
    induction h with
    | refl => exact ⟨⟨hstore, hnames, fun _ => trivial, fun _ _ _ _ _ hi => nomatch hi⟩, .refl⟩
    | tail _ hstep ih =>
        obtain ⟨hinv, hatomic⟩ := hstep.serves ih.1
        exact ⟨hinv, ih.2.trans hatomic⟩
  exact ⟨hall.2, hall.1.store, hall.1.names⟩

/-- Two nameless clusters of one owner. -/
def twoClusters : Database ℚ :=
  ⟨[.anonymous (.fill 3) (.fill 1) [0, 1] 0, .anonymous (.fill 4) (.fill 1) [1, 0] 0], []⟩

/-- Both are to get one name. -/
def sameName (second : Bool) : Args :=
  if second then ⟨(Uuid.fill 4).text, (Uuid.fill 1).text, some "ann "⟩
  else ⟨(Uuid.fill 3).text, (Uuid.fill 1).text, some "Ann"⟩

theorem twoClusters_invariant : StoreInvariant twoClusters where
  ids := by decide +kernel
  owned := fun _ ho => nomatch ho
  keys := List.nodup_nil
  named := by
    intro c hc
    have hname : c.name = none ∧ c.isNamed = false := by
      rcases List.mem_pair.mp hc with rfl | rfl
      · exact ⟨rfl, rfl⟩
      · exact ⟨rfl, rfl⟩
    simp [Cluster.WellNamed, hname]
  counts := by
    intro c hc _
    rcases List.mem_pair.mp hc with rfl | rfl
    · rfl
    · rfl

/-- Both clusters are found. -/
def bothOwned : Renames Bool ℚ :=
  ((Renames.start Bool twoClusters).goto false (select twoClusters (sameName false))).goto true
    (select twoClusters (sameName true))

/-- Both calls have found the name free. -/
def bothCleared : Renames Bool ℚ :=
  (bothOwned.goto false (check Platform.exact twoClusters (sameName false) (.fill 3) (.fill 1))).goto true
    (check Platform.exact twoClusters (sameName true) (.fill 4) (.fill 1))

/-- The first of them is through. -/
def firstRenamed : Renames Bool ℚ :=
  { bothCleared.goto false (.written (.fill 3)) with
    db := renamed 7 twoClusters (sameName false) (.fill 3) }.goto false (.done (.ok none))

theorem leads_firstRenamed : Leads Platform.exact sameName (.start Bool twoClusters) firstRenamed := by
  have howned : bothOwned.phases false = .owned (.fill 3) (.fill 1) := by decide +kernel
  have howned' : (bothOwned.goto false (check Platform.exact twoClusters (sameName false) (.fill 3)
      (.fill 1))).phases true = .owned (.fill 4) (.fill 1) := by
    decide +kernel
  have hcleared : ∀ second, bothCleared.phases second = .cleared (if second then .fill 4 else .fill 3) := by
    decide +kernel
  have hupdate : update Platform.exact twoClusters (sameName false) (.fill 3) = .written (.fill 3) := by
    decide +kernel
  apply Relation.ReflTransGen.head (.select false rfl)
  apply Relation.ReflTransGen.head (.select true rfl)
  apply Relation.ReflTransGen.head (.check false howned)
  apply Relation.ReflTransGen.head (.check true howned')
  have hfirst : Step Platform.exact sameName bothCleared (bothCleared.goto false (.written (.fill 3))) := by
    rw [← hupdate]
    refine .update false (hcleared false) fun j id' hj => ?_
    rw [hcleared j] at hj
    cases hj
  exact .head hfirst (.single (.commit false rfl 7))

/-- Whoever comes second is stopped by the index, though both have found the name free. -/
theorem renames_serialize_sameName : ∃ s : Renames Bool ℚ, s.phases true = .done (.error .integrity) ∧
    s.db.NamesUnique Platform.exact := by
  have hcleared : firstRenamed.phases true = .cleared (.fill 4) := by decide +kernel
  have hfirst : firstRenamed.phases false = .done (.ok none) := by decide +kernel
  have hstep : Step Platform.exact sameName firstRenamed (firstRenamed.goto true
      (update Platform.exact firstRenamed.db (sameName true) (.fill 4))) := by
    refine .update true hcleared fun j id' hj => ?_
    cases j with
    | true =>
        rw [hcleared] at hj
        cases hj
    | false =>
        rw [hfirst] at hj
        cases hj
  have hnames : twoClusters.NamesUnique Platform.exact := by
    intro c hc _ _ _ hname
    rcases List.mem_pair.mp hc with rfl | rfl
    · exact absurd rfl hname
    · exact absurd rfl hname
  refine ⟨_, ?_, (renames_serialize twoClusters_invariant hnames (leads_firstRenamed.tail hstep)).2.2⟩
  decide +kernel

end FacesService.RenameTx
