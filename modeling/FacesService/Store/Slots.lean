import FacesService.Base.Filling
import FacesService.Base.Lists
import FacesService.Store.Merge

/-!
Where the rows of a merge go. The rows of the target are its taken places, a
place being a stream and a time, and every row of a source takes the next free
place of its stream. `occ_cache` has the taken times of the streams it has seen,
so a place that looks free is free, and the insert is never refused.
-/

namespace FacesService

open Database Fallible Db Probe

variable {K : Type}

/-- The place of a row. -/
def slot (o : Occurrence K) : Uuid × K := (o.streamId, o.tSeconds)

/-- The taken places of a cluster. -/
def slots (db : Database K) (target : Uuid) : Set (Uuid × K) :=
  {p | ∃ o ∈ db.occurrences, o.clusterId = target ∧ slot o = p}

/-- The next place of a stream. -/
def later (pf : Platform K) (p : Uuid × K) : Uuid × K := (p.1, pf.nudge p.2)

theorem later_iterate (pf : Platform K) (k : ℕ) (stream : Uuid) (t : K) :
    (later pf)^[k] (stream, t) = (stream, pf.nudge^[k] t) := by
  induction k generalizing t with
  | zero => rfl
  | succ k ih => exact ih (pf.nudge t)

theorem mem_occupied {db : Database K} {target stream : Uuid} {t : K} :
    t ∈ occupied db target stream ↔ (stream, t) ∈ slots db target := by
  simp only [occupied, slots, slot, List.mem_map, List.mem_filter, Bool.and_eq_true, decide_eq_true_eq,
    Set.mem_ofPred_eq, Prod.mk.injEq]
  constructor
  · rintro ⟨o, ⟨ho, hid, hstream⟩, rfl⟩
    exact ⟨o, ho, hid, hstream, rfl⟩
  · rintro ⟨o, ho, hid, hstream, rfl⟩
    exact ⟨o, ⟨ho, hid, hstream⟩, rfl⟩

theorem slots_congr {db db' : Database K} {target : Uuid}
    (h : ∀ o : Occurrence K, o.clusterId = target → (o ∈ db.occurrences ↔ o ∈ db'.occurrences)) :
    slots db target = slots db' target := by
  ext p
  simp only [slots, Set.mem_ofPred_eq]
  constructor
  · rintro ⟨o, ho, hid, rfl⟩
    exact ⟨o, (h o hid).mp ho, hid, rfl⟩
  · rintro ⟨o, ho, hid, rfl⟩
    exact ⟨o, (h o hid).mpr ho, hid, rfl⟩

theorem slots_append (db : Database K) (target : Uuid) {o : Occurrence K} (ho : o.clusterId = target) :
    slots { db with occurrences := db.occurrences ++ [o] } target = insert (slot o) (slots db target) := by
  ext p
  simp only [slots, Set.mem_ofPred_eq, Set.mem_insert_iff, List.mem_append, List.mem_singleton]
  constructor
  · rintro ⟨o', ho' | rfl, hid, rfl⟩
    · exact .inr ⟨o', ho', hid, rfl⟩
    · exact .inl rfl
  · rintro (rfl | ⟨o', ho', hid, rfl⟩)
    · exact ⟨o, .inr rfl, ho, rfl⟩
    · exact ⟨o', .inl ho', hid, rfl⟩

theorem lookup_filter_ne {α β : Type} [DecidableEq α] {k k' : α} (hne : k ≠ k') (l : List (α × β)) :
    (l.filter fun e => e.1 ≠ k').lookup k = l.lookup k := by
  induction l with
  | nil => rfl
  | cons e l ih =>
      obtain ⟨a, b⟩ := e
      by_cases ha : a = k'
      · have hka : (k == a) = false := by
          rw [ha]
          simpa using hne
        rw [List.filter_cons_of_neg (by simpa using ha), ih, List.lookup_cons, hka]
      · rw [List.filter_cons_of_pos (by simpa using ha), List.lookup_cons, List.lookup_cons, ih]

/-! ### One row -/

/-- A row and what became of it: the same sighting, at most `bound` places later. -/
def CopiedAs (pf : Platform K) (now : ℕ) (owner target : Uuid) (bound : Uuid → ℕ)
    (r o : Occurrence K) : Prop :=
  ∃ k ≤ bound r.streamId, o = movedRow pf now owner target r (pf.nudge^[k] r.tSeconds)

/-- What is cached is what is in the table. -/
def CacheExact (target : Uuid) (st : MergeState K) : Prop :=
  ∀ stream times, st.occCache.lookup stream = some times →
    times.Perm (occupied st.db target stream)

theorem CacheExact.timesIn {target : Uuid} {st : MergeState K} (h : CacheExact target st)
    (stream : Uuid) : (st.timesIn target stream).Perm (occupied st.db target stream) := by
  unfold MergeState.timesIn
  cases hlookup : st.occCache.lookup stream with
  | none => exact .refl _
  | some times => exact h stream times hlookup

/-- A probe always ends. -/
def NudgeEnds [DecidableEq K] (pf : Platform K) : Prop :=
  ∀ times t, probe pf.nudge times t ≠ none

variable [DecidableEq K] {pf : Platform K} {now : ℕ} {owner target : Uuid}

theorem moveRow_spec (hends : NudgeEnds pf) (now : ℕ) (owner : Uuid) {st : MergeState K}
    (hcache : CacheExact target st) (htarget : st.db.clusterById target ≠ none) (r : Occurrence K) :
    ∃ st' t k, moveRow pf now owner target st r = .ok st' ∧ t = pf.nudge^[k] r.tSeconds ∧
      k ≤ (occupied st.db target r.streamId).length ∧
      st'.db = { st.db with occurrences := st.db.occurrences ++ [movedRow pf now owner target r t] } ∧
      CacheExact target st' ∧ Lands (later pf) (slots st.db target) (slot r) (r.streamId, t) := by
  have hperm := hcache.timesIn r.streamId
  unfold moveRow
  simp only
  cases hprobe : probe pf.nudge (st.timesIn target r.streamId) r.tSeconds with
  | none => exact absurd hprobe (hends _ _)
  | some t =>
      obtain ⟨hfree, k, hk, ht, htaken⟩ := probeFrom_eq_some hprobe
      have hfree' : (r.streamId, t) ∉ slots st.db target := fun hmem =>
        hfree (hperm.mem_iff.mpr (mem_occupied.mpr hmem))
      have hins : st.db.insertOccurrence (movedRow pf now owner target r t) =
          .ok { st.db with occurrences := st.db.occurrences ++ [movedRow pf now owner target r t] } := by
        have hkey : (st.db.occurrences.any fun o' => o'.key = (movedRow pf now owner target r t).key) =
            false := by
          rw [List.any_eq_false]
          intro o' ho' heq
          simp only [Occurrence.key, movedRow, decide_eq_true_eq, Prod.mk.injEq] at heq
          exact hfree' ⟨o', ho', heq.2.1, by simp [slot, heq.1, heq.2.2]⟩
        unfold insertOccurrence
        rw [hkey]
        cases hrow : st.db.clusterById target with
        | none => exact absurd hrow htarget
        | some row => simp [movedRow, hrow]
      let o := movedRow pf now owner target r t
      let st' : MergeState K :=
        { db := { st.db with occurrences := st.db.occurrences ++ [o] }
          affected := st.affected.insert r.streamId
          occCache := (r.streamId, t :: st.timesIn target r.streamId) ::
            st.occCache.filter fun entry => entry.1 ≠ r.streamId }
      refine ⟨st', t, k, ?_, ht, ?_, rfl, ?_, ?_⟩
      · change (st.db.insertOccurrence o >>= fun db => _) = _
        rw [hins]
        rfl
      · rw [← hperm.length_eq]
        omega
      · intro stream times hlookup
        have hocc : occupied st'.db target stream =
            occupied st.db target stream ++ if stream = r.streamId then [t] else [] := by
          unfold occupied
          rw [List.filter_append, List.map_append]
          congr 1
          by_cases hs : stream = r.streamId
          · simp [o, movedRow, hs]
          · simp [o, movedRow, hs, Ne.symm hs]
        rw [hocc]
        by_cases hs : stream = r.streamId
        · subst hs
          rw [List.lookup_cons_self] at hlookup
          cases hlookup
          rw [if_pos rfl]
          exact (List.Perm.cons t hperm).trans (List.perm_append_singleton t _).symm
        · have hbeq : (stream == r.streamId) = false := by simpa using hs
          rw [List.lookup_cons, hbeq] at hlookup
          simp only at hlookup
          rw [lookup_filter_ne hs] at hlookup
          rw [if_neg hs, List.append_nil]
          exact hcache stream times hlookup
      · refine ⟨hfree', k, ?_, fun j hj => ?_⟩
        · rw [slot, later_iterate, ht]
        · rw [slot, later_iterate]
          exact mem_occupied.mp (hperm.mem_iff.mp (htaken j hj))

/-! ### The rows of one source -/

omit [DecidableEq K] in
theorem CopiedAs.clusterId {bound : Uuid → ℕ} {r o : Occurrence K}
    (h : CopiedAs pf now owner target bound r o) : o.clusterId = target := by
  obtain ⟨k, -, rfl⟩ := h
  rfl

omit [DecidableEq K] in
theorem CopiedAs.streamId {bound : Uuid → ℕ} {r o : Occurrence K}
    (h : CopiedAs pf now owner target bound r o) : o.streamId = r.streamId := by
  obtain ⟨k, -, rfl⟩ := h
  rfl

theorem moveRows_spec (hends : NudgeEnds pf) (now : ℕ) (owner : Uuid) {bound : Uuid → ℕ}
    {rows : List (Occurrence K)} {st : MergeState K} (hcache : CacheExact target st) (htarget : st.db.clusterById target ≠ none)
    (hbound : ∀ s, (occupied st.db target s).length + rows.countP (·.streamId = s) ≤ bound s) :
    ∃ st' added, rows.foldlM (moveRow pf now owner target) st = .ok st' ∧
      st'.db = { st.db with occurrences := st.db.occurrences ++ added } ∧ CacheExact target st' ∧
      List.Forall₂ (CopiedAs pf now owner target bound) rows added ∧
      Fills (later pf) (slots st.db target) (rows.map slot) (slots st'.db target) := by
  induction rows generalizing st with
  | nil => exact ⟨st, [], rfl, by simp, hcache, .nil, .nil⟩
  | cons r rows ih =>
      obtain ⟨st₁, t, k, hmove, ht, hk, hdb, hcache₁, hland⟩ := moveRow_spec hends now owner
        hcache htarget r
      have hbound₁ : ∀ s, (occupied st₁.db target s).length + rows.countP (·.streamId = s) ≤ bound s := by
        intro s
        have hs := hbound s
        have hlen : (occupied st₁.db target s).length =
            (occupied st.db target s).length + if r.streamId = s then 1 else 0 := by
          unfold occupied
          rw [hdb, List.filter_append, List.map_append, List.length_append]
          by_cases hrs : r.streamId = s <;> simp [movedRow, hrs]
        rw [List.countP_cons] at hs
        rw [hlen]
        by_cases hrs : r.streamId = s
        · simp only [hrs, decide_true, if_true] at hs ⊢
          omega
        · simp only [hrs, decide_false, if_false] at hs ⊢
          simpa using hs
      have htarget₁ : st₁.db.clusterById target ≠ none := by
        rw [hdb]
        exact htarget
      obtain ⟨st', added, hrest, hdb', hcache', hcopies, hfills⟩ := ih hcache₁ htarget₁ hbound₁
      refine ⟨st', movedRow pf now owner target r t :: added, ?_, ?_, hcache', .cons ?_ hcopies, ?_⟩
      · rw [List.foldlM_cons, hmove]
        exact hrest
      · rw [hdb', hdb, List.append_assoc]
        rfl
      · refine ⟨k, ?_, by rw [ht]⟩
        have hr := hbound r.streamId
        omega
      · refine .cons hland ?_
        have hslots : slots st₁.db target = insert (r.streamId, t) (slots st.db target) := by
          rw [hdb]
          exact slots_append st.db target rfl
        rw [← hslots]
        exact hfills

theorem countP_of_forall₂ {α β : Type} {R : α → β → Prop} {p : α → Bool} {q : β → Bool} {l : List α}
    {l' : List β} (h : List.Forall₂ R l l') (hpq : ∀ a b, R a b → p a = q b) :
    l.countP p = l'.countP q := by
  induction h with
  | nil => rfl
  | cons hab _ ih => rw [List.countP_cons, List.countP_cons, ih, hpq _ _ hab]

theorem countP_add_le {α : Type} {p q r : α → Bool} (hdisjoint : ∀ x, p x = true → ¬ q x = true)
    (hp : ∀ x, p x = true → r x = true) (hq : ∀ x, q x = true → r x = true) (l : List α) :
    l.countP p + l.countP q ≤ l.countP r := by
  induction l with
  | nil => exact le_refl _
  | cons x l ih =>
      simp only [List.countP_cons]
      by_cases hpx : p x = true
      · simp [hpx, hdisjoint x hpx, hp x hpx]
        omega
      · by_cases hqx : q x = true
        · simp [hpx, hqx, hq x hqx]
          omega
        · simp [hpx, hqx]
          omega

theorem countP_pair {α : Type} {p : α → Bool} {f : α → Uuid} {a b : Uuid} (hne : a ≠ b) (l : List α) :
    (l.countP fun x => p x && f x ∈ [a, b]) =
      (l.countP fun x => p x && f x = a) + l.countP fun x => p x && f x = b := by
  induction l with
  | nil => rfl
  | cons x l ih =>
      simp only [List.countP_cons, ih]
      by_cases ha : f x = a
      · have hb : f x ≠ b := fun hb => hne (ha.symm.trans hb)
        simp [ha, hne]
        omega
      · simp [ha]
        omega

/-- The rows of the merged clusters in a stream. -/
def sightingsIn (db : Database K) (ids : List Uuid) (stream : Uuid) : ℕ :=
  db.occurrences.countP fun o => o.streamId = stream && o.clusterId ∈ ids

/-- What a merge of some sources did: their clusters are gone, and of their rows,
in the order they were taken, each has its copy among the rows of the target. -/
structure Shifts (pf : Platform K) (now : ℕ) (owner target : Uuid) (bound : Uuid → ℕ)
    (sources : List Uuid) (moved added : List (Occurrence K)) (db db' : Database K) : Prop where
  clusters : db'.clusters = db.clusters.filter fun c => c.id ∉ sources
  occurrences : db'.occurrences = (db.occurrences.filter fun o => o.clusterId ∉ sources) ++ added
  rows : moved.Perm (db.occurrences.filter fun o => o.clusterId ∈ sources)
  copies : List.Forall₂ (CopiedAs pf now owner target bound) moved added
  fills : Fills (later pf) (slots db target) (moved.map slot) (slots db' target)

omit [DecidableEq K] in
theorem Shifts.append {bound : Uuid → ℕ} {id : Uuid} {ids : List Uuid}
    {moved added moved' added' : List (Occurrence K)} {db db₁ db' : Database K}
    (h : Shifts pf now owner target bound [id] moved added db db₁)
    (h' : Shifts pf now owner target bound ids moved' added' db₁ db') (hne : target ∉ ids) :
    Shifts pf now owner target bound (id :: ids) (moved ++ moved') (added ++ added') db db' := by
  have hkept : ∀ o ∈ added, o.clusterId ∉ ids := by
    intro o ho
    obtain ⟨r, hcopy⟩ := exists_of_forall₂ h.copies ho
    exact hcopy.clusterId ▸ hne
  refine ⟨?_, ?_, ?_, List.rel_append h.copies h'.copies, ?_⟩
  · rw [h'.clusters, h.clusters, List.filter_filter]
    refine List.filter_congr fun c _ => ?_
    by_cases hc : c.id = id <;> simp [hc]
  · rw [h'.occurrences, h.occurrences, List.filter_append, List.filter_filter, List.append_assoc]
    congr 1
    · refine List.filter_congr fun o _ => ?_
      by_cases ho : o.clusterId = id <;> simp [ho]
    · rw [List.filter_eq_self.mpr fun o ho => by simpa using hkept o ho]
  · refine (h.rows.append h'.rows).trans ?_
    have hnone : (added.filter fun o => o.clusterId ∈ ids) = [] :=
      List.filter_eq_nil_iff.mpr fun o ho => by simpa using hkept o ho
    rw [h.occurrences, List.filter_append, hnone, List.append_nil, List.filter_filter]
    refine List.filter_append_filter_perm (fun o ho => ?_) (fun o => ?_) _
    · simpa using fun _ => ho
    · by_cases ho : o.clusterId = id <;> simp [ho]
  · rw [List.map_append]
    exact h.fills.append h'.fills

theorem mergeSource_spec (hends : NudgeEnds pf) (now : ℕ) (owner : Uuid) {bound : Uuid → ℕ}
    {st : MergeState K} {cid : String} {id : Uuid} (hid : castUuid cid = .ok id) (hne : target ≠ id) (hcache : CacheExact target st)
    (htarget : st.db.clusterById target ≠ none)
    (hbound : ∀ s, sightingsIn st.db [target, id] s ≤ bound s) :
    ∃ st' moved added, mergeSource pf now owner target st cid = .ok st' ∧ CacheExact target st' ∧
      Shifts pf now owner target bound [id] moved added st.db st'.db := by
  set rows := pf.scan id (st.db.occurrences.filter fun o => o.clusterId = id) with hrows
  have hperm : rows.Perm (st.db.occurrences.filter fun o => o.clusterId = id) := pf.scan_perm _ _
  have hroom : ∀ s, (occupied st.db target s).length + rows.countP (·.streamId = s) ≤ bound s := by
    intro s
    refine le_trans (le_of_eq ?_) (hbound s)
    unfold occupied sightingsIn
    rw [hperm.countP_eq, List.length_map, ← List.countP_eq_length_filter, List.countP_filter,
      countP_pair hne]
    congr 1
    refine List.countP_congr fun o _ => ?_
    simp [and_comm]
  obtain ⟨st₁, added, hmoves, hdb, hcache₁, hcopies, hfills⟩ :=
    moveRows_spec hends now owner hcache htarget hroom
  let db' := (st₁.db.deleteOccurrences fun o => o.clusterId = id).deleteClusters fun c => c.id = id
  have hkept : ∀ o ∈ added, o.clusterId ≠ id := by
    intro o ho
    obtain ⟨r, hcopy⟩ := exists_of_forall₂ hcopies ho
    exact hcopy.clusterId ▸ hne
  have hocc : db'.occurrences = (st.db.occurrences.filter fun o => o.clusterId ≠ id) ++ added := by
    rw [occurrences_drop, hdb, List.filter_append]
    congr 1
    exact List.filter_eq_self.mpr fun o ho => by simpa using hkept o ho
  have hslots : slots db' target = slots st₁.db target := by
    refine slots_congr fun o ho => ?_
    rw [occurrences_drop, List.mem_filter]
    simp [ho, hne]
  refine ⟨{ st₁ with db := db' }, rows, added, ?_, ?_, ?_, ?_, ?_, hcopies, ?_⟩
  · unfold mergeSource
    rw [hid, ok_bind]
    change (rows.foldlM (moveRow pf now owner target) st >>= _) = _
    rw [hmoves]
    rfl
  · intro stream times hlookup
    have hsame : occupied db' target stream = occupied st₁.db target stream := by
      unfold occupied
      rw [occurrences_drop, List.filter_filter]
      congr 1
      refine List.filter_congr fun o _ => ?_
      by_cases ho : o.clusterId = target
      · simp [ho, hne]
      · simp [ho]
    rw [hsame]
    exact hcache₁ stream times hlookup
  · simp only [db', clusters_drop, hdb, List.mem_singleton]
  · simpa using hocc
  · simpa using hperm
  · rw [hslots]
    exact hfills

/-! ### All sources -/

omit [DecidableEq K] in
theorem sightingsIn_le {bound : Uuid → ℕ} {id : Uuid} {ids : List Uuid} {moved added : List (Occurrence K)}
    {db db' : Database K} (h : Shifts pf now owner target bound [id] moved added db db')
    (s : Uuid) :
    sightingsIn db' (target :: ids) s ≤ sightingsIn db (target :: id :: ids) s := by
  have hadded : moved.countP (fun o => o.streamId = s) =
      added.countP fun o => o.streamId = s && o.clusterId ∈ target :: ids := by
    refine countP_of_forall₂ h.copies fun r o hcopy => ?_
    simp [hcopy.streamId, hcopy.clusterId]
  unfold sightingsIn
  rw [h.occurrences, List.countP_append, ← hadded, h.rows.countP_eq, List.countP_filter,
    List.countP_filter]
  refine countP_add_le ?_ ?_ ?_ _
  · intro o ho
    simp only [List.mem_singleton, Bool.and_eq_true, decide_eq_true_eq] at ho
    simpa using fun _ => ho.2
  · intro o ho
    simp only [Bool.and_eq_true, decide_eq_true_eq, List.mem_cons] at ho ⊢
    exact ⟨ho.1.1, ho.1.2.imp_right .inr⟩
  · intro o ho
    simp only [Bool.and_eq_true, decide_eq_true_eq, List.mem_cons, List.not_mem_nil, or_false] at ho ⊢
    exact ⟨ho.1, .inr (.inl ho.2)⟩

theorem mergeSources_spec (hends : NudgeEnds pf) (now : ℕ) (owner : Uuid) {bound : Uuid → ℕ}
    {sources : List String} {st : MergeState K} (hcast : ∀ cid ∈ sources, ∃ id, castUuid cid = .ok id)
    (hne : target ∉ denoted sources) (hcache : CacheExact target st)
    (htarget : st.db.clusterById target ≠ none)
    (hbound : ∀ s, sightingsIn st.db (target :: denoted sources) s ≤ bound s) :
    ∃ st' moved added, sources.foldlM (mergeSource pf now owner target) st = .ok st' ∧
      CacheExact target st' ∧ Shifts pf now owner target bound (denoted sources) moved added st.db st'.db := by
  induction sources generalizing st with
  | nil => exact ⟨st, [], [], rfl, hcache, by simp [denoted], by simp [denoted], by simp [denoted], .nil, .nil⟩
  | cons cid sources ih =>
      obtain ⟨id, hid⟩ := hcast cid List.mem_cons_self
      rw [denoted_cons hid] at hne hbound ⊢
      rw [List.mem_cons, not_or] at hne
      have hfirst : ∀ s, sightingsIn st.db [target, id] s ≤ bound s := by
        refine fun s => le_trans (List.countP_mono_left fun o _ ho => ?_) (hbound s)
        simp only [Bool.and_eq_true, decide_eq_true_eq, List.mem_cons, List.not_mem_nil, or_false] at ho ⊢
        exact ⟨ho.1, ho.2.imp_right .inl⟩
      obtain ⟨st₁, moved, added, hone, hcache₁, hshift⟩ :=
        mergeSource_spec hends now owner hid hne.1 hcache htarget hfirst
      have htarget₁ : st₁.db.clusterById target ≠ none := by
        intro hnone
        refine htarget (clusterById_eq_none.mpr fun c hc hcid => ?_)
        refine clusterById_eq_none.mp hnone c ?_ hcid
        rw [hshift.clusters, List.mem_filter]
        exact ⟨hc, by simpa [hcid] using hne.1⟩
      obtain ⟨st', moved', added', hrest, hcache', hshift'⟩ := ih
        (fun cid hcid => hcast cid (List.mem_cons_of_mem _ hcid)) hne.2 hcache₁ htarget₁
        fun s => (sightingsIn_le hshift s).trans (hbound s)
      refine ⟨st', moved ++ moved', added ++ added', ?_, hcache', ?_⟩
      · rw [List.foldlM_cons, hone]
        exact hrest
      · exact hshift.append hshift' hne.2

end FacesService
