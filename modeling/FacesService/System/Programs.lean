import FacesService.Infer.Loop
import FacesService.System.Rules

/-!
The programs of the service keep to the rules, each beside any others: every write
is made under the id of a user whom the caller may act for, and an append is for
clusters that were that user's when they were found or made.
-/

namespace FacesService

open Prog Prog.Discipline Database Reader

variable {K : Type} [Arithmetic K]

/-! ### The rules -/

/-- The rules for the calls of the programs. -/
def callRules (pf : Platform K)  (supply : Supply)
    (acts : String → Prop) (w₀ : World K) : Discipline (Call K) Call.Answer PyError (World K) where
  answers op w r w' := Outcome pf supply.oracle op w r w' ∧ w'.draws ≤ supply.limit
  admits op w := op.Allowed acts w₀ w
  rely := Rely pf supply acts w₀
  refl _ h := ⟨h, fun _ _ hbelongs => hbelongs⟩
  trans h h' horder := by
    obtain ⟨horder₁, hbelongs₁⟩ := h horder
    obtain ⟨horder₂, hbelongs₂⟩ := h' horder₁
    exact ⟨horder₂, fun userId id hbelongs => hbelongs₂ userId id (hbelongs₁ userId id hbelongs)⟩
  guarantee hallowed hout := hout.1.effect.rely hallowed hout.2

section

variable {svc : Service K} {supply : Supply}
  {acts : String → Prop} {w₀ : World K}

/-- A program that keeps to the rules, whatever it returns. -/
abbrev Obeys (svc : Service K) (supply : Supply) (acts : String → Prop)
    (w₀ : World K) {α : Type} (P : World K → Prop) (p : Program K α) (Q : α → World K → Prop) : Prop :=
  (callRules svc.pf supply acts w₀).Maintains (InOrder svc.pf supply acts w₀) P p Q

/-- What a thread has learned, and nobody takes away. -/
def Lasting (supply : Supply) (P : World K → Prop) : Prop :=
  ∀ w w', (∀ userId id, Belongs supply userId id w → Belongs supply userId id w') → P w → P w'

omit [Arithmetic K] in
theorem Lasting.kept {pf : Platform K} {P : World K → Prop} (h : Lasting supply P) {w w' : World K}
    (hrely : Rely pf supply acts w₀ w w') (hw : InOrder pf supply acts w₀ w ∧ P w) :
    InOrder pf supply acts w₀ w' ∧ P w' := by
  obtain ⟨horder', hbelongs⟩ := hrely hw.1
  exact ⟨horder', h w w' hbelongs hw.2⟩

theorem Lasting.stable {P : World K → Prop} (h : Lasting supply P) :
    (callRules svc.pf supply acts w₀).Stable fun w => InOrder svc.pf supply acts w₀ w ∧ P w :=
  fun _ _ hrely hw => h.kept hrely hw

omit [Arithmetic K] in
theorem lasting_true : Lasting supply (fun _ : World K => True) := fun _ _ _ _ => trivial

/-- The ids, as far as they are such, belong to the user. -/
def AllBelong (supply : Supply) (userId : String) (ids : List String) (w : World K) : Prop :=
  ∀ s ∈ ids, ∀ id, castUuid s = .ok id → Belongs supply userId id w

omit [Arithmetic K] in
theorem lasting_allBelong (userId : String) (ids : List String) :
    Lasting supply (AllBelong (K := K) supply userId ids) :=
  fun _ _ h hall s hs id hid => h userId id (hall s hs id hid)

/-- A call that may be made anywhere. -/
def Free (acts : String → Prop) (w₀ : World K) (op : Call K) : Prop := ∀ w, op.Allowed acts w₀ w

/-- Calls that may be made anywhere take nothing away. -/
theorem Obeys.free {α : Type} {P : World K → Prop} {p : Program K α}
    (hp : p.Within (Free acts w₀) fun _ => True) (hP : Lasting supply P) :
    Obeys svc supply acts w₀ P p fun _ => P :=
  Maintains.of_within hp hP.stable fun _ w hop _ => hop w

/-! ### Answers -/

theorem Outcome.ok_or {pf : Platform K} {op : Call K} {r : Except PyError op.Answer} {w w' : World K}
    (h : Outcome pf supply.oracle op w r w') :
    (r = (answer pf supply.oracle op w).1 ∧ w' = (answer pf supply.oracle op w).2) ∨ (∃ e, r = .error e) ∨
      (∃ ownerId, op = .cacheLookup ownerId) ∨ op = .poll := by
  cases h with
  | works => exact .inl ⟨rfl, rfl⟩
  | fails op w e => exact .inr (.inl ⟨e, rfl⟩)
  | unacknowledged op w e => exact .inr (.inl ⟨e, rfl⟩)
  | cached ownerId w a => exact .inr (.inr (.inl ⟨ownerId, rfl⟩))
  | polled w gone => exact .inr (.inr (.inr rfl))

theorem Outcome.query_ok {pf : Platform K} {q : Query K} {a : q.Answer} {w w' : World K}
    (h : Outcome pf supply.oracle (.query q) w (.ok a) w') :
    q.run pf w.db = .ok a ∧ w'.db = w.db ∧ w'.draws = w.draws := by
  rcases h.ok_or with ⟨hr, rfl⟩ | ⟨e, he⟩ | ⟨ownerId, hop⟩ | hop
  · exact ⟨hr.symm, rfl, rfl⟩
  · cases he
  · cases hop
  · cases hop

theorem Outcome.write_ok {pf : Platform K} {wr : Write K} {a : wr.Answer} {w w' : World K}
    (h : Outcome pf supply.oracle (.write wr) w (.ok a) w') :
    ∃ c, wr.run pf (supply.oracle.fresh w.draws) (supply.oracle.clock w.calls) w.db = .ok c ∧ c.result = a ∧
      w'.db = c.db ∧ w'.draws = w.draws + if wr.isUpsert then 1 else 0 := by
  rcases h.ok_or with ⟨hr, rfl⟩ | ⟨e, he⟩ | ⟨ownerId, hop⟩ | hop
  · have hexec : (write wr).exec (answer pf supply.oracle) w = (.ok a, (answer pf supply.oracle (.write wr) w).2) :=
      (exec_perform _ _ _).trans (Prod.ext hr.symm rfl)
    obtain ⟨c, hrun, hresult, hdb, -, -, hdraws⟩ := FacesService.write_ok hexec
    exact ⟨c, hrun, hresult, hdb, hdraws⟩
  · cases he
  · cases hop
  · cases hop

omit [Arithmetic K] in
/-- A row that is there belongs to its owner. -/
theorem InOrder.belongs {pf : Platform K} {w : World K} (h : InOrder pf supply acts w₀ w) {c : Cluster K}
    (hc : c ∈ w.db.clusters) {userId : String} (howner : isMine userId c.ownerId = true) :
    Belongs supply userId c.id w where
  drawn n hn hlimit heq := h.unborn n hn hlimit c hc heq.symm
  mine c' hc' hid := by
    rw [h.store.eq_of_id hc' hc hid]
    exact howner

/-! ### Calls -/

omit [Arithmetic K] in
theorem free_read {op : Call K} (hcrop : op.crop = none) (hwrite : ∀ wr, op ≠ .write wr) :
    Free acts w₀ op := by
  intro w
  cases op with
  | write wr => exact absurd rfl (hwrite wr)
  | _ =>
      intro key hkey
      rw [hcrop] at hkey
      cases hkey

omit [Arithmetic K] in
theorem free_query (q : Query K) : Free acts w₀ (.query q) := free_read rfl fun _ h => by cases h

/-- The writes that need to know nothing of the tables. -/
def Write.Plain : Write K → Prop
  | upsertCluster _ name isNamed _ => name = none ∧ isNamed = false
  | appendStreamOccurrences .. => False
  | cascadeStream _ => False
  | _ => True

omit [Arithmetic K] in
theorem free_write {wr : Write K} (hplain : wr.Plain) {userId : String} (hactor : wr.actor = some userId)
    (hacts : acts userId) : Free acts w₀ (.write wr) := by
  intro w
  refine ⟨?_, fun userId' h => ?_, fun streamId h => ?_⟩
  · cases wr with
    | appendStreamOccurrences ownerId streamId items => exact hplain.elim
    | upsertCluster ownerId name isNamed centroid => exact hplain
    | _ => trivial
  · rw [hactor] at h
    cases h
    exact hacts
  · rw [h] at hactor
    cases hactor

omit [Arithmetic K] in
theorem free_crop {op : Call K} {ownerId clusterId : String} (hcrop : op.crop = some (ownerId, clusterId))
    (hacts : acts ownerId) : Free acts w₀ op := by
  intro w
  cases op with
  | write wr => cases hcrop
  | _ =>
      intro key hkey
      rw [hcrop] at hkey
      cases hkey
      exact hacts

/-- A read with what its answer says of the tables. -/
theorem query_obeys {q : Query K} {P : World K → Prop} (hP : Lasting supply P) {Q : q.Answer → World K → Prop}
    (hQ : ∀ a w w', InOrder svc.pf supply acts w₀ w → InOrder svc.pf supply acts w₀ w' → P w' →
      q.run svc.pf w.db = .ok a → w'.db = w.db → Q a w') :
    Obeys svc supply acts w₀ P (query q) Q := by
  have hallowed : ∀ w, Call.Allowed acts w₀ (.query q) w := free_query q
  refine Discipline.Keeps.performed hP.stable (fun w _ => hallowed w) (fun a w w' hw hout => ?_)
    fun e w w' hw hout => ?_
  · have hrely : Rely svc.pf supply acts w₀ w w' := (Outcome.effect hout.1).rely (hallowed w) hout.2
    have hw' := hP.kept hrely hw
    obtain ⟨hrun, hdb, -⟩ := Outcome.query_ok hout.1
    exact ⟨hw'.1, hQ a w w' hw.1 hw'.1 hw'.2 hrun hdb⟩
  · have hrely : Rely svc.pf supply acts w₀ w w' := (Outcome.effect hout.1).rely (hallowed w) hout.2
    exact (hrely hw.1).1

/-- A write with what its answer says of the tables. -/
theorem write_obeys {wr : Write K} {P : World K → Prop} (hP : Lasting supply P)
    (hallowed : ∀ w, InOrder svc.pf supply acts w₀ w → P w → wr.Allowed acts w₀ w)
    {Q : wr.Answer → World K → Prop}
    (hQ : ∀ c w w', InOrder svc.pf supply acts w₀ w → P w' →
      wr.run svc.pf (supply.oracle.fresh w.draws) (supply.oracle.clock w.calls) w.db = .ok c → w'.db = c.db →
      w'.draws = w.draws + (if wr.isUpsert then 1 else 0) → w'.draws ≤ supply.limit → Q c.result w') :
    Obeys svc supply acts w₀ P (write wr) Q := by
  refine Discipline.Keeps.performed hP.stable (fun w hw => hallowed w hw.1 hw.2)
    (fun a w w' hw hout => ?_) fun e w w' hw hout => ?_
  · have hop : Call.Allowed acts w₀ (.write wr) w := hallowed w hw.1 hw.2
    have hrely : Rely svc.pf supply acts w₀ w w' := (Outcome.effect hout.1).rely hop hout.2
    have hw' := hP.kept hrely hw
    obtain ⟨c, hrun, rfl, hdb, hdraws⟩ := Outcome.write_ok hout.1
    exact ⟨hw'.1, hQ c w w' hw.1 hw'.2 hrun hdb hdraws hout.2⟩
  · have hop : Call.Allowed acts w₀ (.write wr) w := hallowed w hw.1 hw.2
    have hrely : Rely svc.pf supply acts w₀ w w' := (Outcome.effect hout.1).rely hop hout.2
    exact (hrely hw.1).1

/-- A new cluster belongs to the user it was made for. -/
theorem upsert_obeys {userId : String} (hacts : acts userId) (centroid : List K) {P : World K → Prop}
    (hP : Lasting supply P) :
    Obeys svc supply acts w₀ P (write (.upsertCluster userId none false centroid)) fun id w =>
      P w ∧ Belongs supply userId id w := by
  have hplain : (Write.upsertCluster userId none false centroid).Plain := ⟨rfl, rfl⟩
  refine write_obeys hP (fun w _ _ => free_write hplain rfl hacts w) ?_
  intro c w w' horder hPw hrun hdb hdraws hlimit
  obtain ⟨owner, howner, hresult, -, hinsert⟩ := Db.upsertCluster_ok hrun
  obtain ⟨-, hcdb⟩ := insertCluster_eq_ok hinsert
  have hnext : w'.draws = w.draws + 1 := hdraws
  have hdrawn : w.draws < supply.limit := by omega
  refine ⟨hPw, ⟨fun n hn hnlimit heq => ?_, fun r hr hid => ?_⟩⟩
  · rw [hresult] at heq
    have hsame := supply.apart hnlimit hdrawn heq
    omega
  · rw [hdb, hcdb] at hr
    rcases List.mem_append.mp hr with hr | hr
    · exact absurd (hid.trans hresult) (horder.unborn w.draws (le_refl _) hdrawn r hr)
    · rw [List.mem_singleton.mp hr]
      exact isMine_iff.mpr howner

end

end FacesService
