import FacesService.Route.Retry
import FacesService.System.Engine
import FacesService.System.Regime

/-!
The whole service, whatever its threads do between each other. The cascade route
has rules of its own, for its calls; then what every thread relies on holds at
every moment (`Running.inOrder`): the tables satisfy the store invariant, an owner
has each name once, and the rows and crops of an owner for whom nobody acts are as
they were.
-/

namespace FacesService

open Prog Prog.Discipline Database Reader

variable {K : Type} [Arithmetic K]

/-! ### The cascade route -/

/-- What the route may call: it cascades no stream of an owner nobody acts for, and
removes no crop of theirs. -/
def RouteCall.Allowed (acts : String → Prop) (w₀ : World K) : RouteCall → Prop
  | .cascadeStream streamId => Cascadable acts w₀.db streamId
  | .removeObject name => ∀ owner, Spared acts owner → ¬ OwnCrop owner.text name
  | _ => True

section

variable {pf : Platform K} {supply : Supply} {acts : String → Prop} {w₀ w w' : World K}

omit [Arithmetic K] in
/-- An object goes or comes that is no crop of an owner nobody acts for. -/
theorem InOrder.setObject (h : InOrder pf supply acts w₀ w) {name : String}
    (hname : ∀ owner, Spared acts owner → ¬ OwnCrop owner.text name) (blob : Option Blob) :
    InOrder pf supply acts w₀ (w.setObject name blob) where
  store := h.store
  names := h.names
  unborn := h.unborn
  spared owner hspared := by
    obtain ⟨hrows, hcrops⟩ := h.spared owner hspared
    refine ⟨hrows, fun key hkey => ?_⟩
    have hne : key ≠ name := by
      rintro rfl
      exact hname owner hspared hkey
    exact (Function.update_of_ne hne blob w.objects).trans (hcrops key hkey)

omit [Arithmetic K] in
theorem Rely.setObject {name : String} (hname : ∀ owner, Spared acts owner → ¬ OwnCrop owner.text name)
    (blob : Option Blob) : Rely pf supply acts w₀ w (w.setObject name blob) :=
  fun horder => ⟨horder.setObject hname blob, fun _ _ h => h.nothing rfl (le_refl _)⟩

theorem RouteOutcome.rely {op : RouteCall} {r : Except RouteError op.Answer} (hallowed : op.Allowed acts w₀)
    (h : RouteOutcome pf supply.oracle op w r w') (hlimit : w'.draws ≤ supply.limit) :
    Rely pf supply acts w₀ w w' := by
  cases h with
  | cascaded streamId h =>
      have hop : Call.Allowed acts w₀ (.write (.cascadeStream streamId)) w := by
        refine ⟨trivial, fun userId hactor => ?_, fun streamId' hwr => ?_⟩
        · cases hactor
        · cases hwr
          exact hallowed
      exact h.effect.rely hop hlimit
  | removed name w r => exact .setObject hallowed none
  | _ => exact fun horder => ⟨horder, fun _ _ h => h⟩

theorem RouteOutcome.cascade_ok {streamId : String} {result : Db.CascadeResult}
    (h : RouteOutcome pf supply.oracle (.cascadeStream streamId) w (.ok result) w') :
    ∃ c, Db.cascadeStream (supply.oracle.clock w.calls) w.db streamId = .ok c ∧ c.result = result ∧
      w'.db = c.db := by
  generalize hr : (Except.ok result : Except RouteError Db.CascadeResult) = r at h
  cases h with
  | @cascaded _ _ _ r h =>
      cases r with
      | error e => cases hr
      | ok result' =>
          cases hr
          obtain ⟨c, hrun, hresult, hdb, -⟩ := Outcome.write_ok h
          exact ⟨c, hrun, hresult, hdb⟩
  | fails => cases hr

/-- The rules for the calls of the route. -/
def routeRules (pf : Platform K)  (supply : Supply)
    (acts : String → Prop) (w₀ : World K) : Discipline RouteCall RouteCall.Answer RouteError (World K) where
  answers op w r w' := RouteOutcome pf supply.oracle op w r w' ∧ w'.draws ≤ supply.limit
  admits op _ := op.Allowed acts w₀
  rely := Rely pf supply acts w₀
  refl := (callRules pf supply acts w₀).refl
  trans := (callRules pf supply acts w₀).trans
  guarantee hallowed hout := hout.1.rely hallowed hout.2

omit [Arithmetic K] in
/-- The owner of each cluster the cascade deletes is one somebody acts for. -/
theorem cascaded_owner (horder : InOrder pf supply acts w₀ w) {streamId : String} {now : ℕ}
    (hallowed : Cascadable acts w₀.db streamId) {c : Commit K Db.CascadeResult}
    (h : Db.cascadeStream now w.db streamId = .ok c) {o : String} {id : Uuid}
    (hdeleted : (o, id) ∈ c.result.deletedClusters) :
    ∃ owner : Uuid, o = owner.text ∧ ¬ Spared acts owner := by
  obtain ⟨stream, hstream, -⟩ := cascadeStream_db h
  obtain ⟨c', hc', -, -, hreport, -⟩ := cascadeStream_purges horder.store.ids hstream now
  rw [h] at hc'
  cases hc'
  rw [hreport] at hdeleted
  obtain ⟨row, hrow, rfl, rfl, ⟨s, hs, hsid⟩, hall⟩ := (mem_orphaned horder.store.ids).mp hdeleted
  refine ⟨row.ownerId, rfl, fun hspared => ?_⟩
  -- a sighting of the cluster is one of its owner, who has those there were at first
  obtain ⟨row', hrow', hid', howner⟩ := horder.store.owned s hs
  cases horder.store.eq_of_id hrow' hrow (hid'.trans hsid)
  have hmem : s ∈ (w.db.of row.ownerId.text).occurrences :=
    List.mem_filter.mpr ⟨hs, isMine_text_iff.mpr howner.symm⟩
  rw [(horder.spared _ hspared).rows] at hmem
  exact hallowed _ hspared stream hstream s (List.mem_filter.mp hmem).1 howner.symm (hall s hs hsid)

omit [Arithmetic K] in
/-- No crop lies in the folder of a stream, under whatever name it was put. -/
theorem cropKey_not_inFolder {streamId : String} {stream : Uuid} (h : castUuid streamId = .ok stream)
    (ownerId clusterId : String) :
    inFolder (folder ("faces/" ++ streamId)) (cropKey ownerId clusterId) = false := by
  rw [Bool.eq_false_iff]
  intro hin
  -- the key is the beginning of that of a crop put under an id
  have hlonger := crop_not_inFolder h (ownerId ++ "/" ++ clusterId ++ ".jpg", stream)
  have hpre : (cropKey ownerId clusterId).toList <+:
      (cropOf (ownerId ++ "/" ++ clusterId ++ ".jpg", stream)).toList :=
    ⟨'/' :: (stream.text.toList ++ ".jpg".toList), by simp [cropOf, cropKey]⟩
  have hlong : inFolder (folder (framesOf streamId))
      (cropOf (ownerId ++ "/" ++ clusterId ++ ".jpg", stream)) = true :=
    List.isPrefixOf_iff_prefix.mpr ((List.isPrefixOf_iff_prefix.mp hin).trans hpre)
  rw [hlong] at hlonger
  cases hlonger

end

section Route

variable {pf : Platform K} {supply : Supply}
  {acts : String → Prop} {w₀ : World K}

/-- A program of the route that keeps to its rules and needs nothing for it. -/
abbrev RouteBehaves (pf : Platform K) (supply : Supply) (acts : String → Prop)
    (w₀ : World K) {α : Type} (p : RouteProgram α) (Q : α → Prop) : Prop :=
  (routeRules pf supply acts w₀).Keeps (InOrder pf supply acts w₀) p
    (fun a w => InOrder pf supply acts w₀ w ∧ Q a) (InOrder pf supply acts w₀)

theorem stable_inOrder : (routeRules pf supply acts w₀).Stable (InOrder pf supply acts w₀) :=
  fun _ _ hrely horder => (hrely horder).1

theorem RouteBehaves.bind {α β : Type} {p : RouteProgram α} {f : α → RouteProgram β} {Q : α → Prop}
    {R : β → Prop} (hp : RouteBehaves pf supply acts w₀ p Q)
    (hf : ∀ a, Q a → RouteBehaves pf supply acts w₀ (f a) R) : RouteBehaves pf supply acts w₀ (p >>= f) R :=
  Discipline.Keeps.bind hp fun a => .assuming (fun _ hw => hw.2) fun ha =>
    (hf a ha).conseq (fun _ hw => hw.1) (fun _ _ h => h) fun _ h => h

/-- A call of the route, and what its answer says for good. -/
theorem RouteBehaves.called (op : RouteCall) (hallowed : op.Allowed acts w₀) {Q : op.Answer → Prop}
    (hQ : ∀ a w w', InOrder pf supply acts w₀ w → RouteOutcome pf supply.oracle op w (.ok a) w' → Q a) :
    RouteBehaves pf supply acts w₀ (routeCall op) Q := by
  refine Discipline.Keeps.performed stable_inOrder (fun _ _ => hallowed) (fun a w w' hw hout => ?_)
    fun e w w' hw hout => ?_
  · have hrely : Rely pf supply acts w₀ w w' := RouteOutcome.rely hallowed hout.1 hout.2
    exact ⟨(hrely hw).1, hQ a w w' hw hout.1⟩
  · have hrely : Rely pf supply acts w₀ w w' := RouteOutcome.rely hallowed hout.1 hout.2
    exact (hrely hw).1

theorem RouteBehaves.caught {α : Type} {p : RouteProgram α} {handler : RouteError → RouteProgram α}
    {Q : α → Prop} (hp : RouteBehaves pf supply acts w₀ p Q)
    (hh : ∀ e, RouteBehaves pf supply acts w₀ (handler e) Q) :
    RouteBehaves pf supply acts w₀ (p.tryCatch handler) Q :=
  Discipline.Keeps.caught hp hh

theorem RouteBehaves.fail {α : Type} {e : RouteError} {Q : α → Prop} :
    RouteBehaves pf supply acts w₀ (raise e) Q :=
  Discipline.Keeps.fail fun _ h => h

theorem RouteBehaves.ret {α : Type} {a : α} {Q : α → Prop} (h : Q a) :
    RouteBehaves pf supply acts w₀ (pure a) Q :=
  Discipline.Keeps.ret fun _ hw => ⟨hw, h⟩

theorem removeQuietly_behaves {name : String}
    (hname : ∀ owner, Spared acts owner → ¬ OwnCrop owner.text name) :
    RouteBehaves pf supply acts w₀ (removeQuietly name) fun _ => True := by
  refine .caught (.called (.removeObject name) hname fun _ _ _ _ _ => trivial) fun e => ?_
  unfold ignoreMissing
  split
  · split
    · exact .ret trivial
    · exact .fail
  · exact .fail

theorem forM_behaves {α : Type} {f : α → RouteProgram PUnit} {l : List α}
    (hf : ∀ a ∈ l, RouteBehaves pf supply acts w₀ (f a) fun _ => True) :
    RouteBehaves pf supply acts w₀ (l.forM f) fun _ => True := by
  have hloop := Discipline.Keeps.forM (P := InOrder pf supply acts w₀) (E := InOrder pf supply acts w₀)
    (fun a ha => (hf a ha).conseq (fun _ h => h) (fun _ _ h => h.1) fun _ h => h)
  exact hloop.conseq (fun _ h => h) (fun _ _ h => ⟨h, trivial⟩) fun _ h => h

/-- Emptying the folder of a stream removes no crop. -/
theorem deletePrefix_behaves {streamId : String} {stream : Uuid} (h : castUuid streamId = .ok stream) :
    RouteBehaves pf supply acts w₀ (deletePrefix ("faces/" ++ streamId)) fun _ => True := by
  unfold deletePrefix
  refine .bind (Q := fun names => ∀ name ∈ names, inFolder (folder ("faces/" ++ streamId)) name)
    (.called (.listObjects _) trivial fun names w w' _ hout => ?_) fun names hnames => ?_
  · cases hout with
    | listed pre w names hin => exact hin
  · refine .bind (forM_behaves fun name hname => ?_) fun _ _ =>
      .called .nextObject trivial fun _ _ _ _ _ => trivial
    refine .bind (.called .nextObject (Q := fun _ => True) trivial fun _ _ _ _ _ => trivial) fun _ _ => ?_
    refine removeQuietly_behaves fun owner _ hcrop => ?_
    obtain ⟨owner', cid, id, -, -, rfl⟩ := hcrop
    have hout := hnames _ hname
    rw [cropKey_not_inFolder h] at hout
    cases hout

theorem purgeObjects_behaves {streamId : String} {stream : Uuid} (h : castUuid streamId = .ok stream)
    {deleted : List (String × Uuid)}
    (hdeleted : ∀ c ∈ deleted, ∃ owner : Uuid, c.1 = owner.text ∧ ¬ Spared acts owner) :
    RouteBehaves pf supply acts w₀ (purgeObjects streamId deleted) fun _ => True := by
  unfold purgeObjects
  refine .bind (deletePrefix_behaves h) fun _ _ => forM_behaves fun c hc => ?_
  refine removeQuietly_behaves fun owner hspared hcrop => ?_
  obtain ⟨owner', howner, hnot⟩ := hdeleted c hc
  obtain ⟨owner'', cid, id, hmine, hcid, hkey⟩ := hcrop
  rw [isMine_text_iff.mp hmine] at hkey
  have hsame := cropKey_owner hcid hkey
  rw [howner] at hsame
  rw [Uuid.text_injective hsame] at hnot
  exact hnot hspared

/-- **The cascade route keeps to its rules**, for a stream without sightings of an
owner nobody acts for. -/
theorem cascadeStreamRoute_behaves (args : RouteArgs)
    (hallowed : internalToken args.expected args.token = pure () → Cascadable acts w₀.db args.streamId) :
    RouteBehaves pf supply acts w₀ (cascadeStreamRoute args) fun _ => True := by
  unfold cascadeStreamRoute
  refine .bind (Q := fun _ => internalToken args.expected args.token = pure ()) ?_ fun _ htoken => ?_
  · unfold internalToken
    split
    · exact .fail
    · split
      · exact .fail
      · exact .ret rfl
  · have hcascade := hallowed htoken
    refine .bind (Q := fun result => (∃ stream, castUuid args.streamId = .ok stream) ∧
      ∀ c ∈ result.deletedClusters, ∃ owner : Uuid, c.1 = owner.text ∧ ¬ Spared acts owner) ?_ ?_
    · refine .caught (.called (.cascadeStream args.streamId) hcascade fun result w w' horder hout => ?_) fun _ => .fail
      obtain ⟨c, hrun, rfl, -⟩ := hout.cascade_ok
      obtain ⟨stream, hstream, -⟩ := cascadeStream_db hrun
      exact ⟨⟨stream, hstream⟩, fun d hd => cascaded_owner horder hcascade hrun hd⟩
    · rintro result ⟨⟨stream, hstream⟩, hdeleted⟩
      have hpurge : RouteBehaves pf supply acts w₀ ((purgeObjects args.streamId result.deletedClusters).tryCatch
          fun _ => raise (.http 500 "cascade storage delete failed")) fun _ => True :=
        .caught (purgeObjects_behaves hstream hdeleted) fun _ => .fail
      dsimp only
      split
      · exact hpurge.bind fun _ _ => .ret trivial
      · exact .ret trivial

end Route

/-! ### Requests -/

/-- What is allowed to a request: it acts, once it is authorized, for users somebody
acts for, and cascades no stream of another owner. -/
def Incoming.Allowed (app : App K) (acts : String → Prop) (w₀ : World K) : Incoming K → Prop
  | .read authorization _ => ∀ auth,
      Auth.authorized app.identity app.tokens authorization = .ok auth → Permits acts auth
  | .infer token body => Auth.internalToken app.internalToken token = .ok () → acts body.ownerId
  | .cascade token streamId => internalToken app.internalToken token = pure () →
      Cascadable acts w₀.db streamId

section Threads

variable {app : App K} {supply : Supply} {acts : String → Prop}
  {w₀ : World K}

theorem read_behaves {authorization : Option String} {r : Request K}
    (h : (Incoming.read authorization r).Allowed app acts w₀) :
    Behaves app.service supply acts w₀ (read app authorization r) := by
  unfold read
  cases hauth : Auth.authorized app.identity app.tokens authorization with
  | error e => exact Maintains.fail
  | ok auth => exact serve_behaves (h auth hauth) r

theorem infer_behaves {token : Option String} {body : InferRequest}
    (h : (Incoming.infer token body : Incoming K).Allowed app acts w₀) :
    Behaves app.service supply acts w₀ (infer app token body) := by
  unfold infer
  refine Maintains.bind (M := fun _ _ => acts body.ownerId) (Maintains.lifted fun u w hentry _ => h ?_) fun _ => ?_
  · obtain ⟨u', htoken, -⟩ := Fallible.bind_eq_ok.mp hentry
    cases htoken' : Auth.internalToken app.internalToken token with
    | error e =>
        rw [htoken'] at htoken
        cases htoken
    | ok u => rfl
  · refine Maintains.assuming (fun _ h => h) fun hacts => Maintains.forget ?_ fun _ _ => trivial
    have hrun : Behaves app.service supply acts w₀
        (InferAnswer.result <$> run app.service (body.args app.maxFrames)) :=
      (run_behaves (body.args app.maxFrames) hacts).before fun _ => Maintains.ret fun _ _ => trivial
    refine Discipline.Keeps.caught hrun fun e => ?_
    unfold answerAborted
    split
    · exact Discipline.Keeps.ret fun w hw => ⟨hw, trivial⟩
    · exact Discipline.Keeps.fail fun w hw => hw

/-- The rules, as they are for all threads. -/
def orderRegime (pf : Platform K) (supply : Supply) (acts : String → Prop) (w₀ : World K) :
    Regime pf supply where
  keeps := InOrder pf supply acts w₀
  calls := callRules pf supply acts w₀
  route := routeRules pf supply acts w₀
  answers hout hlimit := ⟨hout, hlimit⟩
  routeAnswers hout hlimit := ⟨hout, hlimit⟩
  common := rfl
  kept hrely horder := (hrely horder).1
  frame w pre index blob := by
    refine Rely.setObject (fun owner _ hcrop => ?_) blob
    obtain ⟨owner', cid, id, -, hcid, hkey⟩ := hcrop
    exact cropKey_ne_frameKey hcid pre index hkey.symm

/-- A request that is taken up is one more thread that holds on to the order. -/
theorem Incoming.start_holds {request : Incoming K} (h : request.Allowed app acts w₀) {w : World K}
    (horder : InOrder app.service.pf supply acts w₀ w) :
    (request.start app).Holds (orderRegime app.service.pf supply acts w₀) w := by
  cases request with
  | read authorization r => exact Thread.holds_program (read_behaves h) horder
  | infer token body => exact Thread.holds_program (infer_behaves h) horder
  | cascade token streamId =>
      refine Thread.holds_route ?_ horder (Q := fun _ _ => True)
      exact (cascadeStreamRoute_behaves (app.routeArgs token streamId) h).conseq (fun _ hw => hw.1)
        (fun _ _ hw => ⟨hw.1, trivial⟩) fun _ hw => hw

end Threads

/-! ### Every moment -/

section

variable {ι : Type} [DecidableEq ι] {app : App K} {supply : Supply} {w₀ : World K}
  {accepts : Incoming K → Prop} {c : Running ι K}

/-- Whatever the threads do, the order of the start is kept. -/
theorem Running.inOrder (hsane : Sane app.service.pf supply w₀) {acts : String → Prop}
    (haccepts : ∀ request, accepts request → request.Allowed app acts w₀)
    (h : Running.Leads app supply.oracle accepts (.start ι w₀) c) (hlimit : c.state.draws ≤ supply.limit) :
    InOrder app.service.pf supply acts w₀ c.state := by
  have hstart : InOrder app.service.pf supply acts w₀ w₀ := ⟨hsane, fun owner _ => ⟨rfl, fun _ _ => rfl⟩⟩
  refine Running.keeps (orderRegime app.service.pf supply acts w₀) ?_ hstart h hlimit
  exact fun request hrequest w horder => Incoming.start_holds (haccepts request hrequest) horder

omit [Arithmetic K] in
/-- With everybody acting, every request is allowed. -/
theorem Incoming.allowed_of_all (request : Incoming K) : request.Allowed app (fun _ => True) w₀ := by
  cases request with
  | read => exact fun _ _ _ _ => trivial
  | infer => exact fun _ => trivial
  | cascade => exact fun _ owner hspared => absurd (Uuid.castUuid_text owner) (hspared owner.text trivial)

end

end FacesService
