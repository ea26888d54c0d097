import FacesService.Base.Race
import FacesService.Infer.Loop
import FacesService.Reader.DeleteEmpty
import FacesService.Route.Retry

/-!
A run on a stream, and the cascade of that stream, at the same time. The run
appends what it has seen in one transaction at its end, and this does not ask
whether the stream is still there: rows of a deleted stream come back exactly if
the append commits after the cascade.
-/

namespace FacesService

open Prog Database Db

variable {K : Type} [Arithmetic K] {svc : Service K} {pf : Platform K} {oracle : Oracle}

/-! ### The calls of the run -/

/-- A committed append of at least one item. -/
inductive Appends : Event K → Prop
  | intro {ownerId streamId : String} {items : List (Db.Item K)} {n : ℕ} {w w' : World K}
      (h : items ≠ []) :
      Appends ⟨.write (.appendStreamOccurrences ownerId streamId items), .ok n, w, w'⟩

variable {args : RunArgs} {op : Call K} {r : Except PyError op.Answer} {w w' : World K}

theorem loopCall_occurrences (hc : LoopCall op) :
    (answer pf oracle op w).2.db.occurrences = w.db.occurrences := by
  cases hc with
  | upsert ownerId centroid =>
      rw [answer_write_db]
      split
      · rename_i c hrun
        obtain ⟨owner, -, -, -, hinsert⟩ := Db.upsertCluster_ok hrun
        obtain ⟨-, hdb⟩ := insertCluster_eq_ok hinsert
        rw [hdb]
      · rfl
  | setCrop clusterId ownerId key =>
      rw [answer_write_db]
      split
      · rename_i c hrun
        obtain ⟨id, owner, -, -, rfl⟩ := Db.setClusterCrop_ok hrun
        rfl
      · rfl
  | getFrame pre index => rfl
  | putCrop ownerId clusterId data => rfl
  | poll => rfl

/-- A call of the run appends, or leaves the rows alone. -/
theorem runCall_occurrences (hc : RunCall args op) (h : answer pf oracle op w = (r, w')) :
    Appends ⟨op, r, w, w'⟩ ∨ w'.db.occurrences = w.db.occurrences := by
  have hw' : w' = (answer pf oracle op w).2 := by rw [h]
  cases hc with
  | clusters =>
      rw [hw']
      exact .inr rfl
  | loop hloop =>
      rw [hw']
      exact .inr (loopCall_occurrences hloop)
  | centroid clusterId centroid =>
      right
      rw [hw', answer_write_db]
      split
      · rename_i c hrun
        obtain ⟨id, owner, -, -, rfl⟩ := Db.updateClusterCentroid_ok hrun
        rfl
      · rfl
  | append items =>
      cases r with
      | error e =>
          right
          rw [hw', answer_write_db]
          have hrun := write_error (by rw [exec_perform]; exact h)
          rw [hrun]
      | ok n =>
          by_cases hitems : items = []
          · right
            obtain ⟨c, hrun, -, hdb, -⟩ := write_ok (by rw [exec_perform]; exact h)
            obtain ⟨db₁, owner, stream, hinsert, -, -, -, hcommit⟩ := Db.appendStreamOccurrences_ok hrun
            rw [hitems] at hinsert
            have hsame : db₁ = w.db := (congrArg Prod.snd (Except.ok.inj hinsert)).symm
            rw [hdb, hcommit, hsame]
            rfl
          · exact .inl (.intro hitems)

theorem appends_row {stream : Uuid} (hstream : castUuid args.streamId = .ok stream)
    (hc : RunCall args op) (happends : Appends ⟨op, r, w, w'⟩) (h : answer pf oracle op w = (r, w')) :
    ∃ o ∈ w'.db.occurrences, o.streamId = stream := by
  cases happends with
  | @intro ownerId streamId items n _ _ hitems =>
      obtain ⟨it, hit⟩ := List.exists_mem_of_ne_nil _ hitems
      have hid : streamId = args.streamId := by
        cases hc with
        | loop hloop => cases hloop
        | append items => rfl
      rw [hid] at h
      obtain ⟨c, hrun, -, hdb, -⟩ := write_ok (by rw [exec_perform]; exact h)
      obtain ⟨db₁, owner, stream', hinsert, -, -, -, hcommit⟩ := Db.appendStreamOccurrences_ok hrun
      obtain ⟨id, -, o, ho, hos, -⟩ := insertItems_row hstream hinsert it hit
      refine ⟨o, ?_, hos⟩
      rw [hdb, hcommit]
      exact ho

/-! ### The calls of the route -/

/-- How a call of the route is answered in the world: its transaction as the
service answers it, the object store in any way. -/
def RouteAnswered (pf : Platform K) (oracle : Oracle) : (op : RouteCall) → World K →
    Except RouteError op.Answer → World K → Prop
  | .cascadeStream streamId, w, r, w' =>
      r = (answer pf oracle (.write (.cascadeStream streamId)) w).1.mapError .db ∧
        w' = (answer pf oracle (.write (.cascadeStream streamId)) w).2
  | .listObjects _, w, _, w' => w' = w
  | .nextObject, w, _, w' => w' = w
  | .removeObject name, w, _, w' => w' = w ∨ w' = w.setObject name none

/-- A call of the object store. -/
def StoreCall : RouteCall → Prop
  | .cascadeStream _ => False
  | _ => True

omit [Arithmetic K] in
theorem removeQuietly_within (name : String) : (removeQuietly name).Within StoreCall fun _ => True := by
  refine within_tryCatch (within_perform trivial) fun e => ?_
  unfold ignoreMissing
  split
  · split
    · exact within_pure _
    · trivial
  · trivial

theorem purgeObjects_within (streamId : String) (deleted : List (String × Uuid)) :
    (purgeObjects streamId deleted).Within StoreCall fun _ => True := by
  have hframes : (deleteStreamFrames streamId).Within StoreCall fun _ => True :=
    within_bind (within_perform trivial) fun names =>
      within_bind (within_forM (fun name =>
        within_bind (within_perform trivial) fun _ => removeQuietly_within name) names)
        fun _ => within_perform trivial
  exact within_bind hframes fun _ => within_forM (fun c => removeQuietly_within _) deleted

/-- The route makes its transaction, and then only calls of the object store. -/
theorem cascadeStreamRoute_calls {args : RouteArgs} (h : Authorised args) :
    ∃ k, cascadeStreamRoute args = .call (.cascadeStream args.streamId) k ∧
      ∀ a, (k a).Within StoreCall fun _ => True := by
  unfold cascadeStreamRoute
  rw [internalToken_of_authorised h]
  refine ⟨_, rfl, fun a => ?_⟩
  cases a with
  | error e => trivial
  | ok result =>
      change Within _ _ (if args.storeReady then _ else _)
      split
      · exact within_bind (within_tryCatch (purgeObjects_within _ _) fun e => trivial)
          fun _ => within_pure _
      · exact within_pure _

theorem storeCall_db {op : RouteCall} {r : Except RouteError op.Answer} (hop : StoreCall op)
    (h : RouteAnswered pf oracle op w r w') : w'.db = w.db := by
  cases op with
  | cascadeStream streamId => exact hop.elim
  | listObjects pre => rw [h]
  | nextObject => rw [h]
  | removeObject name => rcases h with rfl | rfl <;> rfl

/-! ### The race -/

/-- A step of the run, or of the route. -/
abbrev RaceEvent (K : Type) :=
  Prog.Event (Call K) Call.Answer PyError RouteCall RouteCall.Answer RouteError (World K)

/-- A run of the service and a cascade, the calls of both in any order. -/
abbrev CascadeRace {α β : Type} (pf : Platform K) (oracle : Oracle) (p : Program K α)
    (q : RouteProgram β) : World K → List (RaceEvent K) → Except PyError α → Except RouteError β →
      World K → Prop :=
  Race (Reader.Answered pf oracle) (RouteAnswered pf oracle) p q

def Appended : RaceEvent K → Prop
  | .inl st => Appends st
  | .inr _ => False

def Cascades : RaceEvent K → Prop
  | .inl _ => False
  | .inr st => ∃ streamId, st.op = .cascadeStream streamId

/-- No item is appended after the cascade. -/
def NothingAppendedAfter (log : List (RaceEvent K)) : Prop :=
  log.Pairwise fun e e' => Cascades e → ¬ Appended e'

/-- Rows of the stream. -/
def HasRows (stream : Uuid) (db : Database K) : Prop := ∃ o ∈ db.occurrences, o.streamId = stream

/-- Without a cascade to come the stream has rows at the end if it has some now,
or if some are appended. -/
theorem hasRows_iff {α β : Type} {p : Program K α} {q : RouteProgram β} {stream : Uuid}
    (hstream : castUuid args.streamId = .ok stream) {log : List (RaceEvent K)}
    {r : Except PyError α} {r' : Except RouteError β} (h : CascadeRace pf oracle p q w log r r' w')
    (hp : p.Within (RunCall args) fun _ => True) (hq : q.Within StoreCall fun _ => True) :
    (HasRows stream w'.db ↔ HasRows stream w.db ∨ ∃ e ∈ log, Appended e) ∧ ∀ e ∈ log, ¬ Cascades e := by
  induction h with
  | done => simp
  | @first op k q s s₁ s' a log r r' h hrest ih =>
      obtain ⟨hrows, hnone⟩ := ih (hp.2 _ fun _ _ => trivial) hq
      refine ⟨?_, List.forall_mem_cons.mpr ⟨id, hnone⟩⟩
      rw [hrows, List.exists_mem_cons_iff]
      rcases runCall_occurrences hp.1 h with happends | hsame
      · have hnow : HasRows stream s₁.db := appends_row hstream hp.1 happends h
        exact ⟨fun _ => .inr (.inl happends), fun _ => .inl hnow⟩
      · by_cases happends : Appends ⟨op, a, s, s₁⟩
        · have hnow : HasRows stream s₁.db := appends_row hstream hp.1 happends h
          exact ⟨fun _ => .inr (.inl happends), fun _ => .inl hnow⟩
        · simp [HasRows, hsame, Appended, happends]
  | @second p op k s s₁ s' a log r r' h hrest ih =>
      obtain ⟨hrows, hnone⟩ := ih hp (hq.2 _ fun _ _ => trivial)
      have hquiet : ¬ Cascades (K := K) (.inr ⟨op, a, s, s₁⟩) := by
        rintro ⟨streamId, rfl⟩
        exact hq.1
      refine ⟨?_, List.forall_mem_cons.mpr ⟨hquiet, hnone⟩⟩
      simp [hrows, storeCall_db hq.1 h, Appended]

/-- Up to the cascade the run is on its own; the cascade leaves no row. -/
theorem race_cascades {α β : Type} {p : Program K α} {streamId : String} {stream : Uuid}
    (hstream : castUuid streamId = .ok stream)
    {k : Except RouteError (RouteCall.cascadeStream streamId).Answer → RouteProgram β}
    {log : List (RaceEvent K)} {r : Except PyError α} {r' : Except RouteError β}
    (h : CascadeRace pf oracle p (.call (.cascadeStream streamId) k) w log r r' w')
    (hp : p.Within (RunCall args) fun _ => True) :
    ∃ p' w₁ a before st after, CascadeRace pf oracle p' (k a) w₁ after r r' w' ∧
      p'.Within (RunCall args) (fun _ => True) ∧ ¬ HasRows stream w₁.db ∧
      log = before ++ .inr st :: after ∧ Cascades (K := K) (.inr st) ∧ ∀ e ∈ before, ¬ Cascades e := by
  generalize hq : Prog.call (RouteCall.cascadeStream streamId) k = q at h
  induction h with
  | done r r' s =>
      exact absurd hq.symm (Race.lift_ne_call r' _ k)
  | @first op k' q s s₁ s' a log r r' h hrest ih =>
      obtain ⟨p', w₁, a', before, st, after, hafter, hp', hrows, rfl, hst, hbefore⟩ :=
        ih (hp.2 _ fun _ _ => trivial) hq
      exact ⟨p', w₁, a', .inl ⟨op, a, s, s₁⟩ :: before, st, after, hafter, hp', hrows, rfl, hst,
        List.forall_mem_cons.mpr ⟨id, hbefore⟩⟩
  | @second p op k' s s₁ s' a log r r' h hrest ih =>
      cases hq
      refine ⟨p, s₁, a, [], ⟨_, a, s, s₁⟩, log, hrest, hp, ?_, rfl, ⟨streamId, rfl⟩, by simp⟩
      rintro ⟨o, ho, hos⟩
      rw [h.2, answer_write_db] at ho
      split at ho
      · rename_i c hrun
        obtain ⟨stream', hstream', hdb⟩ := cascadeStream_db hrun
        cases hstream.symm.trans hstream'
        rw [hdb] at ho
        simpa [inStream, hos] using (List.mem_filter.mp ho).2
      · rename_i e hrun
        have hruns : ∃ c, Db.cascadeStream (oracle.clock s.calls) s.db streamId = .ok c := by
          rw [Db.cascadeStream, hstream]
          exact ⟨_, rfl⟩
        obtain ⟨c, hc⟩ := hruns
        exact absurd (hrun.symm.trans hc) (by simp)

/-- **A deleted stream stays deleted** exactly if the run appends nothing after
the cascade. -/
theorem stays_deleted_iff {rargs : RouteArgs} (hauth : Authorised rargs) {stream : Uuid}
    (hrun : castUuid args.streamId = .ok stream) (hroute : castUuid rargs.streamId = .ok stream)
    {log : List (RaceEvent K)} {r : Except PyError RunResult} {r' : Except RouteError CascadeResponse}
    (h : CascadeRace pf oracle (run svc args) (cascadeStreamRoute rargs) w log r r' w') :
    (∀ o ∈ w'.db.occurrences, o.streamId ≠ stream) ↔ NothingAppendedAfter log := by
  obtain ⟨k, hcalls, hk⟩ := cascadeStreamRoute_calls hauth
  rw [hcalls] at h
  obtain ⟨p', w₁, a, before, st, after, hafter, hp', hnone, rfl, hst, hbefore⟩ :=
    race_cascades hroute h (run_within svc args)
  obtain ⟨hrows, hquiet⟩ := hasRows_iff hrun hafter hp' (hk a)
  have hlog : NothingAppendedAfter (before ++ .inr st :: after) ↔ ∀ e ∈ after, ¬ Appended e := by
    rw [NothingAppendedAfter, List.pairwise_append, List.pairwise_cons]
    constructor
    · exact fun h e he => h.2.1.1 e he hst
    · refine fun h => ⟨?_, ⟨fun e he _ => h e he, ?_⟩, fun e he _ _ hc => absurd hc (hbefore e he)⟩
      · exact List.pairwise_of_forall_mem_list fun e he _ _ hc => absurd hc (hbefore e he)
      · exact List.pairwise_of_forall_mem_list fun e he _ _ hc => absurd hc (hquiet e he)
  rw [hlog]
  have hrows' : ¬ HasRows stream w'.db ↔ ∀ e ∈ after, ¬ Appended e := by
    rw [hrows]
    simp [hnone]
  rw [← hrows']
  simp [HasRows]

/-! ### Two races -/

/-- The route with an object store that always works and has nothing to list. -/
def routeAnswer (pf : Platform K) (oracle : Oracle) :
    Handler RouteCall RouteCall.Answer RouteError (World K)
  | .cascadeStream streamId, w =>
      let (r, w') := answer pf oracle (.write (.cascadeStream streamId)) w
      (r.mapError .db, w')
  | .listObjects _, w => (.ok [], w)
  | .nextObject, w => (.ok (), w)
  | .removeObject name, w => (.ok (), w.setObject name none)

theorem routeAnswered_routeAnswer (op : RouteCall) (w : World K) :
    RouteAnswered pf oracle op w (routeAnswer pf oracle op w).1 (routeAnswer pf oracle op w).2 := by
  cases op with
  | cascadeStream streamId => exact ⟨rfl, rfl⟩
  | listObjects pre => rfl
  | nextObject => rfl
  | removeObject name => exact .inr rfl

/-- A run that sees one face. -/
def oneFace : Program ℚ RunResult := run (sceneService [[(1, 0)]]) sceneArgs

/-- The cascade of its stream. -/
def sceneCascade : RouteProgram CascadeResponse := cascadeStreamRoute (requestFor sceneArgs.streamId)

/-- The run after `n` of its calls. -/
def oneFaceAfter (n : ℕ) : Program ℚ RunResult × World ℚ :=
  Prog.after (answer Platform.exact (sceneOracle 9)) n oneFace sceneWorld

/-- The world after `n` calls of the run, a cascade as a whole, and the rest of the run. -/
def cascadeAfter (n : ℕ) : World ℚ :=
  ((oneFaceAfter n).1.exec (answer Platform.exact (sceneOracle 9))
    (sceneCascade.exec (routeAnswer Platform.exact (sceneOracle 9)) (oneFaceAfter n).2).2).2

/-- That is a race the run has begun. -/
theorem race_cascadeAfter (n : ℕ) : ∃ st log r r', CascadeRace Platform.exact (sceneOracle 9) oneFace
    sceneCascade sceneWorld (.inl st :: log) r r' (cascadeAfter (n + 1)) := by
  have hcall : ∃ k, oneFace = .call (.query (.getClustersForOwner sceneArgs.ownerId)) k := ⟨_, rfl⟩
  obtain ⟨k, hcall⟩ := hcall
  obtain ⟨st, log, hrace⟩ := @Race.nested_succ _ _ _ _ _ _ _ _ _
    (Reader.Answered Platform.exact (sceneOracle 9)) (RouteAnswered Platform.exact (sceneOracle 9))
    (answer Platform.exact (sceneOracle 9)) (routeAnswer Platform.exact (sceneOracle 9))
    (fun _ _ => rfl) routeAnswered_routeAnswer n _ _ _ hcall sceneCascade sceneWorld
  exact ⟨st, log, _, _, hrace⟩

theorem scene_authorised : Authorised (requestFor sceneArgs.streamId) := ⟨by decide, rfl⟩

/-- The cascade comes after the whole run: no row is left, so nothing was appended after it. -/
theorem stays_deleted_iff_afterRun : ∃ st log r r', CascadeRace Platform.exact (sceneOracle 9) oneFace
    sceneCascade sceneWorld (.inl st :: log) r r' (cascadeAfter 20) ∧
      NothingAppendedAfter (.inl st :: log) := by
  obtain ⟨st, log, r, r', hrace⟩ := race_cascadeAfter 19
  have hstream : castUuid sceneArgs.streamId = .ok (Uuid.fill 2) := Uuid.castUuid_text _
  have hiff := @stays_deleted_iff ℚ _ (sceneService [[(1, 0)]]) _ _ _ _ _ _ scene_authorised _ hstream
    hstream _ _ _ hrace
  exact ⟨st, log, r, r', hrace, hiff.mp (by decide +kernel)⟩

/-- The cascade comes right after the run has read the clusters, and the row the
run appends stays. -/
theorem deleted_stream_returns :
    ¬ ∀ st log r r' w', CascadeRace Platform.exact (sceneOracle 9) oneFace sceneCascade sceneWorld
      (.inl st :: log) r r' w' → ∀ o ∈ w'.db.occurrences, o.streamId ≠ Uuid.fill 2 := by
  intro h
  obtain ⟨st, log, r, r', hrace⟩ := race_cascadeAfter 0
  have hnone := h st log r r' _ hrace
  have hleft : ¬ ∀ o ∈ (cascadeAfter 1).db.occurrences, o.streamId ≠ Uuid.fill 2 := by decide +kernel
  exact hleft hnone

end FacesService
