import FacesService.Base.Budget
import FacesService.Infer.Abort
import FacesService.Model.Disconnect
import FacesService.System.Service

/-!
`POST /infer` and its watcher. Once the event is set the worker asks for no more
frames than lie before its next poll, since what is left of a run never costs more
than that (`run_always`). And whatever the order in which caller, watcher, worker
and handler take their steps, the request ends as the sequential `infer` does for a
caller who is found gone from some poll on (`Desk.Follows`).
-/

namespace FacesService

open Prog

variable {K : Type} [Arithmetic K]

/-! ### What is left to fetch -/

/-- The event is set. -/
def Call.Stopped : (op : Call K) → Except PyError op.Answer → Prop
  | .poll, r => r = .ok true
  | _, _ => True

/-- A frame costs one. -/
def Call.frameCost (op : Call K) : ℕ := if op.fetches then 1 else 0

/-- From now on at most `n` frames are fetched if the event is set. -/
abbrev Fetches (n : ℕ) {α : Type} (p : Program K α) : Prop := Costs Call.frameCost Call.Stopped n p

/-- The frames before the next poll. -/
def framesDue (every done : ℕ) : ℕ := if done % every = 0 then 0 else every - done % every

omit [Arithmetic K] in
theorem framesDue_succ {every done : ℕ} (hevery : 0 < every) (hdue : done % every ≠ 0) :
    1 + framesDue every (done + 1) ≤ framesDue every done := by
  have hlt := Nat.mod_lt done hevery
  have hnext : (done + 1) % every = (done % every + 1) % every := by simp
  rw [framesDue, framesDue, if_neg hdue, hnext]
  split
  · omega
  · rename_i hne
    have hstay : done % every + 1 < every := by
      by_contra hge
      have hwrap : done % every + 1 = every := by omega
      rw [hwrap, Nat.mod_self] at hne
      exact hne rfl
    rw [Nat.mod_eq_of_lt hstay]
    omega

omit [Arithmetic K] in
theorem framesDue_le {every : ℕ} (hevery : 0 < every) (done : ℕ) : 1 + framesDue every (done + 1) ≤ every := by
  have hlt := Nat.mod_lt (done + 1) hevery
  rw [framesDue]
  split <;> omega

section Budget

variable {svc : Service K} {args : RunArgs}

omit [Arithmetic K] in
theorem detections_free {α : Type} {p : Program K α} (hp : p.Within DetectionCall fun _ => True) {n : ℕ} :
    Costs Call.frameCost (fun _ _ => True) n p := by
  apply costs_of_within _ hp
  intro op hop
  cases hop <;> rfl

/-- A frame costs one, whatever is seen on it. -/
theorem seeFrame_costs (idx : ℕ) (st : LoopState K) :
    Costs Call.frameCost (fun _ _ => True) 1 (seeFrame svc args idx st) := by
  unfold seeFrame
  have hget : Costs Call.frameCost (fun _ _ => True) 1 (call (.getFrame args.framesPrefix idx) : Program K _) :=
    costs_perform (Nat.le_refl 1)
  apply costs_bind (m := 0) hget
  intro raw
  cases raw with
  | none => exact costs_pure _
  | some raw =>
      dsimp only
      split
      · exact costs_pure _
      · apply detections_free
        apply within_foldlM
        intro st det _
        exact seeDetection_within trivial _ _ _ st det

omit [Arithmetic K] in
theorem persist_costs (st : LoopState K) {n : ℕ} :
    Costs Call.frameCost (fun _ _ => True) n (persist args st) := by
  apply costs_of_within _ (persist_within (E := fun _ => True) args st)
  intro op hop
  cases hop <;> rfl

omit [Arithmetic K] in
/-- With the event set, a poll that is due is the end. -/
theorem pollCancel_fetches {α : Type} (hcancel : args.cancel = true) {done : ℕ}
    (hdue : done % args.cancelEvery = 0) (f : Unit → Program K α) (n : ℕ) :
    Fetches n (pollCancel args done >>= f) := by
  unfold pollCancel
  rw [if_pos hcancel]
  by_cases hzero : args.cancelEvery = 0
  · rw [if_pos hzero]
    exact costs_raise _
  · rw [if_neg hzero, if_pos hdue]
    refine ⟨Nat.zero_le n, fun r hr => ?_⟩
    obtain rfl : r = .ok true := hr
    trivial

omit [Arithmetic K] in
theorem pollCancel_undue {done : ℕ} (hdue : done % args.cancelEvery ≠ 0) (hevery : 0 < args.cancelEvery) :
    pollCancel (K := K) args done = pure () := by
  unfold pollCancel
  split
  · rw [if_neg (by omega : ¬ args.cancelEvery = 0)]
  · rfl

theorem seeFrames_fetches (hcancel : args.cancel = true) (hevery : 0 < args.cancelEvery) (indices : List ℕ)
    (done : ℕ) (st : LoopState K) :
    Fetches (framesDue args.cancelEvery done) (seeFrames svc args indices done st) := by
  induction indices generalizing done st with
  | nil => exact costs_pure _
  | cons idx rest ih =>
      unfold seeFrames
      by_cases hdue : done % args.cancelEvery = 0
      · exact pollCancel_fetches hcancel hdue _ _
      · rw [pollCancel_undue hdue hevery]
        have hframe : Fetches 1 (seeFrame svc args idx st) := (seeFrame_costs idx st).always.here
        have hrest := costs_bind hframe fun st' => ih (done + 1) st'
        exact hrest.mono (framesDue_succ hevery hdue)

/-- **At no moment of the loop** are there more frames before the next poll than `cancel_every`. -/
theorem seeFrames_always (hcancel : args.cancel = true) (hevery : 0 < args.cancelEvery) (indices : List ℕ)
    (done : ℕ) (st : LoopState K) :
    Always (Fetches args.cancelEvery) (seeFrames svc args indices done st) := by
  induction indices generalizing done st with
  | nil => trivial
  | cons idx rest ih =>
      have hnext : ∀ st', Fetches (framesDue args.cancelEvery (done + 1)) (seeFrames svc args rest (done + 1) st') :=
        fun st' => seeFrames_fetches hcancel hevery rest (done + 1) st'
      have hbody : Always (Fetches args.cancelEvery)
          (seeFrame svc args idx st >>= fun st' => seeFrames svc args rest (done + 1) st') :=
        always_costs_bind (seeFrame_costs idx st).always hnext (framesDue_le hevery done) fun st' =>
          ih (done + 1) st'
      unfold seeFrames
      apply always_bind _ fun _ => hbody
      by_cases hdue : done % args.cancelEvery = 0
      · have hpoll := pollCancel_fetches hcancel hdue
          (fun _ => seeFrame svc args idx st >>= fun st' => seeFrames svc args rest (done + 1) st')
          args.cancelEvery
        unfold pollCancel at hpoll ⊢
        rw [if_pos hcancel, if_neg (by omega : ¬ args.cancelEvery = 0), if_pos hdue] at hpoll ⊢
        refine ⟨hpoll, fun r => ?_⟩
        rcases r with e | gone
        · trivial
        · cases gone with
          | true => trivial
          | false => exact hbody.here
      · rw [pollCancel_undue hdue hevery]
        exact hbody.here

/-- What is left of a run never has more frames before its next poll than `cancel_every`. -/
theorem run_always (hcancel : args.cancel = true) (hevery : 0 < args.cancelEvery) :
    Always (Fetches args.cancelEvery) (run svc args) := by
  have hquery : ∀ n, Costs Call.frameCost (fun _ _ => True) n
      (query (.getClustersForOwner args.ownerId) : Program K (List (Cluster K))) :=
    fun n => costs_perform (Nat.zero_le n)
  have hfinish : ∀ (st : LoopState K) (f : ℕ → RunResult),
      Costs Call.frameCost (fun _ _ => True) 0 (persist args st >>= fun written => pure (f written)) :=
    fun st f => costs_bind (n := 0) (m := 0) (persist_costs st) fun written => costs_pure _
  have hloop : ∀ (rows : List (Cluster K)), Fetches 0
      (seeFrames svc args (frameIndices args.count args.maxFrames) 0 (.start rows)) := by
    intro rows
    have hdue : framesDue args.cancelEvery 0 = 0 := if_pos (Nat.zero_mod _)
    exact hdue ▸ seeFrames_fetches hcancel hevery _ 0 _
  unfold run
  apply always_costs_bind (n := 0) (m := 0) (hquery 0).always _ (Nat.zero_le _)
  · intro rows
    apply always_costs_bind (m := 0) (seeFrames_always hcancel hevery _ 0 _) _ (Nat.le_refl _)
    · exact fun st => (hfinish st _).always.mono fun p hp => hp.mono (Nat.zero_le _)
    · exact fun st => (hfinish st _).always.here
  · exact fun rows => costs_bind (n := 0) (m := 0) (hloop rows) fun st => (hfinish st _).always.here

end Budget

/-! ### The desk -/

namespace Desk

variable {answers : (op : Call K) → World K → Except PyError op.Answer → World K → Prop}
  {env : World K → World K → Prop} {app : App K} {body : InferRequest} {oracle : Oracle} {w : World K}
  {d d' : Desk K}

/-- One thing after another happens at the desk. -/
abbrev Leads (answers : (op : Call K) → World K → Except PyError op.Answer → World K → Prop)
    (env : World K → World K → Prop) : Desk K → Desk K → Prop :=
  Relation.ReflTransGen (Desk.Step answers env)

/-- The calls are answered as the sequential model has it, and nobody else is there. -/
def Alone (pf : Platform K) (oracle : Oracle) (op : Call K) (w : World K) (r : Except PyError op.Answer)
    (w' : World K) : Prop :=
  answer pf oracle op w = (r, w')

abbrev Quietly (app : App K) (oracle : Oracle) : Desk K → Desk K → Prop :=
  Leads (Alone app.service.pf oracle) fun _ _ => False

/-- Nothing is waited for in vain: a worker left alone comes to its end, and its
handler replies. -/
theorem replies (p : Program K RunResult) (d : Desk K) (hp : d.worker = p) (hopen : d.reply = none) :
    ∃ d', Quietly app oracle d d' ∧ d'.reply ≠ none := by
  induction p generalizing d with
  | call op k ih =>
      by_cases hop : op = .poll
      · subst hop
        obtain ⟨d', hd', hreply⟩ := ih (.ok d.stop) { d with
          world := { d.world with calls := d.world.calls + 1, polls := d.world.polls + 1 }
          worker := k (.ok d.stop) } rfl hopen
        exact ⟨d', .head (.poll hp) hd', hreply⟩
      · obtain ⟨d', hd', hreply⟩ := ih (answer app.service.pf oracle op d.world).1 { d with
          world := (answer app.service.pf oracle op d.world).2
          worker := k (answer app.service.pf oracle op d.world).1
          frames := d.frames + if op.fetches then 1 else 0 } rfl hopen
        exact ⟨d', .head (.call hp hop rfl) hd', hreply⟩
  | ret res =>
      have hresponse : response d.worker = some (.ok (.result res)) := by rw [hp, response]
      exact ⟨_, .single (.respond hopen hresponse), by simp⟩
  | raise e =>
      have hresponse : ∃ r, response d.worker = some r := by
        rw [hp]
        cases e <;> exact ⟨_, rfl⟩
      obtain ⟨r, hr⟩ := hresponse
      exact ⟨_, .single (.respond hopen hr), by simp⟩

/-- A caller who hangs up before the first poll. -/
def leftEarly : Desk ℚ :=
  { Desk.opened sceneApp (sceneBody 1) sceneWorld with hungUp := true, stop := true, watcher := .finished }

theorem leads_leftEarly {answers : (op : Call ℚ) → World ℚ → Except PyError op.Answer → World ℚ → Prop}
    {env : World ℚ → World ℚ → Prop} :
    Leads answers env (.opened sceneApp (sceneBody 1) sceneWorld) leftEarly := by
  apply Relation.ReflTransGen.head (.hangUp _)
  apply Relation.ReflTransGen.head (.look rfl)
  exact .single (.gone rfl rfl)

/-! ### The event -/

theorem always_worker (h : Leads answers env (.opened app body w) d) :
    Always (Fetches 10) d.worker := by
  induction h with
  | refl => exact run_always rfl (Nat.succ_pos 9)
  | tail _ hstep ih =>
      cases hstep with
      | call h hop hr =>
          rw [h] at ih
          exact ih.next _
      | poll h =>
          rw [h] at ih
          exact ih.next _
      | _ => exact ih

/-- The event is set, and the frames to come are within the bound. -/
structure Draining (bound : ℕ) (d : Desk K) : Prop where
  stop : d.stop = true
  budget : ∃ n, d.frames + n ≤ bound ∧ Fetches n d.worker

omit [Arithmetic K] in
theorem Step.draining {bound : ℕ} (h : Draining bound d) (hstep : Desk.Step answers env d d') :
    Draining bound d' := by
  obtain ⟨hstop, n, hn, hbudget⟩ := h
  cases hstep with
  | @call op k r w hworker hop hr =>
      rw [hworker] at hbudget
      have htold : op.Stopped r := by
        cases op with
        | poll => exact absurd rfl hop
        | _ => trivial
      have hcost : (if op.fetches then 1 else 0) ≤ n := hbudget.1
      refine ⟨hstop, n - op.frameCost, ?_, hbudget.2 r htold⟩
      show d.frames + (if op.fetches then 1 else 0) + (n - if op.fetches then 1 else 0) ≤ bound
      omega
  | poll hworker =>
      rw [hworker] at hbudget
      exact ⟨hstop, n, hn, hbudget.2 _ (congrArg Except.ok hstop)⟩
  | gone => exact ⟨rfl, n, hn, hbudget⟩
  | respond => exact ⟨rfl, n, hn, hbudget⟩
  | _ => exact ⟨hstop, n, hn, hbudget⟩

/-- **The worker stops soon.** Once the event is set it asks for at most ten more
frames, whatever its calls answer and others do. -/
theorem stops_soon (h : Leads answers env (.opened app body w) d) (hstop : d.stop = true)
    (hlater : Leads answers env d d') : d'.frames ≤ d.frames + 10 := by
  have hdraining : Draining (d.frames + 10) d := ⟨hstop, 10, le_refl _, (always_worker h).here⟩
  have hend : Draining (d.frames + 10) d' := by
    clear h hstop
    induction hlater with
    | refl => exact hdraining
    | tail _ hstep ih => exact hstep.draining ih
  obtain ⟨-, n, hn, -⟩ := hend
  omega

theorem stops_soon_leftEarly : ∃ d : Desk ℚ, d.reply ≠ none ∧ d.frames ≤ 10 := by
  obtain ⟨d, hd, hreply⟩ := @replies ℚ _ sceneApp sceneSupply.oracle _ leftEarly rfl rfl
  exact ⟨d, hreply, stops_soon leads_leftEarly rfl hd⟩

/-! ### The sequential run -/

end Desk

/-- The caller is found gone from the `n`-th poll on. -/
def Oracle.leaving (oracle : Oracle) (n : ℕ) : Oracle := { oracle with gone := fun poll => n ≤ poll }

theorem answer_leaving (pf : Platform K) (oracle : Oracle) (n : ℕ) {op : Call K} (hop : op ≠ .poll) :
    answer pf (oracle.leaving n) op = answer pf oracle op := by
  cases op with
  | poll => exact absurd rfl hop
  | _ => rfl

theorem answer_polls (pf : Platform K) (oracle : Oracle) {op : Call K} (hop : op ≠ .poll) (w : World K) :
    (answer pf oracle op w).2.polls = w.polls := by
  cases op with
  | poll => exact absurd rfl hop
  | write wr =>
      simp only [answer, Call.effect]
      split <;> simp
  | _ => rfl

namespace Desk

variable {app : App K} {body : InferRequest} {oracle : Oracle} {w : World K} {d d' : Desk K}

/-- Who has set the event, and what a response is of. -/
structure Kept (d : Desk K) : Prop where
  stopped : d.stop = true → d.hungUp = true ∨ d.reply ≠ none
  finished : d.watcher = .finished → d.stop = true
  answered : ∀ r, d.reply = some r → response d.worker = some r ∧ d.stop = true ∧ d.watcher = .finished

/-- What the worker has done so far is what the sequential run does for a caller who
is found gone from the `n`-th poll on. -/
def Ahead (app : App K) (body : InferRequest) (oracle : Oracle) (w : World K) (d : Desk K) (n : ℕ) : Prop :=
  (run app.service (body.args app.maxFrames)).exec (answer app.service.pf (oracle.leaving n)) w =
    d.worker.exec (answer app.service.pf (oracle.leaving n)) d.world

/-- Before the event is set every later poll may be the first to find the caller gone;
then it is one of them, and the last made if the caller is there. -/
structure Follows (app : App K) (body : InferRequest) (oracle : Oracle) (w : World K) (d : Desk K) : Prop
    extends Kept d where
  waiting : d.stop = false → ∀ n, d.world.polls ≤ n → Ahead app body oracle w d n
  leaving : d.stop = true → ∃ n ≤ d.world.polls, (d.hungUp = false → n = d.world.polls) ∧
    Ahead app body oracle w d n

omit [Arithmetic K] in
theorem Step.kept {answers : (op : Call K) → World K → Except PyError op.Answer → World K → Prop}
    {env : World K → World K → Prop} (h : Kept d) (hstep : Desk.Step answers env d d') : Kept d' := by
  obtain ⟨hstopped, hfinished, hanswered⟩ := h
  cases hstep with
  | hangUp => exact ⟨fun _ => .inl rfl, hfinished, hanswered⟩
  | look hlooking =>
      refine ⟨hstopped, fun h => ?_, fun r hr => ?_⟩
      · by_contra hstop
        simp [hstop] at h
      · obtain ⟨-, -, hwatcher⟩ := hanswered r hr
        rw [hlooking] at hwatcher
        cases hwatcher
  | gone hasking hgone =>
      refine ⟨fun _ => .inl hgone, fun _ => rfl, fun r hr => ?_⟩
      exact ⟨(hanswered r hr).1, rfl, rfl⟩
  | there hasking =>
      refine ⟨hstopped, (fun h => nomatch h), fun r hr => ?_⟩
      obtain ⟨-, -, hwatcher⟩ := hanswered r hr
      rw [hasking] at hwatcher
      cases hwatcher
  | wake hsleeping =>
      refine ⟨hstopped, (fun h => nomatch h), fun r hr => ?_⟩
      obtain ⟨-, -, hwatcher⟩ := hanswered r hr
      rw [hsleeping] at hwatcher
      cases hwatcher
  | call hworker =>
      refine ⟨hstopped, hfinished, fun r hr => ?_⟩
      have hresponse := (hanswered r hr).1
      rw [hworker] at hresponse
      cases hresponse
  | poll hworker =>
      refine ⟨hstopped, hfinished, fun r hr => ?_⟩
      have hresponse := (hanswered r hr).1
      rw [hworker] at hresponse
      cases hresponse
  | respond hnone hr =>
      refine ⟨fun _ => .inr (by simp), fun _ => rfl, fun r' hr' => ?_⟩
      cases hr'
      exact ⟨hr, rfl, rfl⟩
  | others => exact ⟨hstopped, hfinished, hanswered⟩

theorem Ahead.call {op : Call K} {k : Except PyError op.Answer → Program K RunResult}
    {r : Except PyError op.Answer} {w' : World K} {n : ℕ} (h : Ahead app body oracle w d n)
    (hworker : d.worker = .call op k) (hop : op ≠ .poll)
    (hr : answer app.service.pf oracle op d.world = (r, w')) (hnext : d'.worker = k r) (hw : d'.world = w') :
    Ahead app body oracle w d' n := by
  unfold Ahead at h ⊢
  rw [h, hworker, exec, answer_leaving _ _ _ hop, hr, hnext, hw]

theorem Ahead.poll {k : Except PyError Bool → Program K RunResult} {n : ℕ} (h : Ahead app body oracle w d n)
    (hworker : d.worker = .call .poll k) (hn : d.stop = true ↔ n ≤ d.world.polls)
    (hnext : d'.worker = k (.ok d.stop))
    (hw : d'.world = { d.world with calls := d.world.calls + 1, polls := d.world.polls + 1 }) :
    Ahead app body oracle w d' n := by
  unfold Ahead at h ⊢
  have hgone : (oracle.leaving n).gone d.world.polls = d.stop := by
    rw [Bool.eq_iff_iff, hn]
    exact decide_eq_true_iff
  have hanswer : answer app.service.pf (oracle.leaving n) .poll d.world =
      (.ok d.stop, { d.world with calls := d.world.calls + 1, polls := d.world.polls + 1 }) := by
    rw [← hgone]
    rfl
  rw [h, hworker, exec, hanswer, hnext, hw]

/-- **The step lemma**: the worker goes on as the sequential run. -/
theorem Step.follows (h : Follows app body oracle w d)
    (hstep : Desk.Step (Alone app.service.pf oracle) (fun _ _ => False) d d') :
    Follows app body oracle w d' := by
  have hkept := hstep.kept h.toKept
  obtain ⟨hkept₀, hwaiting, hleaving⟩ := h
  cases hstep with
  | hangUp => exact ⟨hkept, hwaiting, fun hstop => (hleaving hstop).imp fun n hn => ⟨hn.1, nofun, hn.2.2⟩⟩
  | look => exact ⟨hkept, hwaiting, hleaving⟩
  | there => exact ⟨hkept, hwaiting, hleaving⟩
  | wake => exact ⟨hkept, hwaiting, hleaving⟩
  | others henv => exact henv.elim
  | gone hasking hgone =>
      refine ⟨hkept, nofun, fun _ => ?_⟩
      by_cases hstop : d.stop = true
      · exact hleaving hstop
      · exact ⟨d.world.polls, le_refl _, fun _ => rfl, hwaiting (by simpa using hstop) _ (le_refl _)⟩
  | respond =>
      refine ⟨hkept, nofun, fun _ => ?_⟩
      by_cases hstop : d.stop = true
      · exact hleaving hstop
      · exact ⟨d.world.polls, le_refl _, fun _ => rfl, hwaiting (by simpa using hstop) _ (le_refl _)⟩
  | @call op k r w' hworker hop hr =>
      have hpolls : w'.polls = d.world.polls := by
        have h := answer_polls app.service.pf oracle hop d.world
        rw [hr] at h
        exact h
      refine ⟨hkept, fun hstop n hn => ?_, fun hstop => ?_⟩
      · exact (hwaiting hstop n (hpolls ▸ hn)).call hworker hop hr rfl rfl
      · obtain ⟨n, hn, hlast, hahead⟩ := hleaving hstop
        exact ⟨n, hpolls ▸ hn, fun hthere => hpolls ▸ hlast hthere, hahead.call hworker hop hr rfl rfl⟩
  | poll hworker =>
      refine ⟨hkept, fun hstop n hn => ?_, fun hstop => ?_⟩
      · have hlt : d.world.polls < n := hn
        have hiff : d.stop = true ↔ n ≤ d.world.polls := by
          rw [hstop]
          simpa using hlt
        exact (hwaiting hstop n (Nat.le_of_lt hlt)).poll hworker hiff rfl rfl
      · obtain ⟨n, hn, -, hahead⟩ := hleaving hstop
        have hiff : d.stop = true ↔ n ≤ d.world.polls := ⟨fun _ => hn, fun _ => hstop⟩
        refine ⟨n, Nat.le_succ_of_le hn, fun hthere => ?_, hahead.poll hworker hiff rfl rfl⟩
        -- with the caller there, the event is set with the reply, and no poll follows
        rcases hkept₀.stopped hstop with hgone | hreply
        · exact absurd (hthere.symm.trans hgone) (by simp)
        · obtain ⟨r, hr⟩ := Option.ne_none_iff_exists'.mp hreply
          have hresponse := (hkept₀.answered r hr).1
          rw [hworker] at hresponse
          cases hresponse

/-- The run lemma. -/
theorem follows (h : Quietly app oracle (.opened app body w) d) : Follows app body oracle w d := by
  induction h with
  | refl => exact ⟨⟨nofun, nofun, nofun⟩, fun _ _ _ => rfl, nofun⟩
  | tail _ hstep ih => exact hstep.follows ih

end Desk

end FacesService
