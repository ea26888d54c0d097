import FacesService.System.Safety

/-!
What holds of the service at every moment. The requests that the claims about one
request look at are among the things it does (`Running.leads_request`); beside
them are all the other orders of their calls.
-/

namespace FacesService

open Prog Database Reader

variable {K : Type} [Arithmetic K]

/-! ### One request at a time -/

section

variable {ι : Type} [DecidableEq ι] {app : App K} {oracle : Oracle} {accepts : Incoming K → Prop}

/-- A thread that is let alone comes to the end of its program as `exec` has it. -/
theorem Running.leads_exec (p : Program K Unit) (i : ι) (w : World K) (threads : ι → Thread K) :
    ∃ t, t.Finished ∧ Running.Leads app oracle accepts ⟨w, Function.update threads i (.program p)⟩
      ⟨(p.exec (answer app.service.pf oracle) w).2, Function.update threads i t⟩ := by
  induction p generalizing w with
  | ret a => exact ⟨.program (.ret a), trivial, .refl⟩
  | raise e => exact ⟨.program (.raise e), trivial, .refl⟩
  | call op k ih =>
      obtain ⟨t, ht, hrest⟩ := ih (answer app.service.pf oracle op w).1 (answer app.service.pf oracle op w).2
      refine ⟨t, ht, .head ?_ hrest⟩
      have hcall : Thread.Move app oracle accepts (Function.update threads i (.program (.call op k)) i) w
          (.program (k (answer app.service.pf oracle op w).1)) (answer app.service.pf oracle op w).2 := by
        rw [Function.update_self]
        exact .call (.works op w)
      have hstep : Crew.Step (Thread.Move app oracle accepts)
          ⟨w, Function.update threads i (.program (.call op k))⟩ _ := .intro i hcall
      rw [Function.update_idem] at hstep
      exact hstep

/-- A request that is served between the others is one of the things the service does. -/
theorem Running.leads_request {request : Incoming K} (haccepts : accepts request) {α : Type}
    {p : Program K α} (hstart : request.start app = .program (p >>= fun _ => pure ())) (c : Running ι K)
    (i : ι) (hidle : (c.threads i).Finished) :
    ∃ t, t.Finished ∧ Running.Leads app oracle accepts c
      ⟨(p.exec (answer app.service.pf oracle) c.state).2, Function.update c.threads i t⟩ := by
  obtain ⟨t, ht, hrun⟩ := @Running.leads_exec K _ ι _ app oracle accepts (p >>= fun _ => pure ()) i c.state
    c.threads
  have hsame : ((p >>= fun _ => pure ()).exec (answer app.service.pf oracle) c.state).2 =
      (p.exec (answer app.service.pf oracle) c.state).2 := by
    rw [exec_bind]
    split <;> simp_all
  rw [hsame] at hrun
  refine ⟨t, ht, .head ?_ hrun⟩
  rw [← hstart]
  exact Crew.Step.intro i (.accept hidle haccepts)

end

/-! ### A service to look at -/

/-- A deployment that nobody can log in to, with the model of `sceneService`. -/
def sceneApp : App ℚ where
  service := sceneService [[(1, 0)]]
  identity := ⟨fun _ _ => .invalid⟩
  tokens := none
  internalToken := "internal"
  maxFrames := 0

/-- A run on the two frames there are. -/
def sceneBody (owner : Fin 16) : InferRequest := ⟨(Uuid.fill 2).text, (Uuid.fill owner).text, "faces/v", 2⟩

theorem fill_injective : Function.Injective Uuid.fill := by
  intro d d' h
  exact congrArg (fun u => (u.quads.headD (0, 0, 0, 0)).1) h

def sceneSupply : Supply where
  oracle := sceneOracle 9
  limit := 13
  apart := by
    intro m hm n hn h
    have hdigit := congrArg Fin.val (fill_injective h)
    simp only [Fin.ofNat] at hdigit
    simp only [Set.mem_Iio] at hm hn
    omega

theorem sane_sceneWorld : Sane sceneApp.service.pf sceneSupply sceneWorld where
  store := .empty
  names := by
    intro c hc
    cases hc
  unborn := by
    intro n _ _ c hc
    cases hc

/-- The world after a run for the owner. -/
def inferred (owner : Fin 16) (w : World ℚ) : World ℚ :=
  ((infer sceneApp (some "internal") (sceneBody owner)).exec (answer sceneApp.service.pf sceneSupply.oracle) w).2

theorem leads_inferred (accepts : Incoming ℚ → Prop) (owner : Fin 16)
    (haccepts : accepts (.infer (some "internal") (sceneBody owner))) (w : World ℚ) :
    ∃ c : Running Bool ℚ, c.state = inferred owner w ∧
      Running.Leads sceneApp sceneSupply.oracle accepts (.start Bool w) c := by
  obtain ⟨t, -, hleads⟩ := Running.leads_request haccepts rfl (.start Bool w) true trivial
  exact ⟨_, rfl, hleads⟩

theorem sane_inferred : Sane sceneApp.service.pf sceneSupply (inferred 1 sceneWorld) := by
  obtain ⟨c, hstate, hleads⟩ := leads_inferred (fun _ => True) 1 trivial sceneWorld
  rw [← hstate]
  have hlimit : (inferred 1 sceneWorld).draws ≤ sceneSupply.limit := by decide +kernel
  exact (Running.inOrder sane_sceneWorld (fun request _ => request.allowed_of_all) hleads
    (hstate ▸ hlimit)).toSane

/-! ### Every moment -/

section

variable {ι : Type} [DecidableEq ι] {app : App K} {supply : Supply} {w₀ : World K}
  {accepts : Incoming K → Prop} {c : Running ι K}

/-- **The store invariant holds at every moment** of the whole service: with any
requests, any number of threads of any number of processes between each other's
calls, calls that fail with or without their effect, and stale caches. -/
theorem service_keeps_invariant (hsane : Sane app.service.pf supply w₀)
    (h : Running.Leads app supply.oracle accepts (.start ι w₀) c) (hlimit : c.state.draws ≤ supply.limit) :
    StoreInvariant c.state.db :=
  (Running.inOrder hsane (fun request _ => request.allowed_of_all) h hlimit).store

theorem service_keeps_invariant_inferred : StoreInvariant (inferred 2 (inferred 1 sceneWorld)).db := by
  obtain ⟨c, hstate, hleads⟩ := leads_inferred (fun _ => True) 2 trivial (inferred 1 sceneWorld)
  have hlimit : (inferred 2 (inferred 1 sceneWorld)).draws ≤ sceneSupply.limit := by decide +kernel
  exact hstate ▸ service_keeps_invariant sane_inferred hleads (hstate ▸ hlimit)

/-- **No owner ever has two clusters of one name**, whatever the case of its letters. -/
theorem service_keeps_names (hsane : Sane app.service.pf supply w₀)
    (h : Running.Leads app supply.oracle accepts (.start ι w₀) c) (hlimit : c.state.draws ≤ supply.limit) :
    c.state.db.NamesUnique app.service.pf :=
  (Running.inOrder hsane (fun request _ => request.allowed_of_all) h hlimit).names

theorem service_keeps_names_inferred :
    (inferred 2 (inferred 1 sceneWorld)).db.NamesUnique sceneApp.service.pf := by
  obtain ⟨c, hstate, hleads⟩ := leads_inferred (fun _ => True) 2 trivial (inferred 1 sceneWorld)
  have hlimit : (inferred 2 (inferred 1 sceneWorld)).draws ≤ sceneSupply.limit := by decide +kernel
  exact hstate ▸ service_keeps_names sane_inferred hleads (hstate ▸ hlimit)

/-! ### Bystanders -/

/-- The request has nothing to do with the owner: it does not come from the owner or
an admin, is no run for the owner, and cascades no stream the owner has sightings in;
or it is not authorized. -/
def Incoming.Spares (app : App K) (db : Database K) (owner : Uuid) : Incoming K → Prop
  | .read authorization _ => ∀ auth, Auth.authorized app.identity app.tokens authorization = .ok auth →
      auth.role ≠ some "admin" ∧ castUuid auth.userId ≠ .ok owner
  | .infer token body => Auth.internalToken app.internalToken token = .ok () →
      castUuid body.ownerId ≠ .ok owner
  | .cascade token streamId => Auth.internalToken app.internalToken token = .ok () →
      ∀ stream, castUuid streamId = .ok stream → ∀ o ∈ db.occurrences, o.ownerId = owner → o.streamId ≠ stream

omit [Arithmetic K] in
theorem token_of_internalToken {expected : String} {token : Option String}
    (h : internalToken expected token = pure ()) : Auth.internalToken expected token = .ok () := by
  unfold internalToken at h
  unfold Auth.internalToken
  split at h
  · cases h
  · rename_i hset
    split at h
    · cases h
    · rename_i hsame
      rw [if_neg hset, if_neg hsame]

omit [Arithmetic K] in
theorem Incoming.Spares.allowed {owner : Uuid} {request : Incoming K} (h : request.Spares app w₀.db owner) :
    request.Allowed app (fun userId => castUuid userId ≠ .ok owner) w₀ := by
  cases request with
  | read authorization r =>
      intro auth hauth ownerId howner
      obtain ⟨hrole, huser⟩ := h auth hauth
      unfold ensureOwner at howner
      rw [if_neg hrole] at howner
      split at howner
      · cases howner
      · rename_i hsame
        rw [← not_ne_iff.mp hsame]
        exact huser
  | infer token body => exact h
  | cascade token streamId =>
      intro htoken owner' hspared stream hstream o ho howner
      have hsame : owner' = owner := by
        by_contra hne
        refine hspared owner'.text (fun heq => hne ?_) (Uuid.castUuid_text owner')
        rw [Uuid.castUuid_text] at heq
        exact Except.ok.inj heq
      exact h (token_of_internalToken htoken) stream hstream o ho (howner.trans hsame)

/-- **Bystanders lose and gain nothing.** However the requests of others run into
each other and fail, the rows and crops of an owner they have nothing to do with
are the same at every moment. -/
theorem service_spares (hsane : Sane app.service.pf supply w₀) {owner : Uuid}
    (haccepts : ∀ request, accepts request → request.Spares app w₀.db owner)
    (h : Running.Leads app supply.oracle accepts (.start ι w₀) c) (hlimit : c.state.draws ≤ supply.limit) :
    c.state.db.of owner.text = w₀.db.of owner.text ∧
      ∀ key, OwnCrop owner.text key → c.state.objects key = w₀.objects key := by
  have horder := Running.inOrder hsane (fun request hrequest => (haccepts request hrequest).allowed) h hlimit
  obtain ⟨hrows, hcrops⟩ := horder.spared owner fun userId hacts => hacts
  exact ⟨hrows, hcrops⟩

/-- A run for one owner, and the cluster of another. -/
theorem service_spares_inferred :
    (inferred 2 (inferred 1 sceneWorld)).db.of (Uuid.fill 1).text =
        (inferred 1 sceneWorld).db.of (Uuid.fill 1).text ∧
      ∀ key, OwnCrop (Uuid.fill 1).text key →
        (inferred 2 (inferred 1 sceneWorld)).objects key = (inferred 1 sceneWorld).objects key := by
  obtain ⟨c, hstate, hleads⟩ := leads_inferred
    (fun request => request = .infer (some "internal") (sceneBody 2)) 2 rfl (inferred 1 sceneWorld)
  have hlimit : (inferred 2 (inferred 1 sceneWorld)).draws ≤ sceneSupply.limit := by decide +kernel
  rw [← hstate]
  refine service_spares sane_inferred ?_ hleads (hstate ▸ hlimit)
  rintro request rfl _ hcast
  rw [sceneBody, Uuid.castUuid_text] at hcast
  exact absurd (fill_injective (Except.ok.inj hcast)) (by decide)

end

end FacesService
