import FacesService.Infer.Loop
import FacesService.Store.Album

/-!
What a run does to the album. The loop stores a crop under the id it has in
memory, and `Resides` says that this is the text of a cluster of the owner; so
the run leaves a settled album settled if the owner it was given is a text, too.
-/

namespace FacesService

open Prog Database Fallible

variable {K : Type} [Arithmetic K] {svc : Service K} {oracle : Oracle} {owner : Uuid}

/-- The clusters in memory are clusters of the owner, by their texts. -/
def Resides (owner : Uuid) (known : List (Known K)) (cs : List (Uuid × Uuid)) : Prop :=
  ∀ k ∈ known, ∃ id : Uuid, id.text = k.id ∧ (id, owner) ∈ cs

theorem place_leads (st : LoopState K) (x : List K) :
    Leads svc oracle (Peopled (Resides owner st.known)) (place svc owner.text st x)
      (fun r a => r.1.id ∈ r.2.2.known.map (·.id) ∧ Peopled (Resides owner r.2.2.known) a)
      Album.Settled := by
  unfold place
  refine Triple.bind (M := fun best s => assign svc st.known x = .ok best ∧
    Peopled (Resides owner st.known) (albumOf s))
    (Triple.lifted (fun _ _ hbest h => ⟨hbest, h⟩) fun _ h => h.1) fun best => ?_
  refine Triple.assuming (fun s h => h.1) fun hassign => ?_
  cases best with
  | none =>
      refine Triple.bind ((upsert_leads (X := Resides owner st.known) owner.text none false
        (asFloat32 svc.pf x)).conseq (fun _ h => h.2) (fun _ _ h => h) fun _ h => h.1) fun newId => ?_
      refine Triple.ret ?_
      rintro s ⟨hset, owner', cs₀, howner, hresides, hcs⟩
      rw [Uuid.castUuid_text] at howner
      cases howner
      refine ⟨?_, hset, fun k hk => ?_⟩
      · rw [List.map_append]
        exact List.mem_append_right _ List.mem_cons_self
      · rw [hcs]
        rcases List.mem_append.mp hk with hk | hk
        · obtain ⟨id, hid, hmem⟩ := hresides k hk
          exact ⟨id, hid, List.mem_append_left _ hmem⟩
        · rw [List.mem_singleton.mp hk]
          exact ⟨newId, rfl, List.mem_append_right _ List.mem_cons_self⟩
  | some k =>
      refine Triple.bind (M := fun c s => absorb svc.pf k x = .ok c ∧
        Peopled (Resides owner st.known) (albumOf s))
        (Triple.lifted (fun _ _ habsorb h => ⟨habsorb, h.2⟩) fun _ h => h.2.1) fun c => ?_
      refine Triple.ret ?_
      rintro s ⟨habsorb, hset, hresides⟩
      have hid : c.id ∈ st.known.map (·.id) := by
        rw [(absorb_id habsorb).1]
        exact List.mem_map_of_mem (assign_mem hassign)
      refine ⟨?_, hset, fun k' hk' => ?_⟩
      · dsimp only
        rw [updateKnown_ids]
        exact hid
      · rcases mem_updateKnown hk' with ⟨rfl, -⟩ | ⟨hk', -⟩
        · obtain ⟨k₀, hk₀, hid₀⟩ := List.mem_map.mp hid
          rw [← hid₀]
          exact hresides k₀ hk₀
        · exact hresides k' hk'

theorem saveCrop_leads (img : Image) (det : Detection K) {c : Known K} (needCrop : Bool)
    {st : LoopState K} (hid : c.id ∈ st.known.map (·.id)) :
    Leads svc oracle (Peopled (Resides owner st.known))
      (saveCrop svc owner.text img det c needCrop st)
      (fun st' => Peopled (Resides owner st'.known)) Album.Settled := by
  unfold saveCrop
  split
  · exact Triple.ret fun _ h => h
  · rename_i jpeg _
    intro s h
    -- the id in memory is the text of a cluster
    obtain ⟨k, hk, hkid⟩ := List.mem_map.mp hid
    obtain ⟨id, htext, hmem⟩ := h.2 k hk
    rw [← hkid, ← htext]
    have hstored : Leads svc oracle
        (fun a => Peopled (Resides owner st.known) a ∧ (id, owner) ∈ ownerColumn a.db)
        (call (.putCrop owner.text id.text jpeg) >>= fun key =>
          write (.setClusterCrop id.text owner.text (some key)) >>= fun _ =>
            pure { st with crops := dictSet st.crops id.text key, cropsSaved := st.cropsSaved + 1 })
        (fun st' => Peopled (Resides owner st'.known)) Album.Settled := by
      refine Triple.bind (putCrop_leads owner id jpeg) fun key => ?_
      refine Triple.assuming (fun s h => h.1) fun hkey => ?_
      rw [hkey]
      exact Triple.bind ((setCrop_leads owner id jpeg).conseq (fun _ h => h.2) (fun _ _ h => h)
        fun _ h => h) fun _ => Triple.ret fun _ h => h
    exact hstored s ⟨h, hmem⟩

/-- **The step lemma**: one detection. -/
theorem seeDetection_leads {ownerId : String} (howner : ownerId = owner.text) (img : Image) (t : K)
    (st : LoopState K) (det : Detection K) :
    Leads svc oracle (Peopled (Resides owner st.known)) (seeDetection svc ownerId img t st det)
      (fun st' => Peopled (Resides owner st'.known)) Album.Settled := by
  subst howner
  unfold seeDetection
  refine Triple.bind (place_leads { st with facesDetected := st.facesDetected + 1 } det.embedding) ?_
  rintro ⟨c, needCrop, st₁⟩
  refine Triple.assuming (fun s h => h.1) fun hid => ?_
  refine Triple.bind ((saveCrop_leads img det needCrop hid).conseq (fun _ h => h.2) (fun _ _ h => h)
    fun _ h => h) fun st₂ => ?_
  exact Triple.ret fun _ h => h

theorem seeFrame_leads {args : RunArgs} (howner : args.ownerId = owner.text) (idx : ℕ)
    (st : LoopState K) :
    Leads svc oracle (Peopled (Resides owner st.known)) (seeFrame svc args idx st)
      (fun st' => Peopled (Resides owner st'.known)) Album.Settled := by
  unfold seeFrame
  refine Triple.bind ((looks_keeps (A := Peopled (Resides owner st.known))
    (within_perform (.getFrame _ _))).conseq (fun _ h => h) (fun _ _ h => h) fun _ h => h.1) fun raw => ?_
  cases raw with
  | none => exact Triple.ret fun _ h => h
  | some raw =>
      dsimp only
      split
      · exact Triple.ret fun _ h => h
      · exact Triple.foldlM (I := fun _ st' s => Peopled (Resides owner st'.known) (albumOf s))
          (fun st' det _ => seeDetection_leads howner _ _ st' det) _ st

theorem seeFrames_leads {args : RunArgs} (howner : args.ownerId = owner.text) (indices : List ℕ)
    (done : ℕ) (st : LoopState K) :
    Leads svc oracle (Peopled (Resides owner st.known)) (seeFrames svc args indices done st)
      (fun st' => Peopled (Resides owner st'.known)) Album.Settled := by
  induction indices generalizing done st with
  | nil => exact Triple.ret fun _ h => h
  | cons idx rest ih =>
      unfold seeFrames
      refine Triple.bind ((looks_keeps (A := Peopled (Resides owner st.known))
        (pollCancel_within_of .poll args done)).conseq (fun _ h => h) (fun _ _ h => h) fun _ h => h.1)
        fun _ => ?_
      exact Triple.bind (seeFrame_leads howner idx st) fun st' => ih (done + 1) st'

/-- The writes after the loop leave the crops alone. -/
theorem persist_leads (args : RunArgs) (st : LoopState K) :
    Leads svc oracle Album.Settled (persist args st) (fun _ => Album.Settled) Album.Settled := by
  have hkeeps : ∀ {wr : Write K}, wr.KeepsCrops →
      Leads svc oracle Album.Settled (write wr) (fun _ => Album.Settled) Album.Settled := fun hwr =>
    (keepsCrops_leads (X := fun _ => True) hwr).conseq (fun _ h => ⟨h, trivial⟩) (fun _ _ h => h.1)
      fun _ h => h.1
  unfold persist
  refine Triple.bind (hkeeps (by trivial)) fun written => Triple.bind ?_ fun _ => Triple.ret fun _ h => h
  exact Triple.forM (I := fun _ s => (albumOf s).Settled) (fun entry _ => hkeeps (by trivial)) st.drift

/-- The run was given its owner as a text. -/
def RunArgs.Spelled (args : RunArgs) : Prop :=
  ∀ owner, castUuid args.ownerId = .ok owner → args.ownerId = owner.text

/-- A run leaves a settled album settled, be it completed, aborted or failed. -/
theorem run_leads {args : RunArgs} (hargs : args.Spelled) :
    Leads svc oracle Album.Settled (run svc args) (fun _ => Album.Settled) Album.Settled := by
  unfold run
  refine Triple.bind (looks_leads (within_perform (.query _))) fun rows => ?_
  rintro s ⟨hset, w, w', hdb, -, hexec⟩
  rw [exec_getClusters, Prod.mk.injEq] at hexec
  obtain ⟨owner, hcast, hperm⟩ := getClustersForOwner_ok hexec.1
  have hresides : Resides owner (LoopState.start rows).known (ownerColumn (albumOf s).db) := by
    intro k hk
    obtain ⟨r, hr, rfl⟩ := List.mem_map.mp hk
    have hmem := List.mem_filter.mp (hperm.mem_iff.mp hr)
    rw [decide_eq_true_eq] at hmem
    exact ⟨r.id, rfl, List.mem_map.mpr ⟨r, hdb ▸ hmem.1, by rw [hmem.2]⟩⟩
  refine (Triple.bind (seeFrames_leads (hargs owner hcast) _ 0 _) fun st => ?_) s ⟨hset, hresides⟩
  refine Triple.bind ((persist_leads args st).conseq (fun _ h => h.1) (fun _ _ h => h) fun _ h => h)
    fun written => ?_
  exact Triple.ret fun _ h => h

end FacesService
