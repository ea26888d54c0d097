import FacesService.System.Endpoints

/-!
The engine keeps to the rules. The clusters a run knows are its owner's, since it
read them as such or made them, and they stay that: so whatever happens beside the
run, what it appends in the end is for clusters of its owner.
-/

namespace FacesService

open Prog Prog.Discipline Database Reader

variable {K : Type} [Arithmetic K] {svc : Service K}
  {supply : Supply} {acts : String → Prop} {w₀ : World K}

/-- The clusters the loop knows, and those of its items, are the owner's. -/
structure Sure (supply : Supply) (ownerId : String) (st : LoopState K) (w : World K) : Prop where
  known : AllBelong supply ownerId (st.known.map (·.id)) w
  items : AllBelong supply ownerId (st.items.map (·.clusterId)) w

omit [Arithmetic K] in
theorem lasting_sure (ownerId : String) (st : LoopState K) : Lasting supply (Sure supply ownerId st) :=
  fun w w' h hsure => ⟨lasting_allBelong ownerId _ w w' h hsure.known,
    lasting_allBelong ownerId _ w w' h hsure.items⟩

omit [Arithmetic K] in
theorem allBelong_append {ownerId : String} {ids ids' : List String} {w : World K}
    (h : AllBelong supply ownerId ids w) (h' : AllBelong supply ownerId ids' w) :
    AllBelong supply ownerId (ids ++ ids') w := by
  intro s hs
  rcases List.mem_append.mp hs with hs | hs
  · exact h s hs
  · exact h' s hs

omit [Arithmetic K] in
theorem allBelong_text {ownerId : String} {id : Uuid} {w : World K} (h : Belongs supply ownerId id w) :
    AllBelong supply ownerId [id.text] w := by
  intro s hs id' hid
  rw [List.mem_singleton.mp hs, Uuid.castUuid_text] at hid
  cases hid
  exact h

/-- Each detection goes to a cluster of the owner. -/
theorem place_obeys {ownerId : String} (hacts : acts ownerId) (st : LoopState K) (embedding : List K) :
    Obeys svc supply acts w₀ (Sure supply ownerId st) (place svc ownerId st embedding) fun placed w =>
      AllBelong supply ownerId [placed.1.id] w ∧ Sure supply ownerId placed.2.2 w := by
  unfold place
  refine Maintains.bind (M := fun best w => (∀ k, best = some k → k ∈ st.known) ∧ Sure supply ownerId st w)
    (Maintains.lifted fun best w hbest hw => ⟨?_, hw⟩) fun best => ?_
  · rintro k rfl
    exact assign_mem hbest
  · refine Maintains.assuming (fun _ hw => hw.1) fun hmem => Maintains.forget ?_ fun _ hw => hw.2
    cases best with
    | none =>
        refine (upsert_obeys hacts _ (lasting_sure ownerId st)).bind fun newId => Maintains.ret fun w hw => ?_
        have hnew := allBelong_text hw.2
        refine ⟨hnew, ?_, hw.1.items⟩
        rw [List.map_append]
        exact allBelong_append hw.1.known hnew
    | some k =>
        have hk := List.mem_map_of_mem (f := (·.id)) (hmem k rfl)
        refine Maintains.bind (M := fun c w => c.id = k.id ∧ Sure supply ownerId st w)
          (Maintains.lifted fun c w hc hw => ⟨(absorb_id hc).1, hw⟩) fun c => ?_
        refine Maintains.assuming (fun _ hw => hw.1) fun hid => Maintains.ret fun w hw => ?_
        refine ⟨?_, ?_, hw.2.items⟩
        · intro s hs
          rw [List.mem_singleton.mp hs, hid]
          exact hw.2.known k.id hk
        · rw [updateKnown_ids]
          exact hw.2.known

/-- A crop changes nothing the loop is sure of. -/
theorem saveCrop_obeys {ownerId : String} (hacts : acts ownerId) (img : Image) (det : Detection K)
    (c : Known K) (needCrop : Bool) (st : LoopState K) :
    Obeys svc supply acts w₀
      (fun w => AllBelong supply ownerId [c.id] w ∧ Sure supply ownerId st w)
      (saveCrop svc ownerId img det c needCrop st) fun st' w =>
        AllBelong supply ownerId [c.id] w ∧ Sure supply ownerId st' w := by
  have hlasting : Lasting supply fun w => AllBelong supply ownerId [c.id] w ∧ Sure supply ownerId st w :=
    fun w w' h hw => ⟨lasting_allBelong ownerId _ w w' h hw.1, lasting_sure ownerId st w w' h hw.2⟩
  unfold saveCrop
  split
  · exact Maintains.ret fun w hw => hw
  · refine (Obeys.free (within_perform (free_crop rfl hacts)) hlasting).bind fun key => ?_
    have hset : Harmless acts w₀ (write (.setClusterCrop c.id ownerId (some key) : Write K)) :=
      write_harmless rfl trivial hacts
    refine (Obeys.free hset hlasting).bind fun _ => ?_
    exact Maintains.ret fun w hw => ⟨hw.1, hw.2.known, hw.2.items⟩

theorem seeDetection_obeys {ownerId : String} (hacts : acts ownerId) (img : Image) (tSeconds : K)
    (st : LoopState K) (det : Detection K) :
    Obeys svc supply acts w₀ (Sure supply ownerId st) (seeDetection svc ownerId img tSeconds st det)
      (Sure supply ownerId) := by
  unfold seeDetection
  refine ((place_obeys hacts _ det.embedding).forget fun w hw => ⟨hw.known, hw.items⟩).bind fun placed => ?_
  refine (saveCrop_obeys hacts img det placed.1 placed.2.1 placed.2.2).bind fun st' => ?_
  refine Maintains.ret fun w hw => ⟨hw.2.known, ?_⟩
  rw [List.map_append]
  exact allBelong_append hw.2.items hw.1

theorem seeFrame_obeys (args : RunArgs) (hacts : acts args.ownerId) (idx : ℕ) (st : LoopState K) :
    Obeys svc supply acts w₀ (Sure supply args.ownerId st) (seeFrame svc args idx st)
      (Sure supply args.ownerId) := by
  unfold seeFrame
  have hframe : Harmless acts w₀ (call (.getFrame args.framesPrefix idx : Call K)) :=
    call_harmless rfl fun _ h => by cases h
  refine (Obeys.free hframe (lasting_sure _ st)).bind fun raw => ?_
  cases raw with
  | none => exact Maintains.ret fun w hw => ⟨hw.known, hw.items⟩
  | some raw =>
      dsimp only
      split
      · exact Maintains.ret fun w hw => ⟨hw.known, hw.items⟩
      · exact Maintains.foldlM (fun st det _ => seeDetection_obeys hacts _ _ st det) st

/-- The run lemma of the frame loop. -/
theorem seeFrames_obeys (args : RunArgs) (hacts : acts args.ownerId) (indices : List ℕ) (done : ℕ)
    (st : LoopState K) :
    Obeys svc supply acts w₀ (Sure supply args.ownerId st) (seeFrames svc args indices done st)
      (Sure supply args.ownerId) := by
  induction indices generalizing done st with
  | nil => exact Maintains.ret fun w hw => hw
  | cons idx rest ih =>
      unfold seeFrames
      have hpoll : Harmless acts w₀ (pollCancel args done : Program K Unit) :=
        pollCancel_within_of (free_read rfl fun _ h => by cases h) args done
      refine (Obeys.free hpoll (lasting_sure _ st)).bind fun _ => ?_
      exact (seeFrame_obeys args hacts idx st).bind fun st' => ih (done + 1) st'

theorem persist_obeys (args : RunArgs) (hacts : acts args.ownerId) (st : LoopState K) :
    Obeys svc supply acts w₀ (Sure supply args.ownerId st) (persist args st) fun _ _ => True := by
  refine (append_obeys hacts args.streamId (lasting_sure _ st) fun w hw => hw.items).bind fun written => ?_
  refine Behaves.of_harmless (within_bind (within_forM (fun drifted => ?_) st.drift) fun _ => within_pure _)
  exact write_harmless rfl trivial hacts

/-- The clusters of the owner, as the run reads them, are the owner's. -/
theorem start_obeys {ownerId : String} :
    Obeys svc supply acts w₀ (fun _ => True) (query (.getClustersForOwner ownerId)) fun rows w =>
      Sure supply ownerId (.start rows) w := by
  refine query_obeys lasting_true fun rows w w' horder horder' _ hrun hdb => ?_
  obtain ⟨owner, howner, hperm⟩ := getClustersForOwner_ok hrun
  refine ⟨fun s hs id hid => ?_, fun s hs => by cases hs⟩
  simp only [LoopState.start, List.map_map, List.mem_map] at hs
  obtain ⟨c, hc, rfl⟩ := hs
  obtain ⟨hmem, howned⟩ := List.mem_filter.mp (hperm.mem_iff.mp hc)
  rw [Function.comp_apply, Known.ofRow, Uuid.castUuid_text] at hid
  cases hid
  exact horder'.belongs (hdb ▸ hmem) (isMine_iff.mpr ((of_decide_eq_true howned).symm ▸ howner))

/-- **A run keeps to the rules**, for an owner for whom somebody acts. -/
theorem run_behaves (args : RunArgs) (hacts : acts args.ownerId) :
    Behaves svc supply acts w₀ (run svc args) := by
  unfold run
  refine start_obeys.bind fun rows => ?_
  refine (seeFrames_obeys args hacts _ 0 _).bind fun st => ?_
  exact (persist_obeys args hacts st).bind fun written => Maintains.ret fun _ _ => trivial

end FacesService
