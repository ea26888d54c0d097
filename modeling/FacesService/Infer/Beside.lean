import FacesService.Base.Tandem
import FacesService.Infer.Simulation
import FacesService.Store.SharedCalls

/-!
A run beside another run of the same arguments that has read the clusters in
another state. Two differences at one cluster can be followed through the loop.
If the count differs, all is the same until a face is matched with the cluster,
and then the run is bound to write to it. If the other run has found a crop where
this one has not, this one may store a crop the other does not, and that is all.
-/

namespace FacesService

open Prog Fallible Database

variable {K : Type} [Arithmetic K] {svc : Service K} {args : RunArgs}

/-- What the run does with the clusters it has read. -/
def fromClusters (svc : Service K) (args : RunArgs) (rows : List (Cluster K)) : Program K RunResult := do
  let indices := frameIndices args.count args.maxFrames
  let st ← seeFrames svc args indices 0 (.start rows)
  let written ← persist args st
  return {
    facesDetected := st.facesDetected
    framesProcessed := indices.length - st.frameSkipped
    framesSkipped := st.frameSkipped
    framesSampledOut := args.count - indices.length
    occurrencesWritten := written
    clustersCreated := st.createdIds
    cropsSaved := st.cropsSaved }

theorem run_eq (svc : Service K) (args : RunArgs) :
    run svc args = query (.getClustersForOwner args.ownerId) >>= fromClusters svc args := rfl

/-- The calls of a run after its first. -/
inductive LaterCall (args : RunArgs) : Call K → Prop
  | loop {op : Call K} (h : LoopCall op) : LaterCall args op
  | append (items : List (Db.Item K)) :
      LaterCall args (.write (.appendStreamOccurrences args.ownerId args.streamId items))
  | centroid (clusterId : String) (a : List K) :
      LaterCall args (.write (.updateClusterCentroid clusterId args.ownerId a))

theorem fromClusters_within (svc : Service K) (args : RunArgs) (rows : List (Cluster K)) :
    (fromClusters svc args rows).Within (LaterCall args) fun _ => True := by
  unfold fromClusters
  refine within_bind ((seeFrames_within args _ 0 _).mono fun _ => .loop) fun st => ?_
  exact within_bind (persist_within_of .append .centroid st) fun _ => within_pure _

omit [Arithmetic K] in
theorem LaterCall.shared {owner : Uuid} (howner : castUuid args.ownerId = .ok owner) {op : Call K}
    (h : LaterCall args op) : SharedCall owner op ∧ op.isRead = false := by
  cases h with
  | loop h =>
      cases h with
      | upsert ownerId a => exact ⟨.write (.upsert _ _), rfl⟩
      | setCrop clusterId ownerId key => exact ⟨.write (.crop _ _ _), rfl⟩
      | getFrame pre index => exact ⟨.getFrame _ _, rfl⟩
      | putCrop ownerId clusterId data => exact ⟨.putCrop _ _ _, rfl⟩
      | poll => exact ⟨.poll, rfl⟩
  | append items => exact ⟨.write (.append howner _ _), rfl⟩
  | centroid clusterId a => exact ⟨.write (.centroid _ _ _), rfl⟩

/-! ### The loop -/

/-- Two runs go through the loop side by side if they do so at each detection. -/
structure SideBySide (svc : Service K) (args : RunArgs) (T : Tandem (Call K) Call.Answer PyError)
    (D : LoopState K → Prop) (I : LoopState K → LoopState K → Prop) : Prop where
  frame : ∀ idx, T.shared (.getFrame args.framesPrefix idx)
  poll : T.shared .poll
  alike : ∀ op r r', T.alike op r r' → r = r'
  skip : ∀ st st' : LoopState K, I st st' →
    I { st with frameSkipped := st.frameSkipped + 1 } { st' with frameSkipped := st'.frameSkipped + 1 }
  skipBound : ∀ st : LoopState K, D st → D { st with frameSkipped := st.frameSkipped + 1 }
  detection : ∀ img t st st' det, I st st' → Trails T D I
    (seeDetection svc args.ownerId img t st det) (seeDetection svc args.ownerId img t st' det)
  detectionBound : ∀ img t st det, D st →
    (seeDetection svc args.ownerId img t st det).Bound T.bad D

namespace SideBySide

variable {T : Tandem (Call K) Call.Answer PyError} {D : LoopState K → Prop}
  {I : LoopState K → LoopState K → Prop}

theorem seeFrame (h : SideBySide svc args T D I) (idx : ℕ) {st st' : LoopState K} (hI : I st st') :
    Trails T D I (FacesService.seeFrame svc args idx st) (FacesService.seeFrame svc args idx st') := by
  unfold FacesService.seeFrame
  refine .performed (h.frame idx) (h.alike _) fun raw => ?_
  cases raw with
  | none => exact .ret (h.skip st st' hI)
  | some raw =>
      dsimp only
      cases decodeImg svc.vision raw with
      | none => exact .ret (h.skip st st' hI)
      | some img =>
          exact .foldlM (fun st st' det _ hI => h.detection img _ st st' det hI)
            (fun st det _ hD => h.detectionBound img _ st det hD) hI

theorem seeFrameBound (h : SideBySide svc args T D I) (idx : ℕ) {st : LoopState K} (hD : D st) :
    (FacesService.seeFrame svc args idx st).Bound T.bad D := by
  unfold FacesService.seeFrame
  refine bound_bind (bound_true _) fun raw _ => ?_
  cases raw with
  | none => exact h.skipBound st hD
  | some raw =>
      dsimp only
      cases decodeImg svc.vision raw with
      | none => exact h.skipBound st hD
      | some img => exact bound_foldlM (fun st det _ hD => h.detectionBound img _ st det hD) hD

theorem seeFramesBound (h : SideBySide svc args T D I) (indices : List ℕ) (done : ℕ) {st : LoopState K}
    (hD : D st) : (FacesService.seeFrames svc args indices done st).Bound T.bad D := by
  induction indices generalizing done st with
  | nil => exact hD
  | cons idx rest ih =>
      unfold FacesService.seeFrames
      exact bound_bind (bound_true _) fun _ _ =>
        bound_bind (h.seeFrameBound idx hD) fun st' hD' => ih (done + 1) hD'

theorem seeFrames (h : SideBySide svc args T D I) (indices : List ℕ) (done : ℕ) {st st' : LoopState K}
    (hI : I st st') : Trails T D I (FacesService.seeFrames svc args indices done st)
      (FacesService.seeFrames svc args indices done st') := by
  induction indices generalizing done st st' with
  | nil => exact .ret hI
  | cons idx rest ih =>
      unfold FacesService.seeFrames
      have hpoll : Trails T (fun _ => False) Eq (pollCancel (K := K) args done) (pollCancel args done) := by
        have hwithin : (pollCancel (K := K) args done).Within T.shared fun _ => True :=
          pollCancel_within_of h.poll args done
        exact .refl hwithin fun op r r' _ => h.alike op r r'
      refine hpoll.bind (fun _ _ _ => ?_) fun _ => False.elim
      refine (h.seeFrame idx hI).bind (fun st st' hI => ih (done + 1) hI) fun st hD => ?_
      exact h.seeFramesBound rest (done + 1) hD

end SideBySide

/-! ### A cluster the run has touched -/

variable {X : Uuid} {bad : Call K → Prop}

/-- The run will write a centroid for the cluster. -/
def Touched (X : Uuid) (st : LoopState K) : Prop := X.text ∈ st.drift.map (·.1)

omit [Arithmetic K] in
theorem mem_keys_dictSet {α : Type} {d : List (String × α)} {key : String} {value : α} {id : String}
    (h : id = key ∨ id ∈ d.map (·.1)) : id ∈ (dictSet d key value).map (·.1) := by
  by_cases hid : id = key
  · exact List.mem_map.mpr ⟨(key, value), mem_dictSet.mpr (.inl rfl), hid.symm⟩
  · obtain ⟨e, he, rfl⟩ := List.mem_map.mp (h.resolve_left hid)
    exact List.mem_map.mpr ⟨e, mem_dictSet.mpr (.inr ⟨he, hid⟩), rfl⟩

theorem place_touched {ownerId : String} {st : LoopState K} {e : List K} (h : Touched X st) :
    (place svc ownerId st e).Bound bad fun r => Touched X r.2.2 := by
  unfold place
  refine bound_bind (bound_true _) fun best _ => ?_
  cases best with
  | none => exact bound_bind (bound_true _) fun id _ => bound_pure (mem_keys_dictSet (.inr h))
  | some k => exact bound_bind (bound_true _) fun c _ => bound_pure (mem_keys_dictSet (.inr h))

theorem saveCrop_touched {ownerId : String} {img : Image} {det : Detection K} {c : Known K}
    {needCrop : Bool} {st : LoopState K} (h : Touched X st) :
    (saveCrop svc ownerId img det c needCrop st).Bound bad (Touched X) := by
  unfold saveCrop
  split
  · exact bound_pure h
  · exact bound_bind (bound_true _) fun key _ => bound_bind (bound_true _) fun _ _ => bound_pure h

theorem seeDetection_touched {ownerId : String} {img : Image} {t : K} {st : LoopState K}
    {det : Detection K} (h : Touched X st) :
    (seeDetection svc ownerId img t st det).Bound bad (Touched X) := by
  unfold seeDetection
  refine bound_bind (place_touched (X := X) h) ?_
  rintro ⟨c, needCrop, st₁⟩ h₁
  exact bound_bind (saveCrop_touched h₁) fun st₂ h₂ => bound_pure h₂

omit [Arithmetic K] in
/-- At its end the run makes a call that touches the cluster. -/
theorem persist_touched {st : LoopState K} (hbad : ∀ op : Call K, op.Touches X → bad op)
    (h : Touched X st) : (persist args st).Bound bad fun _ => False := by
  obtain ⟨e, he, hid⟩ := List.mem_map.mp h
  unfold persist
  refine bound_bind (bound_true _) fun written _ => bound_bind (bound_forM he ?_) fun _ => False.elim
  refine bound_perform (.inl (hbad _ ?_))
  show castUuid e.1 = .ok X
  rw [hid]
  exact Uuid.castUuid_text X

/-! ### A count that differs -/

/-- What a matching sees of a cluster, if the count of one does not matter. -/
def forgetCount (X : Uuid) (k : Known K) : Known K :=
  if k.id = X.text then { k with sampleCount := 0 } else k

/-- The variables of two runs that differ in the count of the cluster. -/
structure Recounted (X : Uuid) (st st' : LoopState K) : Prop where
  known : st.known.map (forgetCount X) = st'.known.map (forgetCount X)
  crops : st.crops = st'.crops
  drift : st.drift = st'.drift
  items : st.items = st'.items

section Matching

variable {g : Known K → Known K} {known known' : List (Known K)} {e : List K}

theorem matchCluster_map {pf : Platform K} {m u : K} (hid : ∀ k, (g k).id = k.id)
    (hnamed : ∀ k, (g k).isNamed = k.isNamed) (hcentroid : ∀ k, (g k).centroid = k.centroid) :
    matchCluster pf e (known.map g) m u = matchCluster pf e known m u := by
  have hstep : ∀ best k, matchStep pf e m u best (g k) = matchStep pf e m u best k := by
    intro best k
    simp only [matchStep, hid, hnamed, hcentroid]
  unfold matchCluster
  rw [List.foldlM_map]
  simp only [hstep]

theorem assign_map (hid : ∀ k, (g k).id = k.id) (hnamed : ∀ k, (g k).isNamed = k.isNamed)
    (hcentroid : ∀ k, (g k).centroid = k.centroid) :
    assign svc (known.map g) e = (assign svc known e).map (·.map g) := by
  unfold assign
  rw [matchCluster_map hid hnamed hcentroid]
  cases matchCluster svc.pf e known svc.config.matchThreshold svc.config.unknownThreshold with
  | error e => rfl
  | ok r =>
      obtain ⟨best, sim⟩ := r
      cases best with
      | none => rfl
      | some id =>
          simp only [ok_bind, Except.map, List.find?_map, Function.comp_def, hid]

omit [Arithmetic K] in
theorem forgetCount_id (k : Known K) : (forgetCount X k).id = k.id := by
  unfold forgetCount
  split <;> rfl

theorem assign_recounted (h : known.map (forgetCount X) = known'.map (forgetCount X)) :
    (assign svc known e).map (·.map (forgetCount X)) = (assign svc known' e).map (·.map (forgetCount X)) := by
  have hnamed : ∀ k : Known K, (forgetCount X k).isNamed = k.isNamed := fun k => by
    unfold forgetCount; split <;> rfl
  have hcentroid : ∀ k : Known K, (forgetCount X k).centroid = k.centroid := fun k => by
    unfold forgetCount; split <;> rfl
  rw [← assign_map forgetCount_id hnamed hcentroid, ← assign_map forgetCount_id hnamed hcentroid, h]

omit [Arithmetic K] in
theorem updateKnown_recounted {c : Known K} (h : known.map (forgetCount X) = known'.map (forgetCount X)) :
    (updateKnown known c).map (forgetCount X) = (updateKnown known' c).map (forgetCount X) := by
  have hupdate : ∀ known : List (Known K), (updateKnown known c).map (forgetCount X) =
      (known.map (forgetCount X)).map fun k => if k.id = c.id then forgetCount X c else k := by
    intro known
    rw [updateKnown, List.map_map, List.map_map]
    refine List.map_congr_left fun k _ => ?_
    simp only [Function.comp, forgetCount_id]
    split <;> rfl
  rw [hupdate, hupdate, h]

end Matching

/-- Both runs make the same calls, and are not to touch the cluster. -/
def countTandem (owner X : Uuid) : Tandem (Call K) Call.Answer PyError where
  shared op := SharedCall owner op ∧ op.isRead = false
  own _ := False
  apt _ _ := True
  bad op := op.Touches X
  alike _ r r' := r = r'

section Count

variable {owner : Uuid} {st st' : LoopState K}

theorem place_recounted {ownerId : String} {e : List K} (h : Recounted X st st') :
    Trails (countTandem owner X) (fun r => Touched X r.2.2)
      (fun r r' => r.1 = r'.1 ∧ r.2.1 = r'.2.1 ∧ Recounted X r.2.2 r'.2.2)
      (place svc ownerId st e) (place svc ownerId st' e) := by
  have hassign := @assign_recounted K _ svc X st.known st'.known e h.known
  unfold place
  cases hk : assign svc st.known e with
  | error err => exact .raise err _
  | ok best =>
      cases hk' : assign svc st'.known e with
      | error err =>
          rw [hk, hk'] at hassign
          cases hassign
      | ok best' =>
          rw [hk, hk', Except.map, Except.map, Except.ok.injEq] at hassign
          rw [lift_ok_bind, lift_ok_bind]
          cases best with
          | none =>
              obtain rfl : best' = none := by simpa using hassign.symm
              refine .performed ⟨.write (.upsert _ _), rfl⟩ (fun _ _ => id) fun newId => .ret ?_
              refine ⟨rfl, rfl, ?_, h.crops, ?_, h.items⟩
              · simp only [List.map_append, h.known]
              · simp only [h.drift]
          | some k =>
              obtain ⟨k', rfl, hforget⟩ := Option.map_eq_some_iff.mp hassign.symm
              by_cases hX : k.id = X.text
              · refine .lost (bound_bind (bound_lift (D := fun c => c.id = X.text) fun c hc => ?_)
                  fun c hc => ?_)
                · rw [(absorb_id hc).1, hX]
                · exact bound_pure (mem_keys_dictSet (.inl hc.symm))
              · have hid : k'.id = k.id := by
                  rw [← forgetCount_id (X := X) k', hforget, forgetCount_id]
                rw [forgetCount, forgetCount, if_neg hX, if_neg (hid ▸ hX)] at hforget
                subst hforget
                refine .lifted fun c hc => .ret ⟨rfl, ?_, ?_, h.crops, ?_, h.items⟩
                · simp only [h.crops]
                · exact updateKnown_recounted h.known
                · simp only [h.drift]

theorem saveCrop_recounted {ownerId : String} {img : Image} {det : Detection K} {c : Known K}
    {needCrop : Bool} (h : Recounted X st st') :
    Trails (countTandem owner X) (Touched X) (Recounted X) (saveCrop svc ownerId img det c needCrop st)
      (saveCrop svc ownerId img det c needCrop st') := by
  unfold saveCrop
  cases newCrop svc img needCrop det with
  | none => exact .ret h
  | some jpeg =>
      refine .performed ⟨.putCrop _ _ _, rfl⟩ (fun _ _ => id) fun key => ?_
      refine .performed ⟨.write (.crop _ _ _), rfl⟩ (fun _ _ => id) fun _ => .ret ?_
      exact ⟨h.known, by simp only [h.crops], h.drift, h.items⟩

theorem seeDetection_recounted {ownerId : String} {img : Image} {t : K} {det : Detection K}
    (h : Recounted X st st') :
    Trails (countTandem owner X) (Touched X) (Recounted X) (seeDetection svc ownerId img t st det)
      (seeDetection svc ownerId img t st' det) := by
  have h₀ : Recounted X { st with facesDetected := st.facesDetected + 1 }
      { st' with facesDetected := st'.facesDetected + 1 } := ⟨h.known, h.crops, h.drift, h.items⟩
  unfold seeDetection
  refine (place_recounted h₀).bind ?_ ?_
  · rintro ⟨c, needCrop, st₁⟩ ⟨c', needCrop', st₁'⟩ ⟨rfl, rfl, h₁⟩
    refine (saveCrop_recounted h₁).bind (fun st₂ st₂' h₂ => .ret ?_) fun st₂ h₂ => bound_pure h₂
    exact ⟨h₂.known, h₂.crops, h₂.drift, by simp only [h₂.items]⟩
  · rintro ⟨c, needCrop, st₁⟩ h₁
    exact bound_bind (saveCrop_touched h₁) fun st₂ h₂ => bound_pure h₂

theorem sideBySide_recounted (svc : Service K) (args : RunArgs) (owner X : Uuid) :
    SideBySide svc args (countTandem owner X) (Touched X) (Recounted X) where
  frame _ := ⟨.getFrame _ _, rfl⟩
  poll := ⟨.poll, rfl⟩
  alike _ _ _ := id
  skip _ _ h := ⟨h.known, h.crops, h.drift, h.items⟩
  skipBound _ h := h
  detection _ _ _ _ _ h := seeDetection_recounted h
  detectionBound _ _ _ _ h := seeDetection_touched h

/-- A run that does not touch the cluster makes the calls of a run that has read
another count of it. -/
theorem fromClusters_recounted (svc : Service K) (howner : castUuid args.ownerId = .ok owner) {rows rows' : List (Cluster K)}
    (h : Recounted X (LoopState.start rows) (LoopState.start rows')) :
    Trails (countTandem owner X) (fun _ => False) (fun _ _ => True) (fromClusters svc args rows)
      (fromClusters svc args rows') := by
  unfold fromClusters
  refine ((sideBySide_recounted svc args owner X).seeFrames _ 0 h).bind (fun st st' h => ?_) fun st h => ?_
  · have hpersist : persist args st = persist args st' := by
      unfold persist
      rw [h.items, h.drift]
    have hwithin : (persist args st').Within (countTandem owner X).shared fun _ => True :=
      persist_within_of (fun items => ⟨.write (.append howner _ _), rfl⟩)
        (fun _ _ => ⟨.write (.centroid _ _ _), rfl⟩) st'
    rw [hpersist]
    exact (Trails.refl (D := fun _ => False) hwithin fun _ _ _ _ => id).bind (fun _ _ _ => .ret trivial)
      fun _ => False.elim
  · exact bound_bind (persist_touched (fun _ => id) h) fun _ => False.elim

end Count

/-! ### A crop that is there -/

/-- The variables of two runs of which the other has found a crop of the cluster. -/
structure Cropped (X : Uuid) (st st' : LoopState K) : Prop where
  known : st.known = st'.known
  crops : ∀ id, id ≠ X.text → st.crops.lookup id = st'.crops.lookup id
  cropped : (st'.crops.lookup X.text).isSome = true
  drift : st.drift = st'.drift
  items : st.items = st'.items
  ids : ∀ k ∈ st.known, ∃ id : Uuid, k.id = id.text

/-- The same answer; and no new cluster is given the id of the one that is there. -/
def sameAnswer (X : Uuid) : (op : Call K) → Except PyError op.Answer → Except PyError op.Answer → Prop
  | .write (.upsertCluster _ _ _ _), r, r' => r = r' ∧ r ≠ .ok X
  | _, r, r' => r = r'

omit [Arithmetic K] in
theorem eq_of_sameAnswer {op : Call K} {r r' : Except PyError op.Answer} (h : sameAnswer X op r r') :
    r = r' := by
  cases op with
  | write wr =>
      cases wr with
      | upsertCluster ownerId name isNamed a => exact h.1
      | _ => exact h
  | _ => exact h

/-- A crop is stored under its key. -/
def storedUnder : (op : Call K) → Except PyError op.Answer → Prop
  | .putCrop ownerId clusterId _, r => r = .ok (cropKey ownerId clusterId)
  | _, _ => True

/-- The run may store a crop of the cluster that the other does not store. -/
def cropTandem (owner X : Uuid) (ownerId : String) : Tandem (Call K) Call.Answer PyError where
  shared op := SharedCall owner op ∧ op.isRead = false ∧ (op.setsCrop = true → ¬ op.Touches X)
  own op := (∃ data, op = .putCrop ownerId X.text data) ∨
    op = .write (.setClusterCrop X.text ownerId (some (cropKey ownerId X.text)))
  apt := storedUnder
  bad _ := False
  alike := sameAnswer X

section Crop

variable {owner : Uuid} {ownerId : String} {st st' : LoopState K}

theorem place_cropped {e : List K} (h : Cropped X st st') :
    Trails (cropTandem owner X ownerId) (fun _ => False)
      (fun r r' => r.1 = r'.1 ∧ (∃ id : Uuid, r.1.id = id.text) ∧ (r.1.id ≠ X.text → r.2.1 = r'.2.1) ∧
        (r.1.id = X.text → r'.2.1 = false) ∧ Cropped X r.2.2 r'.2.2)
      (place svc ownerId st e) (place svc ownerId st' e) := by
  unfold place
  rw [← h.known]
  refine .lifted fun best hassign => ?_
  cases best with
  | none =>
      refine .call ⟨.write (.upsert _ _), rfl, fun hcrop => by cases hcrop⟩ fun r r' hr => ?_
      obtain ⟨rfl, hne⟩ : r = r' ∧ r ≠ .ok X := hr
      cases r with
      | error err => exact .raise err _
      | ok newId =>
          have hid : newId.text ≠ X.text := fun heq => hne (congrArg _ (Uuid.text_injective heq))
          refine .ret ⟨rfl, ⟨newId, rfl⟩, fun _ => rfl, fun heq => absurd heq hid, rfl, h.crops,
            h.cropped, by simp only [h.drift], h.items, fun k hk => ?_⟩
          rcases List.mem_append.mp hk with hk | hk
          · exact h.ids k hk
          · rw [List.mem_singleton.mp hk]
            exact ⟨newId, rfl⟩
  | some k =>
      refine .lifted fun c habsorb => .ret ?_
      obtain ⟨id, hid⟩ := h.ids k (assign_mem hassign)
      have hcid : c.id = id.text := (absorb_id habsorb).1.trans hid
      refine ⟨rfl, ⟨id, hcid⟩, fun hne => ?_, fun heq => ?_, rfl, h.crops, h.cropped,
        by simp only [h.drift], h.items, fun k' hk' => ?_⟩
      · simp only [h.crops c.id hne]
      · obtain ⟨key, hkey⟩ := Option.isSome_iff_exists.mp h.cropped
        have hfound : st'.crops.lookup c.id = some key := heq ▸ hkey
        rw [hfound]
        rfl
      · rcases mem_updateKnown hk' with ⟨rfl, -⟩ | ⟨hk', -⟩
        · exact ⟨id, hcid⟩
        · exact h.ids k' hk'

theorem saveCrop_cropped {img : Image} {det : Detection K} {c : Known K}
    {needCrop needCrop' : Bool} (hid : ∃ id : Uuid, c.id = id.text)
    (hne : c.id ≠ X.text → needCrop = needCrop') (heq : c.id = X.text → needCrop' = false)
    (h : Cropped X st st') :
    Trails (cropTandem owner X ownerId) (fun _ => False) (Cropped X)
      (saveCrop svc ownerId img det c needCrop st) (saveCrop svc ownerId img det c needCrop' st') := by
  unfold saveCrop
  by_cases hX : c.id = X.text
  · have hnone : newCrop svc img needCrop' det = none := by rw [heq hX]; rfl
    rw [hnone]
    cases newCrop svc img needCrop det with
    | none => exact .ret h
    | some jpeg =>
        refine .performed_own (.inl ⟨jpeg, by rw [hX]⟩) fun key hkey => ?_
        obtain rfl : key = cropKey ownerId c.id := Except.ok.inj hkey
        refine .performed_own (.inr (by rw [hX])) fun _ _ => .ret ?_
        refine ⟨h.known, fun id hid => ?_, h.cropped, h.drift, h.items, h.ids⟩
        rw [lookup_dictSet, if_neg (hX ▸ hid), h.crops id hid]
  · obtain rfl := hne hX
    cases newCrop svc img needCrop det with
    | none => exact .ret h
    | some jpeg =>
        obtain ⟨id, hid⟩ := hid
        have halike : ∀ (op : Call K) r r', (cropTandem owner X ownerId).alike op r r' → r = r' :=
          fun _ _ _ => eq_of_sameAnswer
        have hput : (cropTandem owner X ownerId).shared (.putCrop ownerId c.id jpeg : Call K) :=
          ⟨.putCrop _ _ _, rfl, fun hcrop => by cases hcrop⟩
        refine .performed hput (halike _) fun key => ?_
        have hset : (cropTandem owner X ownerId).shared
            (.write (.setClusterCrop c.id ownerId (some key)) : Call K) := by
          refine ⟨.write (.crop _ _ _), rfl, fun _ htouch => hX ?_⟩
          have hcast : castUuid c.id = .ok X := htouch
          rw [hid, Uuid.castUuid_text] at hcast
          cases hcast
          exact hid
        refine .performed hset (halike _) fun _ => .ret ⟨h.known, fun id' hid' => ?_, ?_, h.drift,
          h.items, h.ids⟩
        · rw [lookup_dictSet, lookup_dictSet, h.crops id' hid']
        · rw [lookup_dictSet, if_neg (Ne.symm hX)]
          exact h.cropped

theorem seeDetection_cropped {img : Image} {t : K} {det : Detection K}
    (h : Cropped X st st') :
    Trails (cropTandem owner X ownerId) (fun _ => False) (Cropped X) (seeDetection svc ownerId img t st det)
      (seeDetection svc ownerId img t st' det) := by
  have h₀ : Cropped X { st with facesDetected := st.facesDetected + 1 }
      { st' with facesDetected := st'.facesDetected + 1 } :=
    ⟨h.known, h.crops, h.cropped, h.drift, h.items, h.ids⟩
  unfold seeDetection
  refine (place_cropped h₀).bind ?_ fun _ => False.elim
  rintro ⟨c, needCrop, st₁⟩ ⟨c', needCrop', st₁'⟩ ⟨rfl, hid, hne, heq, h₁⟩
  refine (saveCrop_cropped hid hne heq h₁).bind (fun st₂ st₂' h₂ => .ret ?_) fun _ => False.elim
  exact ⟨h₂.known, h₂.crops, h₂.cropped, h₂.drift, by simp only [h₂.items], h₂.ids⟩

theorem sideBySide_cropped (svc : Service K) (args : RunArgs) (owner X : Uuid) :
    SideBySide svc args (cropTandem owner X args.ownerId) (fun _ => False) (Cropped X) where
  frame _ := ⟨.getFrame _ _, rfl, fun hcrop => by cases hcrop⟩
  poll := ⟨.poll, rfl, fun hcrop => by cases hcrop⟩
  alike _ _ _ := eq_of_sameAnswer
  skip _ _ h := ⟨h.known, h.crops, h.cropped, h.drift, h.items, h.ids⟩
  skipBound _ := False.elim
  detection _ _ _ _ _ h := seeDetection_cropped h
  detectionBound _ _ _ _ := False.elim

/-- A run makes the calls of a run that has found the cluster with a crop, and
perhaps stores a crop of it. -/
theorem fromClusters_cropped (svc : Service K) (howner : castUuid args.ownerId = .ok owner) {rows rows' : List (Cluster K)}
    (h : Cropped X (LoopState.start rows) (LoopState.start rows')) :
    Trails (cropTandem owner X args.ownerId) (fun _ => False) (fun _ _ => True) (fromClusters svc args rows)
      (fromClusters svc args rows') := by
  unfold fromClusters
  refine ((sideBySide_cropped svc args owner X).seeFrames _ 0 h).bind (fun st st' h => ?_) fun _ => False.elim
  have hpersist : persist args st = persist args st' := by
    unfold persist
    rw [h.items, h.drift]
  have hwithin : (persist args st').Within (cropTandem owner X args.ownerId).shared fun _ => True :=
    persist_within_of (fun items => ⟨.write (.append howner _ _), rfl, fun hcrop => by cases hcrop⟩)
      (fun _ _ => ⟨.write (.centroid _ _ _), rfl, fun hcrop => by cases hcrop⟩) st'
  rw [hpersist]
  exact (Trails.refl (D := fun _ => False) hwithin fun _ _ _ _ => eq_of_sameAnswer).bind
    (fun _ _ _ => .ret trivial) fun _ => False.elim

end Crop

/-! ### What the runs have read -/

section Rows

omit [Arithmetic K]

variable {v : Window} {db db' : Database K} {ownerId : String} {owner : Uuid} {rows rows' : List (Cluster K)}

theorem getClustersForOwner_mem (howner : castUuid ownerId = .ok owner)
    (h : Db.getClustersForOwner db ownerId = .ok rows) {c : Cluster K} :
    c ∈ rows ↔ c ∈ db.clusters ∧ c.ownerId = owner := by
  obtain ⟨owner', howner', hperm⟩ := getClustersForOwner_ok h
  rw [howner] at howner'
  cases howner'
  rw [hperm.mem_iff, List.mem_filter, decide_eq_true_eq]

/-- What is seen of the rows that are read depends on what is seen of the clusters:
their order is by the name and the time of creation. -/
theorem rows_seen (howner : castUuid ownerId = .ok owner) (hdated : v.dated = true)
    (hhidden : ∀ id, v.hidden id = false) (hsame : v.clusters db = v.clusters db')
    (h : Db.getClustersForOwner db ownerId = .ok rows) (h' : Db.getClustersForOwner db' ownerId = .ok rows') :
    rows.map v.row = rows'.map v.row := by
  let le : Cluster K → Cluster K → Bool := fun a b =>
    (a.isNamed && !b.isNamed) || (a.isNamed == b.isNamed && a.createdAt ≤ b.createdAt)
  have hread : ∀ {db : Database K} {rows : List (Cluster K)}, Db.getClustersForOwner db ownerId = .ok rows →
      rows.map v.row = Db.orderBy le ((v.clusters db).filter fun c => c.ownerId = owner) := by
    intro db rows h
    rw [Db.getClustersForOwner, howner, ok_bind, Except.ok.injEq] at h
    subst h
    have hall : (db.clusters.filter fun c => !v.hidden c.id) = db.clusters :=
      List.filter_eq_self.mpr fun c _ => by rw [hhidden]; rfl
    have hrow : ∀ c : Cluster K, (v.row c).isNamed = c.isNamed ∧ (v.row c).createdAt = c.createdAt :=
      fun c => ⟨rfl, if_pos hdated⟩
    rw [Window.clusters, hall, List.filter_map]
    refine List.map_insertionSort _ _ v.row _ fun a _ b _ => ?_
    simp only [le, (hrow a).1, (hrow b).1, (hrow a).2, (hrow b).2]
  rw [hread h, hread h', hsame]

theorem filterMap_congr_of {α β γ : Type} {g : α → β} {f f' : α → Option γ} {l l' : List α}
    (hf : ∀ a b, g a = g b → f a = f' b) (h : l.map g = l'.map g) : l.filterMap f = l'.filterMap f' := by
  have hmap : l.map f = l'.map f' := Window.map_congr_of (fun a _ b _ hab => hf a b hab) h
  have hid : ∀ (f : α → Option γ) (l : List α), l.filterMap f = (l.map f).filterMap id := fun f l => by
    rw [List.filterMap_map]
    rfl
  rw [hid, hid, hmap]

/-- The crop of a cluster but for one, among the rows that are read. -/
theorem lookup_seen {id : String} (hid : id ≠ X.text)
    (hbare : ∀ id, v.bare id = true → id = X) (h : rows.map v.row = rows'.map v.row) :
    (LoopState.start rows).crops.lookup id = (LoopState.start rows').crops.lookup id := by
  simp only [LoopState.start]
  induction rows generalizing rows' with
  | nil =>
      have hnil : rows' = [] := List.map_eq_nil_iff.mp h.symm
      rw [hnil]
  | cons c rows ih =>
      cases rows' with
      | nil => cases h
      | cons c' rows' =>
          rw [List.map_cons, List.map_cons, List.cons.injEq] at h
          obtain ⟨hrow, hrest⟩ := h
          have hids : (v.row c).id = (v.row c').id := congrArg Cluster.id hrow
          change c.id = c'.id at hids
          have hskip : ∀ {c : Cluster K} {rows : List (Cluster K)}, c.id = X →
              ((c :: rows).filterMap fun c => c.cropObject.map (c.id.text, ·)).lookup id =
                (rows.filterMap fun c => c.cropObject.map (c.id.text, ·)).lookup id := by
            intro c rows hc
            rw [List.filterMap_cons]
            cases c.cropObject with
            | none => rfl
            | some key =>
                have hne : (id == c.id.text) = false := beq_eq_false_iff_ne.mpr (hc ▸ hid)
                simp only [Option.map_some, List.lookup_cons, hne]
          by_cases hX : c.id = X
          · rw [hskip hX, hskip (hids ▸ hX), ih hrest]
          · have hcrop : c.cropObject = c'.cropObject := by
              have hseen : (v.row c).cropObject = (v.row c').cropObject := congrArg Cluster.cropObject hrow
              have hnot : ∀ d : Cluster K, d.id ≠ X → (v.row d).cropObject = d.cropObject := fun d hd =>
                if_neg fun hb => hd (hbare _ hb)
              rwa [hnot c hX, hnot c' (hids ▸ hX)] at hseen
            rw [List.filterMap_cons, List.filterMap_cons, hcrop, hids]
            cases c'.cropObject with
            | none => exact ih hrest
            | some key =>
                simp only [Option.map_some, List.lookup_cons, ih hrest]

theorem forgetCount_ofRow (c : Cluster K) : forgetCount X (.ofRow c) =
    ⟨c.id.text, c.isNamed, c.centroid, if c.id = X then 0 else c.sampleCount⟩ := by
  have hX : (Known.ofRow c).id = X.text ↔ c.id = X := Uuid.text_injective.eq_iff
  rw [forgetCount, if_congr hX rfl rfl]
  split <;> rfl

/-- Two readings that differ in the count of one cluster. -/
theorem recounted_of (howner : castUuid ownerId = .ok owner)
    (hv : v = ⟨owner, fun _ => false, fun _ => false, true⟩)
    (hsame : v.clusters db = v.clusters db') (hdb : Tallied owner db) (hdb' : Tallied owner db')
    (hcounts : ∀ id, id ≠ X → db.countFor id = db'.countFor id)
    (h : Db.getClustersForOwner db ownerId = .ok rows) (h' : Db.getClustersForOwner db' ownerId = .ok rows') :
    Recounted X (LoopState.start rows) (LoopState.start rows') := by
  subst hv
  have hrows := rows_seen howner rfl (fun _ => rfl) hsame h h'
  refine ⟨?_, ?_, rfl, rfl⟩
  · simp only [LoopState.start, List.map_map]
    refine Window.map_congr_of (fun c hc c' hc' hrow => ?_) hrows
    obtain ⟨hmem, hown⟩ := (getClustersForOwner_mem howner h).mp hc
    obtain ⟨hmem', hown'⟩ := (getClustersForOwner_mem howner h').mp hc'
    simp only [Window.row, Cluster.mk.injEq] at hrow
    obtain ⟨hid, -, -, hnamed, hcentroid, -⟩ := hrow
    rw [Function.comp, Function.comp, forgetCount_ofRow, forgetCount_ofRow, hid, hnamed, hcentroid]
    by_cases hX : c'.id = X
    · rw [if_pos hX, if_pos hX]
    · rw [if_neg hX, if_neg hX, hdb.counts c hmem hown, hdb'.counts c' hmem' hown', hid, hcounts _ hX]
  · refine filterMap_congr_of (fun c c' hrow => ?_) hrows
    simp only [Window.row, Cluster.mk.injEq] at hrow
    obtain ⟨hid, -, -, -, -, -, hcrop, -⟩ := hrow
    simp only [Bool.false_eq_true, if_false] at hcrop
    rw [hid, hcrop]

/-- Two readings of which the other finds a crop of one cluster. -/
theorem cropped_of (howner : castUuid ownerId = .ok owner)
    (hv : v = ⟨owner, fun _ => false, fun id => id = X, true⟩) (hsame : v.Same db db')
    (hdb : Tallied owner db) (hdb' : Tallied owner db') {key : String} (hX : HasOwner X owner db')
    (hcrop : CropIs X key db') (h : Db.getClustersForOwner db ownerId = .ok rows)
    (h' : Db.getClustersForOwner db' ownerId = .ok rows') :
    Cropped X (LoopState.start rows) (LoopState.start rows') := by
  subst hv
  have hrows := rows_seen howner rfl (fun _ => rfl) hsame.clusters h h'
  refine ⟨?_, fun id hid => ?_, ?_, rfl, rfl, fun k hk => ?_⟩
  · refine Window.map_congr_of (fun c hc c' hc' hrow => ?_) hrows
    obtain ⟨hmem, hown⟩ := (getClustersForOwner_mem howner h).mp hc
    obtain ⟨hmem', hown'⟩ := (getClustersForOwner_mem howner h').mp hc'
    simp only [Window.row, Cluster.mk.injEq] at hrow
    obtain ⟨hid, -, -, hnamed, hcentroid, -⟩ := hrow
    have hcount : db.countFor c'.id = db'.countFor c'.id := hsame.countFor rfl
    simp only [Known.ofRow, hid, hnamed, hcentroid, hdb.counts c hmem hown, hdb'.counts c' hmem' hown', hcount]
  · exact lookup_seen hid (fun id hid => by simpa using hid) hrows
  · obtain ⟨c, hc, hid⟩ := List.mem_map.mp (has_iff.mp hX.there)
    have hrow := (getClustersForOwner_mem howner h').mpr ⟨hc, hX.owner c hc hid⟩
    refine List.lookup_isSome_iff.mpr ⟨(c.id.text, key), ?_, ?_⟩
    · refine List.mem_filterMap.mpr ⟨c, hrow, ?_⟩
      rw [hcrop c hc hid]
      rfl
    · rw [hid]
      exact beq_self_eq_true _
  · obtain ⟨c, -, rfl⟩ := List.mem_map.mp hk
    exact ⟨c.id, rfl⟩

end Rows

end FacesService
