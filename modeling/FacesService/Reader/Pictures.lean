import FacesService.Reader.Purges

/-!
The endpoints that store a crop, and those that leave crops alone; then all of
them. A crop is stored and noted in two calls, between which the album is not
settled; no other call of the same request comes in between.
-/

namespace FacesService.Reader

open Prog Database Fallible Db

variable {K : Type} [Arithmetic K] {svc : Service K} {auth : AuthContext} {oracle : Oracle}

/-! ### Storing -/

omit [Arithmetic K] in
theorem rowOf_ownerColumn {db : Database K} {clusterId : String} {c : Cluster K}
    (h : rowOf db clusterId = some c) : (c.id, c.ownerId) ∈ ownerColumn db := by
  obtain ⟨id, -, hfound⟩ := rowOf_eq_some.mp h
  exact List.mem_map.mpr ⟨c, (mem_of_clusterById hfound).1, rfl⟩

theorem putClusterCrop_leads (c : Cluster K) (jpeg : Bytes) :
    Leads svc oracle (fun a => a.Settled ∧ (c.id, c.ownerId) ∈ ownerColumn a.db)
      (putClusterCrop c c.id.text jpeg) (fun _ => Album.Settled) Album.Settled := by
  unfold putClusterCrop
  refine Triple.bind ((putCrop_leads (X := fun _ => True) c.ownerId c.id jpeg).conseq
    (fun _ h => ⟨⟨h.1, trivial⟩, h.2⟩) (fun _ _ h => h) fun _ h => h) fun key => ?_
  refine Triple.assuming (fun s h => h.1) fun hkey => ?_
  rw [hkey]
  refine Triple.bind ((setCrop_leads c.ownerId c.id jpeg).conseq (fun _ h => h.2)
    (fun _ _ h => h.1) fun _ h => h) fun _ => ?_
  exact Triple.bind (looks_keeps (within_perform (.query _))) fun _ => Triple.ret fun _ h => h

/-- The string under which the caller uploads a picture is the text of the cluster. -/
def ReplaceSpelled (svc : Service K) (auth : AuthContext) (clusterId : String) (file : Bytes)
    (db : Database K) : Prop :=
  ∀ row img, Mine auth db clusterId row → readImage svc file = .ok img →
    svc.vision.imencode img ≠ none → clusterId = row.id.text

theorem replaceFaceCrop_leads (clusterId : String) (file : Bytes) :
    Leads svc oracle (fun a => a.Settled ∧ ReplaceSpelled svc auth clusterId file a.db)
      (replaceFaceCrop svc auth clusterId file) (fun _ => Album.Settled) Album.Settled := by
  refine owned_leads (fun _ h => h.1) fun c howner => ?_
  refine Triple.bind (M := fun img s => readImage svc file = .ok img ∧
    ((albumOf s).Settled ∧ ReplaceSpelled svc auth clusterId file (albumOf s).db) ∧
    rowOf (albumOf s).db clusterId = some c)
    (Triple.lifted (fun _ _ hread h => ⟨hread, h⟩) fun _ h => h.1.1) fun img => ?_
  cases hjpeg : svc.vision.imencode img with
  | none => exact Triple.fail fun _ h => h.2.1.1
  | some jpeg =>
      refine Triple.bind (Triple.lifted (fun _ _ _ h => h) fun _ h => h.2.1.1) fun _ => ?_
      refine Triple.assuming (A := clusterId = c.id.text) ?_ fun hid => ?_
      · rintro s ⟨hread, ⟨-, hspelled⟩, hrow⟩
        exact hspelled c img ⟨hrow, howner⟩ hread (by simp [hjpeg])
      · rw [hid]
        exact (putClusterCrop_leads c jpeg).conseq
          (fun _ h => ⟨h.2.1.1, rowOf_ownerColumn h.2.2⟩) (fun _ _ h => h) fun _ h => h

theorem renderSampleCrop_looks (c : Cluster K) (streamId : String) (tSeconds : K) :
    (renderSampleCrop svc c streamId tSeconds).Within Looks fun _ => True := by
  unfold renderSampleCrop
  dsimp only
  split
  · exact within_pure _
  · refine within_bind (within_lift fun _ _ => trivial) fun _ =>
      within_bind (within_perform (.query _)) fun found => ?_
    cases found with
    | none => exact within_pure _
    | some occ =>
        dsimp only
        split
        · refine within_bind (within_perform (.getFrame _ _)) fun raw => ?_
          cases raw with
          | none => exact within_pure _
          | some raw =>
              dsimp only
              split
              · exact within_pure _
              · exact within_bind (within_lift fun _ _ => trivial) fun _ => within_pure _
        · exact within_pure _

/-- The string under which the caller picks a sample is the text of the cluster. -/
def SampleSpelled (auth : AuthContext) (clusterId : String) (db : Database K) : Prop :=
  ∀ row, Mine auth db clusterId row → clusterId = row.id.text

theorem replaceFaceCropFromSample_leads (clusterId streamId : String) (tSeconds : K) :
    Leads svc oracle (fun a => a.Settled ∧ SampleSpelled auth clusterId a.db)
      (replaceFaceCropFromSample svc auth clusterId streamId tSeconds) (fun _ => Album.Settled)
      Album.Settled := by
  refine owned_leads (fun _ h => h.1) fun c howner => ?_
  refine Triple.bind (Triple.lifted (fun _ _ _ h => h) fun _ h => h.1.1) fun _ => ?_
  refine Triple.bind ((looks_keeps (A := fun a => (a.Settled ∧ SampleSpelled auth clusterId a.db) ∧
    rowOf a.db clusterId = some c) (renderSampleCrop_looks c streamId tSeconds)).conseq
    (fun _ h => h) (fun _ _ h => h) fun _ h => h.1.1) fun found => ?_
  cases found with
  | none => exact Triple.fail fun _ h => h.1.1
  | some jpeg =>
      refine Triple.assuming (A := clusterId = c.id.text)
        (fun s h => h.1.2 c ⟨h.2, howner⟩) fun hid => ?_
      rw [hid]
      exact (putClusterCrop_leads c jpeg).conseq
        (fun _ h => ⟨h.1.1, rowOf_ownerColumn h.2⟩) (fun _ _ h => h) fun _ h => h

/-! ### Attaching -/

theorem givenCluster_leads (clusterId : Option String) :
    Leads svc oracle Album.Settled (givenCluster auth clusterId)
      (fun r a => a.Settled ∧ ∀ c ∈ r, (c.id, c.ownerId) ∈ ownerColumn a.db) Album.Settled := by
  unfold givenCluster
  cases clusterId with
  | none => exact Triple.ret fun _ h => ⟨h, by simp⟩
  | some id =>
      dsimp only
      split
      · exact Triple.ret fun _ h => ⟨h, by simp⟩
      · refine owned_leads (fun _ h => h) fun c howner => Triple.ret fun s h => ⟨h.1, fun c' hc' => ?_⟩
        cases hc'
        exact rowOf_ownerColumn h.2

/-- The cluster to attach to is there, and its owner has the name that is used. -/
theorem attachTarget_leads {ownerId : String} (centroid : List K) {cluster : Option (Cluster K)}
    (howner : ∀ c ∈ cluster, c.ownerId.text = ownerId) :
    Leads svc oracle (fun a => a.Settled ∧ ∀ c ∈ cluster, (c.id, c.ownerId) ∈ ownerColumn a.db)
      (attachTarget ownerId centroid cluster)
      (fun r a => r.1.ownerId.text = ownerId ∧ Peopled ((r.1.id, r.1.ownerId) ∈ ·) a)
      Album.Settled := by
  unfold attachTarget
  cases cluster with
  | some c => exact Triple.ret fun _ h => ⟨howner c rfl, h.1, h.2 c rfl⟩
  | none =>
      refine Triple.bind ((upsert_leads (X := fun _ => True) ownerId none false centroid).conseq
        (fun _ h => ⟨h.1, trivial⟩) (fun _ _ h => h) fun _ h => h.1) fun newId => ?_
      refine Triple.bind ((looks_leads (A := Album.Settled) (within_perform (.query _))).conseq
        (fun _ h => h.1) (fun _ _ h => h) fun _ h => h) fun found => ?_
      cases found with
      | none => exact Triple.fail fun _ h => h.1
      | some c =>
          refine Triple.ret ?_
          rintro s ⟨hset, w, w', hdb, -, hexec⟩
          rw [exec_query, Prod.mk.injEq, Query.run, getCluster, Uuid.castUuid_text, ok_bind] at hexec
          split at hexec
          · cases hexec.1
          · rename_i r hfound
            have hrow := hexec.1
            simp only [Except.ok.injEq] at hrow
            split at hrow
            · cases hrow
            · rename_i hmine
              cases hrow
              refine ⟨not_not.mp hmine, hset, List.mem_map.mpr ⟨c, ?_, rfl⟩⟩
              rw [← hdb]
              exact (mem_of_clusterById hfound).1

theorem attachCrop_leads (img : Image) (det : Detection K) (c : Cluster K) {owner id : Uuid} :
    Leads svc oracle (Peopled ((id, owner) ∈ ·))
      (attachCrop svc img owner.text id.text det c) (fun _ => Album.Settled) Album.Settled := by
  unfold attachCrop
  split
  · exact Triple.ret fun _ h => h.1
  · split
    · exact Triple.ret fun _ h => h.1
    · rename_i jpeg _
      split
      · refine Triple.bind ((putCrop_leads (X := fun _ => True) owner id jpeg).conseq
          (fun _ h => ⟨⟨h.1, trivial⟩, h.2⟩) (fun _ _ h => h) fun _ h => h) fun key => ?_
        refine Triple.assuming (fun s h => h.1) fun hkey => ?_
        rw [hkey]
        exact (setCrop_leads owner id jpeg).conseq (fun _ h => h.2) (fun _ _ h => h.1) fun _ h => h
      · exact Triple.ret fun _ h => h.1

theorem attachFrameFace_leads (streamId : String) (file : Bytes) (bbox : String) (tSeconds : K)
    (clusterId : Option String) :
    Leads svc oracle Album.Settled
      (attachFrameFace svc auth streamId file bbox tSeconds clusterId) (fun _ => Album.Settled)
      Album.Settled := by
  have hlift : ∀ {A : Album K → Prop} {α : Type} (r : Except PyError α), (∀ a, A a → a.Settled) →
      Leads svc oracle A (lift r) (fun _ => A) Album.Settled := fun r hA =>
    Triple.lifted (fun _ _ _ h => h) fun _ h => hA _ h
  unfold attachFrameFace
  refine Triple.bind (hlift _ fun _ h => h) fun img => Triple.bind (hlift _ fun _ h => h) fun _ =>
    Triple.bind (hlift _ fun _ h => h) fun box => ?_
  split
  · exact Triple.fail fun _ h => h
  · refine Triple.bind (givenCluster_leads clusterId) fun cluster => ?_
    refine Triple.bind (hlift (A := fun a => a.Settled ∧ ∀ c ∈ cluster, (c.id, c.ownerId) ∈
      ownerColumn a.db) _ fun _ h => h.1) fun det => ?_
    refine Triple.bind (attachTarget_leads _ fun c hc => by rw [Option.mem_def.mp hc]) ?_
    rintro ⟨c, created⟩
    refine Triple.assuming (fun s h => h.1) fun howner => ?_
    dsimp only at howner ⊢
    rw [← howner]
    refine Triple.bind ((keepsCrops_leads (X := ((c.id, c.ownerId) ∈ ·)) (by trivial)).conseq
      (fun _ h => h.2) (fun _ _ h => h) fun _ h => h.1) fun written => ?_
    refine Triple.bind (hlift (A := Peopled ((c.id, c.ownerId) ∈ ·)) _ fun _ h => h.1) fun merged => ?_
    refine Triple.bind ((keepsCrops_leads (X := ((c.id, c.ownerId) ∈ ·)) (by trivial)).conseq
      (fun _ h => h) (fun _ _ h => h) fun _ h => h.1) fun _ => ?_
    refine Triple.bind (attachCrop_leads img det c) fun _ => ?_
    exact Triple.bind (looks_keeps (within_perform (.query _))) fun _ => Triple.ret fun _ h => h

/-! ### Looking -/

omit [Arithmetic K] in
theorem streamFaces_looks (streamId : String) :
    (streamFaces (K := K) auth streamId).Within Looks fun _ => True := by
  refine within_bind (within_perform (.query _)) fun rows => within_foldlM (fun out entry _ => ?_) _
  unfold streamFace
  refine within_bind (within_perform (.query _)) fun found => ?_
  cases found with
  | none => exact within_pure _
  | some c =>
      dsimp only
      split
      · exact within_pure _
      · exact within_pure _

theorem detectFaces_looks (file : Bytes) :
    (detectFaces svc auth file).Within Looks fun _ => True := by
  have hlift : ∀ {α : Type} (r : Except PyError α),
      (lift r : Program K α).Within Looks fun _ => True := fun r => within_lift fun _ _ => trivial
  refine within_bind (hlift _) fun img => within_bind (hlift _) fun _ => within_bind ?_ fun index =>
    within_bind (hlift _) fun faces => within_pure _
  unfold suggestionIndex
  refine within_bind (within_perform (.cacheLookup _)) ?_
  rintro ⟨epoch, _ | value⟩
  · exact within_bind (within_perform (.query _)) fun clusters => within_bind (hlift _) fun value =>
      within_bind (within_perform (.cacheStore _ _ _)) fun _ => within_pure _
  · exact within_pure _

omit [Arithmetic K] in
theorem faceCrop_looks (clusterId : String) :
    (faceCrop svc auth clusterId).Within Looks fun _ => True := by
  refine within_bind (ownedCluster_looks clusterId) fun c =>
    within_bind (within_lift fun _ _ => trivial) fun _ =>
      within_bind (within_perform (.getCrop _ _)) fun found => ?_
  cases found with
  | none => trivial
  | some blob => exact within_pure _

theorem renameFace_leads (clusterId : String) (name : Option String) :
    Leads svc oracle Album.Settled (renameFace auth clusterId name) (fun _ => Album.Settled)
      Album.Settled := by
  refine owned_leads (fun _ h => h) fun c howner => ?_
  refine Triple.bind ((keepsCrops_leads (X := fun _ => True) (by trivial)).conseq
    (fun _ h => ⟨h.1, trivial⟩) (fun _ _ h => h) fun _ h => h.1) fun result => ?_
  cases result with
  | none =>
      exact (looks_keeps (A := Album.Settled) (within_perform (.query _))).conseq (fun _ h => h.1)
        (fun _ _ h => h) fun _ h => h
  | some conflict => exact Triple.fail fun _ h => h.1

/-! ### All endpoints -/

/-- The request names the clusters whose crops it stores or purges by their texts. -/
def Request.Spelled (svc : Service K) (auth : AuthContext) (db : Database K) : Request K → Prop
  | .replaceFaceCrop clusterId file => ReplaceSpelled svc auth clusterId file db
  | .replaceFaceCropFromSample clusterId _ _ => SampleSpelled auth clusterId db
  | .deleteFace clusterId => DeleteSpelled auth clusterId db
  | .detachStreamFace streamId clusterId => DetachSpelled auth streamId clusterId db
  | .deleteFacesBatch clusterIds => FirstSpelled auth (Db.fromKeys clusterIds) db
  | .mergeFaces clusterIds => ∀ targetId, mergeTarget db clusterIds = some targetId →
      SourcesSpelled (clusterIds.filter (· ≠ targetId)) db
  | _ => True

/-- **The step lemma**: a request that spells its ids right leaves a settled album
settled, whatever becomes of it. -/
theorem serve_leads (hready : svc.storeReady = true) (r : Request K) :
    Leads svc oracle (fun a => a.Settled ∧ r.Spelled svc auth a.db) (serve svc auth r)
      (fun _ => Album.Settled) Album.Settled := by
  have hsettled : ∀ {α : Type} {p : Program K α} {C : Album K → Prop},
      Leads svc oracle Album.Settled p (fun _ => Album.Settled) Album.Settled →
      Leads svc oracle (fun a => a.Settled ∧ C a) p (fun _ => Album.Settled) Album.Settled :=
    fun h => h.conseq (fun _ h => h.1) (fun _ _ h => h) fun _ h => h
  cases r with
  | listFaces limit offset sort order =>
      exact hsettled (looks_keeps (within_bind (within_lift fun _ _ => trivial) fun _ =>
        within_bind (within_perform (.query _)) fun _ =>
          within_bind (within_perform (.query _)) fun _ => within_lift fun _ _ => trivial))
  | searchVideosByFaces clusterIds mode =>
      exact hsettled (looks_keeps (within_bind (within_perform (.query _)) fun _ => within_pure _))
  | suggestFaces q exclude =>
      exact hsettled (looks_keeps (within_bind (within_perform (.query _)) fun _ => within_pure _))
  | deleteEmptyFaces => exact hsettled (deleteEmptyFaces_leads hready)
  | deleteFacesBatch clusterIds => exact deleteFacesBatch_leads hready clusterIds
  | deleteFace clusterId => exact deleteFace_leads hready clusterId
  | detachStreamFace streamId clusterId => exact detachStreamFace_leads hready streamId clusterId
  | mergeFaces clusterIds => exact mergeFaces_leads hready clusterIds
  | mergeDuplicateGroups minSimilarity => exact hsettled (mergeDuplicateGroups_leads hready _)
  | getFace clusterId =>
      exact hsettled (looks_keeps (within_bind (ownedCluster_looks clusterId) fun _ =>
        within_bind (within_perform (.query _)) fun _ =>
          within_bind (within_perform (.query _)) fun _ => within_pure _))
  | renameFace clusterId name => exact hsettled (renameFace_leads clusterId name)
  | streamFaces streamId => exact hsettled (looks_keeps (streamFaces_looks streamId))
  | detectFaces file => exact hsettled (looks_keeps (detectFaces_looks file))
  | attachFrameFace streamId file bbox tSeconds clusterId =>
      exact hsettled (attachFrameFace_leads streamId file bbox tSeconds clusterId)
  | faceCrop clusterId => exact hsettled (looks_keeps (faceCrop_looks clusterId))
  | replaceFaceCrop clusterId file => exact replaceFaceCrop_leads clusterId file
  | faceSampleCrop clusterId streamId tSeconds =>
      refine hsettled (looks_keeps (within_bind (ownedCluster_looks clusterId) fun c =>
        within_bind (renderSampleCrop_looks c streamId tSeconds) fun found => ?_))
      cases found with
      | none => trivial
      | some jpeg => exact within_pure _
  | replaceFaceCropFromSample clusterId streamId tSeconds =>
      exact replaceFaceCropFromSample_leads clusterId streamId tSeconds

end FacesService.Reader
