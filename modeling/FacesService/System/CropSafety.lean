import FacesService.Reader.Pictures
import FacesService.Route.Retry
import FacesService.System.CropRules
import FacesService.System.Programs

/-!
The programs of the service are tidy, each beside any others: a crop is noted right
after it was put, and purged right after its cluster was deleted.
-/

namespace FacesService

open Prog Prog.Discipline Database Reader

variable {K : Type} [Arithmetic K]

/-! ### The rules -/

def cropRules (pf : Platform K) (supply : Supply) :
    Discipline (Call K) Call.Answer PyError (World K) where
  answers op w r w' := Outcome pf supply.oracle op w r w' ∧ w'.draws ≤ supply.limit
  admits := Call.Tidy supply
  rely := CropRely supply
  refl := .refl
  trans := .trans
  guarantee htidy hout := hout.1.cropRely htidy hout.2

variable {svc : Service K} {auth : AuthContext} {supply : Supply}

/-- A tidy program, with what it knows. -/
abbrev Tidies (svc : Service K) (supply : Supply) {α : Type} (P : World K → Prop) (p : Program K α)
    (Q : α → World K → Prop) : Prop :=
  (cropRules svc.pf supply).Maintains (Illustrated supply) P p Q

/-- What nobody takes away while the rules are kept. -/
def Lasts (svc : Service K) (supply : Supply) (P : World K → Prop) : Prop :=
  (cropRules svc.pf supply).Stable fun w => Illustrated supply w ∧ P w

theorem lasts_true : Lasts svc supply fun _ => True :=
  fun _ _ hrely hw => ⟨(hrely hw.1).1, trivial⟩

/-- The string is the id of a cluster that is gone. -/
def GoneBy (supply : Supply) (clusterId : String) (w : World K) : Prop :=
  ∃ id, castUuid clusterId = .ok id ∧ Gone supply id w

theorem lasts_goneBy (A : Prop) (ids : List String) :
    Lasts svc supply fun w => A → ∀ cid ∈ ids, GoneBy supply cid w := by
  intro w w' hrely hw
  obtain ⟨hw', hgone, -⟩ := hrely hw.1
  refine ⟨hw', fun hA cid hcid => ?_⟩
  obtain ⟨id, hid, hgoneId⟩ := hw.2 hA cid hcid
  exact ⟨id, hid, hgone id hgoneId⟩

omit [Arithmetic K] in
/-- A crop under such a string is nobody's, whoever it was put for. -/
theorem GoneBy.unneeded {clusterId : String} {w : World K} (h : GoneBy supply clusterId w) (ownerId : String) :
    Unneeded supply (cropKey ownerId clusterId) w := by
  intro ownerId' clusterId' id hid hkey
  obtain ⟨id', hid', hgone⟩ := h
  obtain ⟨-, rfl⟩ := cropKey_inj (slash_not_mem hid') (slash_not_mem hid) hkey
  rw [hid] at hid'
  cases hid'
  exact hgone

/-! ### Calls -/

/-- A call that is tidy anywhere. -/
def Easy (supply : Supply) (op : Call K) : Prop := ∀ w, op.Tidy supply w

omit [Arithmetic K] in
theorem Looks.easy {op : Call K} (h : Looks op) : Easy supply op := by
  cases h <;> exact fun _ => trivial

theorem easy_tidies {α : Type} {p : Program K α} (hp : p.Within (Easy supply) fun _ => True) :
    Tidies svc supply (fun _ => True) p fun _ _ => True :=
  Maintains.of_within hp lasts_true fun _ w hop _ => hop w

theorem looks_tidies {α : Type} {p : Program K α} (hp : p.Within Looks fun _ => True) :
    Tidies svc supply (fun _ => True) p fun _ _ => True :=
  Maintains.of_within hp lasts_true fun _ w hop _ => hop.easy w

/-- A write with what its answer says of the tables. -/
theorem write_tidies {wr : Write K} (heasy : Easy supply (.write wr)) {Q : wr.Answer → World K → Prop}
    (hQ : ∀ c w w', Illustrated supply w → (∀ row ∈ w.db.clusters, ∀ n, w'.draws ≤ n → n < supply.limit →
        supply.oracle.fresh n ≠ row.id) →
      wr.run svc.pf (supply.oracle.fresh w.draws) (supply.oracle.clock w.calls) w.db = .ok c → w'.db = c.db →
      Q c.result w') :
    Tidies svc supply (fun _ => True) (write wr) Q := by
  refine Discipline.Keeps.performed lasts_true (fun w _ => heasy w) (fun a w w' hw hout => ?_)
    fun e w w' hw hout => ?_
  · obtain ⟨hw', -⟩ := hout.1.cropRely (heasy w) hout.2 hw.1
    obtain ⟨c, hrun, rfl, hdb, hdraws⟩ := Outcome.write_ok hout.1
    refine ⟨hw', hQ c w w' hw.1 (fun row hrow n hn hlimit heq => ?_) hrun hdb⟩
    exact hw.1.unborn n (by omega) hlimit row hrow heq.symm
  · exact (hout.1.cropRely (heasy w) hout.2 hw.1).1

/-- What is put may be noted. -/
theorem putCrop_tidies (ownerId clusterId : String) (data : Bytes) :
    Tidies svc supply (fun _ => True) (call (.putCrop ownerId clusterId data)) fun key w =>
      key = cropKey ownerId clusterId ∧ InBucket supply ownerId clusterId w := by
  have heasy : Easy (K := K) supply (.putCrop ownerId clusterId data) := fun _ => trivial
  refine Discipline.Keeps.performed lasts_true (fun w _ => heasy w) (fun key w w' hw hout => ?_)
    fun e w w' hw hout => (hout.1.cropRely (heasy w) hout.2 hw.1).1
  refine ⟨(hout.1.cropRely (heasy w) hout.2 hw.1).1, ?_⟩
  obtain ⟨-, -, ⟨⟨e, he⟩, -⟩ | ⟨hkey, hobjects⟩⟩ := Outcome.putCrop_cases hout.1
  · cases he
  · refine ⟨hkey key rfl, fun id hid => .inl ?_⟩
    rw [hobjects, Function.update_self]
    simp

theorem noteCrop_tidies (ownerId clusterId key : String) :
    Tidies svc supply (fun w => key = cropKey ownerId clusterId ∧ InBucket supply ownerId clusterId w)
      (write (.setClusterCrop clusterId ownerId (some key))) fun _ _ => True := by
  have hlasts : Lasts svc supply fun w => key = cropKey ownerId clusterId ∧ InBucket supply ownerId clusterId w :=
    fun w w' hrely hw => ⟨(hrely hw.1).1, hw.2.1, (hrely hw.1).2.2 _ _ hw.2.2⟩
  have htidy : ∀ w, key = cropKey ownerId clusterId ∧ InBucket supply ownerId clusterId w →
      Call.Tidy (K := K) supply (.write (.setClusterCrop clusterId ownerId (some key))) w := by
    rintro w ⟨rfl, hbucket⟩ key' hkey'
    cases hkey'
    exact ⟨ownerId, rfl, hbucket⟩
  refine Discipline.Keeps.performed hlasts (fun w hw => htidy w hw.2) (fun a w w' hw hout => ?_)
    fun e w w' hw hout => ?_
  · exact ⟨(hout.1.cropRely (htidy w hw.2) hout.2 hw.1).1, trivial⟩
  · exact (hout.1.cropRely (htidy w hw.2) hout.2 hw.1).1

/-- To put a crop and to note it. -/
theorem saveCrop_tidies {α : Type} (ownerId clusterId : String) (data : Bytes) {f : String → Program K α}
    (hf : ∀ key, Tidies svc supply (fun _ => True) (f key) fun _ _ => True) :
    Tidies svc supply (fun _ => True) (do
      let key ← call (.putCrop ownerId clusterId data)
      write (.setClusterCrop clusterId ownerId (some key))
      f key) fun _ _ => True :=
  (putCrop_tidies ownerId clusterId data).bind fun key =>
    (noteCrop_tidies ownerId clusterId key).bind fun _ => hf key

/-! ### Deleting -/

omit [Arithmetic K] in
theorem goneBy_of_loses {clusterId : String} {id : Uuid} {w w' : World K} {gone : List Uuid}
    {row : Cluster K} (hid : castUuid clusterId = .ok id) (hrow : row ∈ w.db.clusters) (hrid : row.id = id)
    (hdrawn : ∀ row ∈ w.db.clusters, ∀ n, w'.draws ≤ n → n < supply.limit → supply.oracle.fresh n ≠ row.id)
    (hloses : Loses gone w.db w'.db) (hgone : id ∈ gone) : GoneBy supply clusterId w' := by
  refine ⟨id, hid, fun n hn hlimit => hrid ▸ hdrawn row hrow n hn hlimit, fun c hc heq => ?_⟩
  apply (hloses.mem hc).1
  rw [heq]
  exact hgone

/-- Of a cluster that was deleted the crop may be purged. -/
theorem deleteCluster_tidies (clusterId ownerId : String) :
    Tidies svc supply (fun _ => True) (write (.deleteCluster clusterId ownerId)) fun found w =>
      found ≠ none → ∀ cid ∈ [clusterId], GoneBy supply cid w := by
  refine write_tidies (fun _ => by trivial) fun c w w' _ hdrawn hrun hdb => ?_
  rcases deleteCluster_loses hrun with ⟨hresult, -, -⟩ | ⟨id, row, d, hown, -, -, -, hloses⟩
  · exact fun hfound => absurd hresult hfound
  · intro _ cid hcid
    rw [List.mem_singleton.mp hcid]
    refine goneBy_of_loses hown.cast hown.mem.1 hown.mem.2 hdrawn (hdb ▸ hloses) (List.mem_singleton_self id)

theorem detach_tidies (clusterId streamId ownerId : String) :
    Tidies svc supply (fun _ => True) (write (.detachClusterFromStream clusterId streamId ownerId))
      fun found w => (∃ d, found = some d ∧ d.cropObject ≠ none) → ∀ cid ∈ [clusterId], GoneBy supply cid w := by
  refine write_tidies (fun _ => by trivial) fun c w w' hw hdrawn hrun hdb => ?_
  rcases detachClusterFromStream_loses hw.ids hrun with ⟨-, hnone⟩ |
    ⟨id, row, d, stream, hown, -, -, -, -, hloses⟩
  · rintro ⟨d, hd, hcrop⟩
    exact absurd (hnone d hd) hcrop
  · intro _ cid hcid
    rw [List.mem_singleton.mp hcid]
    refine goneBy_of_loses hown.cast hown.mem.1 hown.mem.2 hdrawn (hdb ▸ hloses) (List.mem_singleton_self id)

theorem merge_tidies (ownerId targetId : String) (sourceIds : List String) :
    Tidies svc supply (fun _ => True) (write (.mergeClusters ownerId targetId sourceIds)) fun found w =>
      ∀ m, found = some m → ∀ cid ∈ m.deletedClusterIds, GoneBy supply cid w := by
  refine write_tidies (fun _ => by trivial) fun c w w' hw hdrawn hrun hdb m hm => ?_
  rcases mergeClusters_loses hrun with ⟨hresult, -⟩ | ⟨m', hresult, hids, howned, hloses⟩
  · rw [hresult] at hm
    cases hm
  · rw [hresult] at hm
    cases hm
    intro cid hcid
    rw [hids] at hcid
    obtain ⟨id, row, hown⟩ := howned cid hcid
    exact goneBy_of_loses hown.cast hown.mem.1 hown.mem.2 hdrawn (hdb ▸ hloses)
      (mem_denoted.mpr ⟨cid, hcid, hown.cast⟩)

theorem purgeCrop_tidies {due : Bool} (ownerId clusterId : String) {ids : List String} {A : Prop}
    (hA : due = true → A) (hmem : clusterId ∈ ids) :
    Tidies svc supply (fun w => A → ∀ cid ∈ ids, GoneBy supply cid w) (purgeCrop svc due ownerId clusterId)
      fun _ w => A → ∀ cid ∈ ids, GoneBy supply cid w := by
  unfold purgeCrop
  split
  · rename_i hdue
    have hholds : A := hA (Bool.and_eq_true_iff.mp hdue).2
    unfold orElse
    refine Discipline.Keeps.caught (F := fun w => Illustrated supply w ∧ (A → ∀ cid ∈ ids, GoneBy supply cid w))
      (Discipline.Keeps.performed_stable (lasts_goneBy A ids) fun w hw => ?_) fun e => ?_
    · exact (hw.2 hholds clusterId hmem).unneeded ownerId
    · split
      · exact Discipline.Keeps.fail fun _ hw => hw.1
      · exact Discipline.Keeps.ret fun _ hw => hw
  · exact Maintains.ret fun _ hw => hw

/-- To purge what may be purged, and to go on. -/
theorem purgeOne_tidies {α : Type} {A : Prop} (due : Bool) (ownerId clusterId : String) (hA : due = true → A)
    {rest : Program K α} (hrest : Tidies svc supply (fun _ => True) rest fun _ _ => True) :
    Tidies svc supply (fun w => A → ∀ cid ∈ [clusterId], GoneBy supply cid w)
      (purgeCrop svc due ownerId clusterId >>= fun _ => rest) fun _ _ => True :=
  (purgeCrop_tidies ownerId clusterId hA (List.mem_singleton_self _)).bind fun _ =>
    hrest.forget fun _ _ => trivial

theorem purgeAll_tidies (ownerId : String) (ids : List String) :
    Tidies svc supply (fun w => True → ∀ cid ∈ ids, GoneBy supply cid w)
      (ids.forM (purgeCrop svc true ownerId)) fun _ _ => True :=
  (Maintains.forM fun cid hcid => purgeCrop_tidies ownerId cid (fun _ => trivial) hcid).weaken
    fun _ _ _ => trivial

theorem deleteListed_tidies (deleted : ℕ) (clusterId : String) :
    Tidies svc supply (fun _ => True) (deleteListed svc auth deleted clusterId) fun _ _ => True := by
  refine (deleteCluster_tidies clusterId auth.userId).bind fun found => ?_
  cases found with
  | none => exact .ret fun _ _ => trivial
  | some result => exact purgeOne_tidies _ _ _ (fun _ h => by cases h) (.ret fun _ _ => trivial)

theorem owned_tidies {α : Type} (clusterId : String) {f : Cluster K → Program K α}
    (hf : ∀ c, Tidies svc supply (fun _ => True) (f c) fun _ _ => True) :
    Tidies svc supply (fun _ => True) (ownedCluster auth clusterId >>= f) fun _ _ => True :=
  (looks_tidies (ownedCluster_looks clusterId)).bind hf

theorem deleteFace_tidies (clusterId : String) :
    Tidies svc supply (fun _ => True) (deleteFace svc auth clusterId) fun _ _ => True := by
  refine owned_tidies clusterId fun c => (deleteCluster_tidies clusterId c.ownerId.text).bind fun found => ?_
  cases found with
  | none => exact .fail
  | some result => exact purgeOne_tidies _ _ _ (fun _ h => by cases h) (.ret fun _ _ => trivial)

theorem detachStreamFace_tidies (streamId clusterId : String) :
    Tidies svc supply (fun _ => True) (detachStreamFace svc auth streamId clusterId) fun _ _ => True := by
  refine owned_tidies clusterId fun c => (detach_tidies clusterId streamId c.ownerId.text).bind fun found => ?_
  cases found with
  | none => exact .fail
  | some d =>
      refine purgeOne_tidies _ _ _ (fun hdue => ⟨d, rfl, fun hnone => ?_⟩) (.ret fun _ _ => trivial)
      -- a crop that is reported is one of the deleted cluster
      rw [hnone] at hdue
      cases hdue

theorem mergeFaces_tidies (ids : List String) :
    Tidies svc supply (fun _ => True) (mergeFaces svc auth ids) fun _ _ => True := by
  refine (looks_tidies (selectTarget_looks ids)).bind fun target => ?_
  refine (merge_tidies target.2 target.1 _).bind fun found => ?_
  cases found with
  | none => exact .fail
  | some m =>
      refine Maintains.bind ((purgeAll_tidies target.2 m.deletedClusterIds).forget ?_) fun _ => ?_
      · exact fun w hw _ cid hcid => hw m rfl cid hcid
      · exact looks_tidies (within_bind (within_perform (.query _)) fun _ => within_pure _)

theorem mergeGroup_tidies (counts : MergeCounts) (g : Group K) :
    Tidies svc supply (fun _ => True) (mergeGroup svc auth counts g) fun _ _ => True := by
  refine Maintains.bind (M := fun found w => ∀ m, found = some m → ∀ cid ∈ m.deletedClusterIds, GoneBy supply cid w)
    (.caught (merge_tidies auth.userId _ _) fun e => ?_) fun found => ?_
  · split
    · exact .fail
    · exact .ret fun _ _ m hm => by cases hm
  · cases found with
    | none => exact .ret fun _ _ => trivial
    | some m =>
        refine Maintains.bind ((purgeAll_tidies auth.userId m.deletedClusterIds).forget ?_) fun _ => ?_
        · exact fun w hw _ cid hcid => hw m rfl cid hcid
        · exact .ret fun _ _ => trivial

theorem mergeDuplicateGroups_tidies (minSimilarity : Option K) :
    Tidies svc supply (fun _ => True) (mergeDuplicateGroups svc auth minSimilarity) fun _ _ => True := by
  refine (looks_tidies (within_perform (.query _))).bind fun clusters => ?_
  refine (looks_tidies (within_perform (.query _))).bind fun videos => ?_
  refine Maintains.bind (M := fun _ _ => True) (.lifted fun _ _ _ _ => trivial) fun groups => ?_
  exact Maintains.foldlM (J := fun _ _ => True) (fun counts g _ => mergeGroup_tidies counts g) _

/-! ### Storing -/

theorem putClusterCrop_tidies (c : Cluster K) (clusterId : String) (jpeg : Bytes) :
    Tidies svc supply (fun _ => True) (putClusterCrop c clusterId jpeg) fun _ _ => True :=
  saveCrop_tidies c.ownerId.text clusterId jpeg fun _ =>
    looks_tidies (within_bind (within_perform (.query _)) fun _ => within_pure _)

theorem replaceFaceCrop_tidies (clusterId : String) (file : Bytes) :
    Tidies svc supply (fun _ => True) (replaceFaceCrop svc auth clusterId file) fun _ _ => True := by
  refine owned_tidies clusterId fun c => ?_
  refine Maintains.bind (M := fun _ _ => True) (.lifted fun _ _ _ _ => trivial) fun img => ?_
  cases svc.vision.imencode img with
  | none => exact .fail
  | some jpeg =>
      refine Maintains.bind (M := fun _ _ => True) (.lifted fun _ _ _ _ => trivial) fun _ => ?_
      exact putClusterCrop_tidies c clusterId jpeg

theorem replaceFaceCropFromSample_tidies (clusterId streamId : String) (tSeconds : K) :
    Tidies svc supply (fun _ => True) (replaceFaceCropFromSample svc auth clusterId streamId tSeconds)
      fun _ _ => True := by
  refine owned_tidies clusterId fun c => ?_
  refine Maintains.bind (M := fun _ _ => True) (.lifted fun _ _ _ _ => trivial) fun _ => ?_
  refine (looks_tidies (renderSampleCrop_looks c streamId tSeconds)).bind fun found => ?_
  cases found with
  | none => exact .fail
  | some jpeg => exact putClusterCrop_tidies c clusterId jpeg

omit [Arithmetic K] in
theorem attachTarget_easy (ownerId : String) (centroid : List K) (cluster : Option (Cluster K)) :
    (attachTarget ownerId centroid cluster).Within (Easy supply) fun _ => True := by
  cases cluster with
  | some c => exact within_pure _
  | none =>
      refine within_bind (within_perform (fun _ => by trivial)) fun newId => ?_
      refine within_bind (within_perform (Looks.query _).easy) fun found => ?_
      cases found with
      | none => trivial
      | some c => exact within_pure _

theorem attachCrop_tidies (img : Image) (ownerId clusterId : String) (det : Detection K) (c : Cluster K) :
    Tidies svc supply (fun _ => True) (attachCrop svc img ownerId clusterId det c) fun _ _ => True := by
  unfold attachCrop
  split
  · exact .ret fun _ _ => trivial
  · split
    · exact .ret fun _ _ => trivial
    · rename_i jpeg _
      split
      · exact (putCrop_tidies ownerId clusterId jpeg).bind fun key => noteCrop_tidies ownerId clusterId key
      · exact .ret fun _ _ => trivial

theorem attachFrameFace_tidies (streamId : String) (file : Bytes) (bbox : String) (tSeconds : K)
    (clusterId : Option String) :
    Tidies svc supply (fun _ => True) (attachFrameFace svc auth streamId file bbox tSeconds clusterId)
      fun _ _ => True := by
  have hlift : ∀ {α : Type} (r : Except PyError α),
      Tidies svc supply (fun _ => True) (lift r) fun _ _ => True := fun r => .lifted fun _ _ _ _ => trivial
  have hwrite : ∀ (wr : Write K), Easy supply (.write wr) →
      Tidies svc supply (fun _ => True) (write wr) fun _ _ => True := fun wr heasy =>
    easy_tidies (within_perform heasy)
  refine (hlift _).bind fun img => (hlift _).bind fun _ => (hlift _).bind fun box => ?_
  split
  · exact .fail
  · refine Maintains.bind (M := fun _ _ => True) ?_ fun given => ?_
    · unfold givenCluster
      split
      · exact .ret fun _ _ => trivial
      · split
        · exact .ret fun _ _ => trivial
        · exact owned_tidies _ fun c => .ret fun _ _ => trivial
    · refine (hlift _).bind fun det => ?_
      refine (easy_tidies (attachTarget_easy _ _ given)).bind fun target => ?_
      refine (hwrite _ fun _ => by trivial).bind fun written => (hlift _).bind fun merged => ?_
      refine (hwrite _ fun _ => by trivial).bind fun _ => ?_
      refine (attachCrop_tidies img _ _ det target.1).bind fun _ => ?_
      exact looks_tidies (within_bind (within_perform (.query _)) fun _ => within_pure _)

/-! ### All endpoints -/

theorem renameFace_tidies (clusterId : String) (name : Option String) :
    Tidies svc supply (fun _ => True) (renameFace auth clusterId name) fun _ _ => True := by
  refine owned_tidies clusterId fun c => ?_
  refine (easy_tidies (within_perform fun _ => by trivial)).bind fun refused => ?_
  cases refused with
  | none => exact looks_tidies (within_perform (.query _))
  | some answer => exact .fail

theorem serve_tidies (r : Request K) :
    Tidies svc supply (fun _ => True) (serve svc auth r) fun _ _ => True := by
  cases r with
  | listFaces limit offset sort order =>
      exact looks_tidies (within_bind (within_lift fun _ _ => trivial) fun _ =>
        within_bind (within_perform (.query _)) fun _ =>
          within_bind (within_perform (.query _)) fun _ => within_lift fun _ _ => trivial)
  | searchVideosByFaces clusterIds mode =>
      exact looks_tidies (within_bind (within_perform (.query _)) fun _ => within_pure _)
  | suggestFaces q exclude =>
      exact looks_tidies (within_bind (within_perform (.query _)) fun _ => within_pure _)
  | deleteEmptyFaces =>
      refine (looks_tidies (within_perform (.query _))).bind fun rows => ?_
      exact Maintains.foldlM (J := fun _ _ => True) (fun deleted cid _ => deleteListed_tidies deleted cid) 0
  | deleteFacesBatch clusterIds =>
      exact Maintains.foldlM (J := fun _ _ => True) (fun deleted cid _ => deleteListed_tidies deleted cid) 0
  | deleteFace clusterId => exact deleteFace_tidies clusterId
  | detachStreamFace streamId clusterId => exact detachStreamFace_tidies streamId clusterId
  | mergeFaces clusterIds => exact mergeFaces_tidies clusterIds
  | mergeDuplicateGroups minSimilarity => exact mergeDuplicateGroups_tidies minSimilarity
  | getFace clusterId =>
      exact owned_tidies clusterId fun c => looks_tidies (within_bind (within_perform (.query _)) fun _ =>
        within_bind (within_perform (.query _)) fun _ => within_pure _)
  | renameFace clusterId name => exact renameFace_tidies clusterId name
  | streamFaces streamId => exact looks_tidies (streamFaces_looks streamId)
  | detectFaces file => exact looks_tidies (detectFaces_looks file)
  | attachFrameFace streamId file bbox tSeconds clusterId =>
      exact attachFrameFace_tidies streamId file bbox tSeconds clusterId
  | faceCrop clusterId => exact looks_tidies (faceCrop_looks clusterId)
  | replaceFaceCrop clusterId file => exact replaceFaceCrop_tidies clusterId file
  | faceSampleCrop clusterId streamId tSeconds =>
      refine owned_tidies clusterId fun c => looks_tidies ?_
      refine within_bind (renderSampleCrop_looks c streamId tSeconds) fun found => ?_
      cases found with
      | none => trivial
      | some jpeg => exact within_pure _
  | replaceFaceCropFromSample clusterId streamId tSeconds =>
      exact replaceFaceCropFromSample_tidies clusterId streamId tSeconds

end FacesService
