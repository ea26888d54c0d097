import FacesService.Reader.Attach
import FacesService.System.Programs

/-!
The endpoints of the reader keep to the rules. All but `attach_frame_face` make
only calls that may be made anywhere: what they write, they write under the owner
they have checked, so nothing that happens after the check can turn a write on
another owner. `attach_frame_face` appends, and its cluster is still its owner's
when it does.
-/

namespace FacesService

open Prog Prog.Discipline Database Reader

variable {K : Type}

/-- Somebody acts for each user the caller may act for. -/
def Permits (acts : String → Prop) (auth : AuthContext) : Prop :=
  ∀ ownerId, ensureOwner auth ownerId = .ok () → acts ownerId

theorem Permits.self {acts : String → Prop} {auth : AuthContext} (h : Permits acts auth) :
    acts auth.userId := by
  refine h auth.userId ?_
  unfold ensureOwner
  split
  · rfl
  · exact if_neg fun hne => hne rfl

section

variable {svc : Service K} {auth : AuthContext} {acts : String → Prop} {w₀ : World K}
  {E : PyError → Prop}

/-- The program makes only calls that may be made anywhere. -/
abbrev Harmless (acts : String → Prop) (w₀ : World K) {α : Type} (p : Program K α) : Prop :=
  p.Within (Free acts w₀) fun _ => True

theorem query_harmless (q : Query K) : Harmless acts w₀ (query q) := within_perform (free_query q)

theorem call_harmless {op : Call K} (hcrop : op.crop = none) (hwrite : ∀ wr, op ≠ .write wr) :
    Harmless acts w₀ (call op) :=
  within_perform (free_read hcrop hwrite)

theorem write_harmless {wr : Write K} {userId : String} (hactor : wr.actor = some userId)
    (hplain : wr.Plain) (hacts : acts userId) : Harmless acts w₀ (write wr) :=
  within_perform (free_write hplain hactor hacts)

theorem orElse_harmless {α : Type} {p : Program K α} (hp : Harmless acts w₀ p) (other : α) :
    Harmless acts w₀ (orElse p other) := by
  refine within_tryCatch hp fun e => ?_
  split
  · trivial
  · exact within_pure other

theorem purgeCrop_harmless (due : Bool) {ownerId : String} (clusterId : String) (hacts : acts ownerId) :
    Harmless acts w₀ (purgeCrop svc due ownerId clusterId) := by
  unfold purgeCrop
  split
  · exact orElse_harmless (p := call (.deleteCrop ownerId clusterId)) (within_perform (free_crop rfl hacts)) ()
  · exact within_pure ()

/-! ### Whole endpoints -/

variable [Arithmetic K]  {supply : Supply}

/-- The program keeps to the rules, whatever it is told. -/
abbrev Behaves (svc : Service K) (supply : Supply) (acts : String → Prop)
    (w₀ : World K) {α : Type} (p : Program K α) : Prop :=
  Obeys svc supply acts w₀ (fun _ => True) p fun _ _ => True

theorem Behaves.of_harmless {α : Type} {p : Program K α} (hp : Harmless acts w₀ p) :
    Behaves svc supply acts w₀ p :=
  Obeys.free hp lasting_true

theorem Behaves.before {α β : Type} {p : Program K α} {f : α → Program K β}
    (hp : Behaves svc supply acts w₀ p) (hf : ∀ a, Behaves svc supply acts w₀ (f a)) :
    Behaves svc supply acts w₀ (p >>= f) :=
  Maintains.bind hp hf

/-- A call with what its answer says for good, and what may be done with that. -/
theorem Behaves.then_write {β : Type} {wr : Write K} {f : wr.Answer → Program K β} {userId : String}
    (hactor : wr.actor = some userId) (hplain : wr.Plain) (hacts : acts userId)
    {Q : wr.Answer → Prop}
    (hQ : ∀ fresh now db c, wr.run svc.pf fresh now db = .ok c → Q c.result)
    (hf : ∀ a, Q a → Behaves svc supply acts w₀ (f a)) : Behaves svc supply acts w₀ (write wr >>= f) := by
  have hwrite : Obeys svc supply acts w₀ (fun _ => True) (write wr) fun a _ => Q a :=
    write_obeys lasting_true (fun w _ _ => free_write hplain hactor hacts w)
      fun c w w' _ _ hrun _ _ _ => hQ _ _ _ c hrun
  exact hwrite.bind fun a => Maintains.assuming (fun _ h => h) fun ha => (hf a ha).forget fun _ _ => trivial

theorem listFaces_behaves (limit offset : ℕ) (sort : String) (order : Option String) :
    Behaves svc supply acts w₀ (listFaces svc auth limit offset sort order) := by
  refine .of_harmless (within_bind (within_lift fun _ _ => trivial) fun reverse => ?_)
  refine within_bind (query_harmless _) fun clusters => ?_
  exact within_bind (query_harmless _) fun videos => within_lift fun _ _ => trivial

theorem searchVideosByFaces_behaves (clusterIds : List String) (mode : Db.SearchMode) :
    Behaves svc supply acts w₀ (searchVideosByFaces auth clusterIds mode) :=
  .of_harmless (within_bind (query_harmless _) fun _ => within_pure _)

theorem suggestFaces_behaves (q : String) (exclude : Option String) :
    Behaves svc supply acts w₀ (suggestFaces auth q exclude) :=
  .of_harmless (within_bind (query_harmless _) fun _ => within_pure _)

/-! ### Deleting -/

theorem deleteListed_behaves (hacts : acts auth.userId) (deleted : ℕ) (clusterId : String) :
    Behaves svc supply acts w₀ (deleteListed svc auth deleted clusterId) := by
  refine .then_write (Q := fun found => ∀ result, found = some result → result.ownerId = auth.userId)
    rfl trivial hacts ?_ ?_
  · intro fresh now db c hrun result hresult
    rcases Db.deleteCluster_ok hrun with rfl | ⟨id, row, streams, howned, rfl⟩
    · cases hresult
    · cases hresult
      exact howned.owner
  · intro found hfound
    cases found with
    | none => exact .of_harmless (within_pure _)
    | some result =>
        have howner : acts result.ownerId := hfound result rfl ▸ hacts
        exact .of_harmless (within_bind (purgeCrop_harmless _ _ howner) fun _ => within_pure _)

theorem deleteAll_behaves (hacts : acts auth.userId) (ids : List String) (deleted : ℕ) :
    Behaves svc supply acts w₀ (ids.foldlM (deleteListed svc auth) deleted) :=
  Maintains.foldlM (J := fun _ _ => True) (fun deleted clusterId _ => deleteListed_behaves hacts deleted clusterId)
    deleted

theorem deleteEmptyFaces_behaves (hacts : acts auth.userId) :
    Behaves svc supply acts w₀ (deleteEmptyFaces svc auth) :=
  .before (.of_harmless (query_harmless _)) fun _ => deleteAll_behaves hacts _ 0

/-- The id is one of a cluster of somebody one may act for. -/
def Ours (supply : Supply) (acts : String → Prop) (clusterId : String) (w : World K) : Prop :=
  ∃ id owner : Uuid, castUuid clusterId = .ok id ∧ acts owner.text ∧ Belongs supply owner.text id w

omit [Arithmetic K] in
theorem lasting_ours (clusterId : String) : Lasting supply (Ours (K := K) supply acts clusterId) := by
  rintro w w' h ⟨id, owner, hid, hacts, hbelongs⟩
  exact ⟨id, owner, hid, hacts, h _ _ hbelongs⟩

/-- What a cluster read by its id tells. -/
theorem getCluster_obeys {P : World K → Prop} (hP : Lasting supply P) (clusterId : String) :
    Obeys svc supply acts w₀ P (query (.getCluster clusterId none)) fun found w =>
      P w ∧ ∀ c, found = some c → castUuid clusterId = .ok c.id ∧ c ∈ w.db.clusters ∧
        Belongs supply c.ownerId.text c.id w := by
  refine query_obeys hP fun found w w' horder horder' hPw hrun hdb => ⟨hPw, fun c hfound => ?_⟩
  subst hfound
  obtain ⟨id, hid, hrow⟩ := rowOf_eq_some.mp (getCluster_some.mp hrun)
  obtain ⟨hmem, rfl⟩ := mem_of_clusterById hrow
  exact ⟨hid, hdb ▸ hmem, horder'.belongs (hdb ▸ hmem) (isMine_text_iff.mpr rfl)⟩

/-- What `ownedCluster` finds out: one may act for the owner, whose cluster it stays. -/
theorem ownedCluster_obeys (hauth : Permits acts auth) {P : World K → Prop} (hP : Lasting supply P)
    (clusterId : String) :
    Obeys svc supply acts w₀ P (ownedCluster auth clusterId) fun c w =>
      (castUuid clusterId = .ok c.id ∧ acts c.ownerId.text) ∧ P w ∧ Belongs supply c.ownerId.text c.id w := by
  refine (getCluster_obeys hP clusterId).bind fun found => ?_
  cases found with
  | none => exact Maintains.fail
  | some c =>
      dsimp only
      cases howner : ensureOwner auth c.ownerId.text with
      | error e => exact Maintains.fail
      | ok u =>
          refine Maintains.ret fun w hw => ?_
          obtain ⟨hPw, hfound⟩ := hw
          obtain ⟨hid, -, hbelongs⟩ := hfound c rfl
          exact ⟨⟨hid, hauth _ howner⟩, hPw, hbelongs⟩

theorem Behaves.owned {α : Type} (hauth : Permits acts auth) (clusterId : String)
    {f : Cluster K → Program K α} (hf : ∀ c, acts c.ownerId.text → Behaves svc supply acts w₀ (f c)) :
    Behaves svc supply acts w₀ (ownedCluster auth clusterId >>= f) :=
  (ownedCluster_obeys hauth lasting_true clusterId).bind fun c =>
    Maintains.assuming (fun _ hw => hw.1.2) fun hacts => (hf c hacts).forget fun _ _ => trivial

theorem deleteFace_behaves (hauth : Permits acts auth) (clusterId : String) :
    Behaves svc supply acts w₀ (deleteFace svc auth clusterId) := by
  refine .owned hauth clusterId fun c hacts => ?_
  refine .then_write (Q := fun found => ∀ result, found = some result → result.ownerId = c.ownerId.text)
    rfl trivial hacts ?_ ?_
  · intro fresh now db c hrun result hresult
    rcases Db.deleteCluster_ok hrun with rfl | ⟨id, row, streams, howned, rfl⟩
    · cases hresult
    · cases hresult
      exact howned.owner
  · intro found hfound
    cases found with
    | none => exact Maintains.fail
    | some result =>
        have howner : acts result.ownerId := hfound result rfl ▸ hacts
        exact .of_harmless (within_bind (purgeCrop_harmless _ _ howner) fun _ => within_pure _)

theorem detachStreamFace_behaves (hauth : Permits acts auth) (streamId clusterId : String) :
    Behaves svc supply acts w₀ (detachStreamFace svc auth streamId clusterId) := by
  refine .owned hauth clusterId fun c hacts => ?_
  refine .of_harmless (within_bind (write_harmless rfl trivial hacts) fun found => ?_)
  cases found with
  | none => trivial
  | some result => exact within_bind (purgeCrop_harmless _ _ hacts) fun _ => within_pure _

/-! ### Merging -/

/-- Every cluster of a merge is somebody's one may act for, and so is the target's owner. -/
theorem chooseTarget_obeys (hauth : Permits acts auth) (ids : List String)
    {target : Option (String × String)} (htarget : ∀ t, target = some t → acts t.2) {P : World K → Prop}
    (hP : Lasting supply P) :
    Obeys svc supply acts w₀ P (chooseTarget auth ids target) fun found w =>
      (∀ t, found = some t → acts t.2) ∧ P w ∧ ∀ cid ∈ ids, Ours supply acts cid w := by
  induction ids generalizing target P with
  | nil => exact Maintains.ret fun w hw => ⟨htarget, hw, fun _ h => by cases h⟩
  | cons cid ids ih =>
      unfold chooseTarget
      refine (ownedCluster_obeys hauth hP cid).bind fun c => ?_
      refine Maintains.assuming (fun _ hw => hw.1) fun ⟨hid, hacts⟩ => ?_
      have hnext : ∀ t, (target.or (if c.isNamed then some (cid, c.ownerId.text) else none)) = some t →
          acts t.2 := by
        intro t ht
        cases target with
        | some t₀ => exact htarget t ht
        | none =>
            rw [Option.none_or] at ht
            split at ht
            · cases ht
              exact hacts
            · cases ht
      have hlasting : Lasting supply fun w => P w ∧ Ours supply acts cid w :=
        fun w w' h hw => ⟨hP w w' h hw.1, lasting_ours cid w w' h hw.2⟩
      refine ((ih hnext hlasting).forget ?_).weaken ?_
      · exact fun w hw => ⟨hw.2.1, c.id, c.ownerId, hid, hacts, hw.2.2⟩
      · rintro found w ⟨hfound, ⟨hPw, hcid⟩, hids⟩
        exact ⟨hfound, hPw, List.forall_mem_cons.mpr ⟨hcid, hids⟩⟩

/-- The cluster is read again, but its owner is the one that was checked. -/
theorem defaultTarget_obeys (ids : List String) :
    Obeys svc supply acts w₀ (fun w => ∀ cid ∈ ids, Ours supply acts cid w) (defaultTarget ids)
      fun target _ => acts target.2 := by
  cases ids with
  | nil => exact Maintains.fail
  | cons cid ids =>
      unfold defaultTarget
      have hours : Lasting supply fun w : World K => ∀ cid' ∈ cid :: ids, Ours supply acts cid' w :=
        fun w w' h hw cid' hmem => lasting_ours cid' w w' h (hw cid' hmem)
      refine (getCluster_obeys hours cid).bind fun found => ?_
      cases found with
      | none => exact Maintains.fail
      | some c =>
          refine Maintains.ret fun w hw => ?_
          obtain ⟨hall, hfound⟩ := hw
          obtain ⟨hid, hmem, -⟩ := hfound c rfl
          obtain ⟨id, owner, hid', hacts, hbelongs⟩ := hall cid List.mem_cons_self
          rw [hid] at hid'
          cases hid'
          rw [isMine_text_iff.mp (hbelongs.mine c hmem rfl)]
          exact hacts

theorem selectTarget_obeys (hauth : Permits acts auth) (ids : List String) :
    Obeys svc supply acts w₀ (fun _ => True) (selectTarget auth ids) fun target _ => acts target.2 := by
  refine (chooseTarget_obeys hauth ids (fun _ h => by cases h) lasting_true).bind fun found => ?_
  cases found with
  | some target => exact Maintains.ret fun w hw => hw.1 target rfl
  | none => exact (defaultTarget_obeys ids).forget fun w hw => hw.2.2

omit [Arithmetic K] in
theorem purgeMerged_harmless {ownerId : String} (hacts : acts ownerId) (ids : List String) :
    Harmless acts w₀ (ids.forM (purgeCrop svc true ownerId)) :=
  within_forM (fun cid => purgeCrop_harmless true cid hacts) ids

theorem mergeFaces_behaves (hauth : Permits acts auth) (clusterIds : List String) :
    Behaves svc supply acts w₀ (mergeFaces svc auth clusterIds) := by
  refine (selectTarget_obeys hauth clusterIds).bind fun target => ?_
  refine Maintains.assuming (fun _ h => h) fun hacts => Maintains.forget ?_ fun _ _ => trivial
  refine Behaves.of_harmless (within_bind (write_harmless rfl trivial hacts) fun found => ?_)
  cases found with
  | none => trivial
  | some result =>
      refine within_bind (purgeMerged_harmless hacts _) fun _ => ?_
      exact within_bind (query_harmless _) fun _ => within_pure _

omit [Arithmetic K] in
theorem mergeGroup_harmless (hacts : acts auth.userId) (counts : MergeCounts) (g : Group K) :
    Harmless acts w₀ (mergeGroup svc auth counts g) := by
  have hmerge : ∀ target ids, Harmless acts w₀ (write (.mergeClusters auth.userId target ids)) :=
    fun _ _ => write_harmless rfl trivial hacts
  refine within_bind (orElse_harmless (hmerge _ _) none) fun found => ?_
  cases found with
  | none => exact within_pure _
  | some result => exact within_bind (purgeMerged_harmless hacts _) fun _ => within_pure _

theorem mergeDuplicateGroups_behaves (hacts : acts auth.userId) (minSimilarity : Option K) :
    Behaves svc supply acts w₀ (mergeDuplicateGroups svc auth minSimilarity) := by
  refine .of_harmless (within_bind (query_harmless _) fun clusters => ?_)
  refine within_bind (query_harmless _) fun videos => ?_
  refine within_bind (within_lift fun _ _ => trivial) fun groups => ?_
  exact within_foldlM (fun counts g _ => mergeGroup_harmless hacts counts g) _

/-! ### One cluster -/

theorem getFace_behaves (hauth : Permits acts auth) (clusterId : String) :
    Behaves svc supply acts w₀ (getFace auth clusterId) := by
  refine .owned hauth clusterId fun c _ => .of_harmless (within_bind (query_harmless _) fun _ => ?_)
  exact within_bind (query_harmless _) fun _ => within_pure _

theorem renameFace_behaves (hauth : Permits acts auth) (clusterId : String) (name : Option String) :
    Behaves svc supply acts w₀ (renameFace auth clusterId name) := by
  refine .owned hauth clusterId fun c hacts => ?_
  refine .of_harmless (within_bind (write_harmless rfl trivial hacts) fun refused => ?_)
  cases refused with
  | none => exact query_harmless _
  | some answer => trivial

theorem streamFaces_behaves (streamId : String) :
    Behaves svc supply acts w₀ (streamFaces auth streamId) := by
  refine .of_harmless (within_bind (query_harmless _) fun rows => ?_)
  refine within_foldlM (fun out entry _ => ?_) _
  refine within_bind (query_harmless _) fun found => ?_
  cases found with
  | none => exact within_pure _
  | some c =>
      dsimp only
      split <;> exact within_pure _

/-! ### Pictures -/

theorem detectFaces_behaves (file : Bytes) : Behaves svc supply acts w₀ (detectFaces svc auth file) := by
  refine .of_harmless (within_bind (within_lift fun _ _ => trivial) fun img => ?_)
  refine within_bind (within_lift fun _ _ => trivial) fun _ => within_bind ?_ fun index =>
    within_bind (within_lift fun _ _ => trivial) fun _ => within_pure _
  refine within_bind (call_harmless rfl fun _ h => by cases h) fun seen => ?_
  obtain ⟨epoch, entry⟩ := seen
  cases entry with
  | some value => exact within_pure _
  | none =>
      refine within_bind (query_harmless _) fun clusters => ?_
      refine within_bind (within_lift fun _ _ => trivial) fun value => ?_
      exact within_bind (call_harmless rfl fun _ h => by cases h) fun _ => within_pure _

theorem faceCrop_behaves (hauth : Permits acts auth) (clusterId : String) :
    Behaves svc supply acts w₀ (faceCrop svc auth clusterId) := by
  refine .owned hauth clusterId fun c _ => .of_harmless (within_bind (within_lift fun _ _ => trivial) fun _ => ?_)
  refine within_bind (call_harmless rfl fun _ h => by cases h) fun found => ?_
  cases found with
  | none => trivial
  | some blob => exact within_pure _

omit [Arithmetic K] in
theorem putClusterCrop_harmless {c : Cluster K} (hacts : acts c.ownerId.text) (clusterId : String)
    (jpeg : Bytes) : Harmless acts w₀ (putClusterCrop c clusterId jpeg) := by
  refine within_bind (within_perform (free_crop rfl hacts)) fun key => ?_
  refine within_bind (write_harmless rfl trivial hacts) fun _ => ?_
  exact within_bind (query_harmless _) fun _ => within_pure _

theorem replaceFaceCrop_behaves (hauth : Permits acts auth) (clusterId : String) (file : Bytes) :
    Behaves svc supply acts w₀ (replaceFaceCrop svc auth clusterId file) := by
  refine .owned hauth clusterId fun c hacts => ?_
  refine .of_harmless (within_bind (within_lift fun _ _ => trivial) fun img => ?_)
  cases svc.vision.imencode img with
  | none => trivial
  | some jpeg =>
      exact within_bind (within_lift fun _ _ => trivial) fun _ => putClusterCrop_harmless hacts clusterId jpeg

theorem renderSampleCrop_harmless (c : Cluster K) (streamId : String) (tSeconds : K) :
    Harmless acts w₀ (renderSampleCrop svc c streamId tSeconds) := by
  unfold renderSampleCrop
  dsimp only
  split
  · exact within_pure _
  · refine within_bind (within_lift fun _ _ => trivial) fun _ => ?_
    refine within_bind (query_harmless _) fun found => ?_
    cases found with
    | none => exact within_pure _
    | some occ =>
        dsimp only
        split
        · refine within_bind (call_harmless rfl fun _ h => by cases h) fun raw => ?_
          cases raw with
          | none => exact within_pure _
          | some raw =>
              dsimp only
              split
              · exact within_pure _
              · exact within_bind (within_lift fun _ _ => trivial) fun _ => within_pure _
        · exact within_pure _

theorem faceSampleCrop_behaves (hauth : Permits acts auth) (clusterId streamId : String) (tSeconds : K) :
    Behaves svc supply acts w₀ (faceSampleCrop svc auth clusterId streamId tSeconds) := by
  refine .owned hauth clusterId fun c _ => ?_
  refine .of_harmless (within_bind (renderSampleCrop_harmless c streamId tSeconds) fun found => ?_)
  cases found with
  | none => trivial
  | some jpeg => exact within_pure _

theorem replaceFaceCropFromSample_behaves (hauth : Permits acts auth) (clusterId streamId : String)
    (tSeconds : K) :
    Behaves svc supply acts w₀ (replaceFaceCropFromSample svc auth clusterId streamId tSeconds) := by
  refine .owned hauth clusterId fun c hacts => ?_
  refine .of_harmless (within_bind (within_lift fun _ _ => trivial) fun _ => ?_)
  refine within_bind (renderSampleCrop_harmless c streamId tSeconds) fun found => ?_
  cases found with
  | none => trivial
  | some jpeg => exact putClusterCrop_harmless hacts clusterId jpeg

/-! ### Attaching -/

theorem givenCluster_obeys (hauth : Permits acts auth) (clusterId : Option String) :
    Obeys svc supply acts w₀ (fun _ => True) (givenCluster auth clusterId) fun given w =>
      (∀ c, given = some c → acts c.ownerId.text) ∧
        ∀ c, given = some c → Belongs supply c.ownerId.text c.id w := by
  cases clusterId with
  | none => exact Maintains.ret fun _ _ => ⟨by simp, by simp⟩
  | some id =>
      unfold givenCluster
      dsimp only
      split
      · exact Maintains.ret fun _ _ => ⟨by simp, by simp⟩
      · refine (ownedCluster_obeys hauth lasting_true id).bind fun c => Maintains.ret fun w hw => ?_
        obtain ⟨⟨-, hacts⟩, -, hbelongs⟩ := hw
        refine ⟨fun c' h => ?_, fun c' h => ?_⟩
        · cases h
          exact hacts
        · cases h
          exact hbelongs

/-- A cluster the attach has made is its owner's as well. -/
theorem attachTarget_obeys {ownerId : String} (hacts : acts ownerId) (centroid : List K)
    (cluster : Option (Cluster K)) :
    Obeys svc supply acts w₀ (fun w => ∀ c, cluster = some c → Belongs supply ownerId c.id w)
      (attachTarget ownerId centroid cluster) fun target w => Belongs supply ownerId target.1.id w := by
  cases cluster with
  | some c => exact Maintains.ret fun w hw => hw c rfl
  | none =>
      refine Maintains.forget ?_ fun _ _ => trivial
      refine Maintains.bind (upsert_obeys hacts centroid lasting_true) fun newId => ?_
      have hnew : Lasting supply fun w : World K => True ∧ Belongs supply ownerId newId w :=
        fun w w' h hw => ⟨trivial, h _ _ hw.2⟩
      have hread : Obeys svc supply acts w₀ (fun w => True ∧ Belongs supply ownerId newId w)
          (query (.getCluster newId.text (some ownerId))) fun found w =>
            ∀ c, found = some c → Belongs supply ownerId c.id w := by
        refine query_obeys hnew fun found w w' horder horder' hw' hrun hdb c hfound => ?_
        subst hfound
        obtain ⟨id, howned⟩ := Db.getCluster_owned hrun
        obtain ⟨-, hid⟩ := mem_of_clusterById howned.found
        have hnewId := howned.cast
        rw [Uuid.castUuid_text] at hnewId
        cases hnewId
        exact hid ▸ hw'.2
      refine hread.bind fun found => ?_
      cases found with
      | none => exact Maintains.fail
      | some c => exact Maintains.ret fun w hw => hw c rfl

theorem attachCrop_harmless {ownerId : String} (hacts : acts ownerId) (img : Image) (clusterId : String)
    (det : Detection K) (c : Cluster K) : Harmless acts w₀ (attachCrop svc img ownerId clusterId det c) := by
  unfold attachCrop
  split
  · exact within_pure _
  · split
    · exact within_pure _
    · split
      · refine within_bind (within_perform (free_crop rfl hacts)) fun key => ?_
        exact write_harmless rfl trivial hacts
      · exact within_pure _

/-- An append of sightings of the user's clusters. -/
theorem append_obeys {ownerId : String} (hacts : acts ownerId) (streamId : String)
    {items : List (Db.Item K)} {P : World K → Prop} (hP : Lasting supply P)
    (hitems : ∀ w, P w → AllBelong supply ownerId (items.map (·.clusterId)) w) :
    Obeys svc supply acts w₀ P (write (.appendStreamOccurrences ownerId streamId items)) fun _ _ => True := by
  refine write_obeys hP (fun w _ hPw => ?_) fun _ _ _ _ _ _ _ _ _ => trivial
  refine ⟨fun it hit id hid => ?_, fun userId h => ?_, fun _ h => by cases h⟩
  · exact (hitems w hPw it.clusterId (List.mem_map_of_mem hit) id hid).mine
  · cases h
    exact hacts

theorem attachTo_obeys {ownerId : String} (hacts : acts ownerId) (streamId : String) (tSeconds : K)
    (img : Image) (det : Detection K) (c : Cluster K) (created : Bool) :
    Obeys svc supply acts w₀ (Belongs supply ownerId c.id)
      (attachTo svc streamId tSeconds img det ownerId c created) fun _ _ => True := by
  have happend : Obeys svc supply acts w₀ (Belongs supply ownerId c.id) (write (.appendStreamOccurrences ownerId
      streamId [⟨c.id.text, asFloat32 svc.pf det.embedding, tSeconds, det.confidence⟩])) fun _ _ => True := by
    refine append_obeys hacts streamId (fun w w' h hw => h _ _ hw) fun w hw s hs id hid => ?_
    rw [List.map_singleton, List.mem_singleton] at hs
    rw [hs, Uuid.castUuid_text] at hid
    cases hid
    exact hw
  refine happend.bind fun written => ?_
  refine Behaves.of_harmless (within_bind (within_lift fun _ _ => trivial) fun merged => ?_)
  refine within_bind (write_harmless rfl trivial hacts) fun _ => ?_
  refine within_bind (attachCrop_harmless hacts img _ det c) fun _ => ?_
  exact within_bind (query_harmless _) fun _ => within_pure _

theorem attachRest_obeys (hauth : Permits acts auth) (streamId : String) (tSeconds : K) (img : Image)
    (given : Option (Cluster K)) (hgiven : ∀ c, given = some c → acts c.ownerId.text) (det : Detection K) :
    Obeys svc supply acts w₀ (fun w => ∀ c, given = some c → Belongs supply c.ownerId.text c.id w)
      (attachRest svc auth streamId tSeconds img given det) fun _ _ => True := by
  unfold attachRest
  cases given with
  | none =>
      refine Maintains.bind ?_ fun target => attachTo_obeys hauth.self streamId tSeconds img det target.1 target.2
      exact (attachTarget_obeys hauth.self _ none).forget fun _ _ c h => by cases h
  | some c =>
      have hacts : acts c.ownerId.text := hgiven c rfl
      refine Maintains.bind ?_ fun target => attachTo_obeys hacts streamId tSeconds img det target.1 target.2
      refine (attachTarget_obeys hacts _ (some c)).forget fun w hw c' h => ?_
      cases h
      exact hw c rfl

theorem attachFrameFace_behaves (hauth : Permits acts auth) (streamId : String) (file : Bytes)
    (bbox : String) (tSeconds : K) (clusterId : Option String) :
    Behaves svc supply acts w₀ (attachFrameFace svc auth streamId file bbox tSeconds clusterId) := by
  refine .before (.of_harmless (within_lift fun _ _ => trivial)) fun img => ?_
  refine .before (.of_harmless (within_lift fun _ _ => trivial)) fun _ => ?_
  refine .before (.of_harmless (within_lift fun _ _ => trivial)) fun box => ?_
  split
  · exact Maintains.fail
  · refine (givenCluster_obeys hauth clusterId).bind fun given => ?_
    refine Maintains.assuming (fun _ hw => hw.1) fun hgiven => ?_
    refine Maintains.bind (Maintains.lifted (Q := fun _ w => _) fun _ _ _ hw => hw.2) fun det => ?_
    exact attachRest_obeys hauth streamId tSeconds img given hgiven det

/-! ### All endpoints -/

/-- **Every endpoint keeps to the rules** under the users its caller may act for. -/
theorem serve_behaves (hauth : Permits acts auth) (r : Request K) :
    Behaves svc supply acts w₀ (serve svc auth r) := by
  cases r with
  | listFaces limit offset sort order => exact listFaces_behaves limit offset sort order
  | searchVideosByFaces clusterIds mode => exact searchVideosByFaces_behaves clusterIds mode
  | suggestFaces q exclude => exact suggestFaces_behaves q exclude
  | deleteEmptyFaces => exact deleteEmptyFaces_behaves hauth.self
  | deleteFacesBatch clusterIds => exact deleteAll_behaves hauth.self _ 0
  | deleteFace clusterId => exact deleteFace_behaves hauth clusterId
  | detachStreamFace streamId clusterId => exact detachStreamFace_behaves hauth streamId clusterId
  | mergeFaces clusterIds => exact mergeFaces_behaves hauth clusterIds
  | mergeDuplicateGroups minSimilarity => exact mergeDuplicateGroups_behaves hauth.self minSimilarity
  | getFace clusterId => exact getFace_behaves hauth clusterId
  | renameFace clusterId name => exact renameFace_behaves hauth clusterId name
  | streamFaces streamId => exact streamFaces_behaves streamId
  | detectFaces file => exact detectFaces_behaves file
  | attachFrameFace streamId file bbox tSeconds clusterId =>
      exact attachFrameFace_behaves hauth streamId file bbox tSeconds clusterId
  | faceCrop clusterId => exact faceCrop_behaves hauth clusterId
  | replaceFaceCrop clusterId file => exact replaceFaceCrop_behaves hauth clusterId file
  | faceSampleCrop clusterId streamId tSeconds =>
      exact faceSampleCrop_behaves hauth clusterId streamId tSeconds
  | replaceFaceCropFromSample clusterId streamId tSeconds =>
      exact replaceFaceCropFromSample_behaves hauth clusterId streamId tSeconds

end

end FacesService
