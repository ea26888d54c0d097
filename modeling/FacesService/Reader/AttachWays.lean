import FacesService.Reader.Serial

/-!
How far an attachment has come. At any moment it has not read the cluster, or not
written the centroid, or it has, and may have a crop to store or to set.
-/

namespace FacesService.Reader

open Prog Database Db

variable {K : Type} [Arithmetic K] {svc : Service K} {auth : AuthContext} {oracle : Oracle}
  {streamId bbox clusterId : String} {file : Bytes} {tSeconds : K} {X : Uuid}

/-! ### Up to its reading -/

/-- What an attachment makes of a row it has read. -/
structure AttachesTo (svc : Service K) (auth : AuthContext) (oracle : Oracle) (streamId : String)
    (file : Bytes) (bbox : String) (tSeconds : K) (clusterId : String) (X : Uuid) (img : Image)
    (det : Detection K) (owner : Uuid) : Prop where
  exec : ∀ t c, t.db.clusterById X = some c → c.ownerId = owner →
    (attachFrameFace svc auth streamId file bbox tSeconds (some clusterId)).exec (answer svc.pf oracle) t =
      (attachTo svc streamId tSeconds img det owner.text c false).exec (answer svc.pf oracle)
        (answer svc.pf oracle (.query (.getCluster clusterId none)) t).2

omit [Arithmetic K] in
theorem getCluster_found {db : Database K} (hX : castUuid clusterId = .ok X) :
    getCluster db clusterId none = .ok (db.clusterById X) := by
  rw [getCluster, hX, Fallible.ok_bind]
  cases db.clusterById X <;> rfl

theorem afterRead_some {img : Image} {box : K × K × K × K} {c : Cluster K} {det : Detection K}
    (howner : ensureOwner auth c.ownerId.text = .ok ()) (hdet : faceInBox box (detectOn svc img) = .ok det) :
    afterRead svc auth streamId tSeconds img box (some c) =
      attachTo svc streamId tSeconds img det c.ownerId.text c false := by
  simp only [afterRead, howner, hdet]
  rfl

/-- A race with an attachment that completes, at the call that reads the cluster. -/
theorem attach_at_read {α : Type} {p : Program K α} {w w' : World K} {log : List (Moment K)}
    {r : Except PyError α} {body : AttachBody K} (hX : castUuid clusterId = .ok X)
    (h : Race (Answered svc.pf oracle) (Answered svc.pf oracle) p
      (attachFrameFace svc auth streamId file bbox tSeconds (some clusterId)) w log r (.ok body) w') :
    ∃ before p₁ s₁ c img det rest,
      Goes (Answered svc.pf oracle) p w before p₁ s₁ ∧ s₁.db.clusterById X = some c ∧
      log = before.map .inl ++ .inr ⟨.query (.getCluster clusterId none), .ok (some c), s₁,
        (answer svc.pf oracle (.query (.getCluster clusterId none)) s₁).2⟩ :: rest ∧
      Race (Answered svc.pf oracle) (Answered svc.pf oracle) p₁
        (attachTo svc streamId tSeconds img det c.ownerId.text c false)
        (answer svc.pf oracle (.query (.getCluster clusterId none)) s₁).2 rest r (.ok body) w' ∧
      AttachesTo svc auth oracle streamId file bbox tSeconds clusterId X img det c.ownerId := by
  have hne : clusterId ≠ "" := by
    rintro rfl
    have hempty : castUuid "" = .error .invalidUuid := by decide
    rw [hempty] at hX
    cases hX
  rcases attach_reads svc auth hne streamId file bbox tSeconds with ⟨e, he⟩ | ⟨img, box, heq⟩
  · rw [he] at h
    cases h.raised
  · rw [heq] at h
    obtain ⟨p₁, s₁, a, s₂, before, rest, hgoes, hanswer, hlog, hrace⟩ := h.until_performed
    obtain ⟨ha, rfl⟩ := hanswer.parts
    have hfound : Except.ok a = getCluster s₁.db clusterId none := ha
    rw [getCluster_found hX, Except.ok.injEq] at hfound
    subst hfound
    cases hrow : s₁.db.clusterById X with
    | none =>
        rw [hrow] at hrace
        cases hrace.raised
    | some c =>
        rw [hrow] at hrace hlog
        cases howner : ensureOwner auth c.ownerId.text with
        | error e =>
            simp only [afterRead, howner] at hrace
            cases hrace.raised
        | ok _ =>
            cases hdet : faceInBox box (detectOn svc img) with
            | error e =>
                simp only [afterRead, howner, hdet] at hrace
                cases Race.raised hrace
            | ok det =>
                rw [afterRead_some howner hdet] at hrace
                refine ⟨before, p₁, s₁, c, img, det, rest, hgoes, hrow, hlog, hrace, ⟨?_⟩⟩
                intro t c' hrow' hown
                have hread : (query (K := K) (.getCluster clusterId none)).exec (answer svc.pf oracle) t =
                    (.ok (some c'), (answer svc.pf oracle (.query (.getCluster clusterId none)) t).2) := by
                  rw [exec_perform]
                  refine Prod.ext ?_ rfl
                  exact (getCluster_found hX).trans (congrArg Except.ok hrow')
                rw [heq, exec_bind_ok hread, afterRead_some (hown ▸ howner) hdet, hown]

/-! ### After its reading -/

/-- At its end the attachment reads the cluster back. -/
def readBack (c : Cluster K) (created : Bool) (tSeconds : K) (written : ℕ) : Program K (AttachBody K) :=
  query (.getCluster c.id.text (some c.ownerId.text)) >>= fun updated =>
    pure ⟨updated, created, written, tSeconds⟩

/-- Before that it sets the crop it has stored. -/
def setStored (c : Cluster K) (created : Bool) (tSeconds : K) (written : ℕ) (key : String) :
    Program K (AttachBody K) :=
  write (.setClusterCrop c.id.text c.ownerId.text (some key)) >>= fun _ =>
    readBack c created tSeconds written

theorem attachTo_eq (img : Image) (det : Detection K) (c : Cluster K) (created : Bool) :
    attachTo svc streamId tSeconds img det c.ownerId.text c created =
      write (.appendStreamOccurrences c.ownerId.text streamId
        [⟨c.id.text, asFloat32 svc.pf det.embedding, tSeconds, det.confidence⟩]) >>= fun written =>
      lift (mergeCentroid svc.pf (asFloat32 svc.pf c.centroid) c.sampleCount
        (asFloat32 svc.pf det.embedding)) >>= fun merged =>
      write (.updateClusterCentroid c.id.text c.ownerId.text merged) >>= fun _ =>
      attachCrop svc img c.ownerId.text c.id.text det c >>= fun _ =>
        readBack c created tSeconds written := rfl

theorem attachCrop_shape (svc : Service K) (img : Image) (det : Detection K) (c : Cluster K)
    (created : Bool) (tSeconds : K) (written : ℕ) :
    (attachCrop svc img c.ownerId.text c.id.text det c >>= fun _ => readBack c created tSeconds written) =
        readBack c created tSeconds written ∨
      ∃ jpeg, (attachCrop svc img c.ownerId.text c.id.text det c >>= fun _ =>
          readBack c created tSeconds written) =
        call (.putCrop c.ownerId.text c.id.text jpeg) >>= setStored c created tSeconds written := by
  unfold attachCrop
  split
  · exact .inl rfl
  · split
    · exact .inl rfl
    · rename_i jpeg _
      split
      · exact .inr ⟨jpeg, perform_bind_bind _ _ _⟩
      · exact .inl rfl

/-- Once the centroid is written, the crop is not stored yet, or not set yet, or
there is nothing left to write. -/
inductive CropPending (c : Cluster K) (created : Bool) (tSeconds : K) (written : ℕ) :
    Program K (AttachBody K) → Prop
  | store (jpeg : Bytes) : CropPending c created tSeconds written
      (call (.putCrop c.ownerId.text c.id.text jpeg) >>= setStored c created tSeconds written)
  | set : CropPending c created tSeconds written
      (setStored c created tSeconds written (cropKey c.ownerId.text c.id.text))

inductive NothingPending (c : Cluster K) (created : Bool) (tSeconds : K) (written : ℕ) :
    Program K (AttachBody K) → Prop
  | read : NothingPending c created tSeconds written (readBack c created tSeconds written)
  | done (body : AttachBody K) : NothingPending c created tSeconds written (pure body)

section Goes

variable {pf : Platform K} {c : Cluster K} {created : Bool} {written : ℕ} {s s' : World K}
  {log : List (Event K)} {q : Program K (AttachBody K)}

theorem goes_readBack (h : Goes (Answered pf oracle) (readBack c created tSeconds written) s log q s') :
    NothingPending c created tSeconds written q ∨ ∃ e, q = .raise e := by
  rcases h.performed with ⟨-, rfl, -⟩ | ⟨updated, s₁, rest, -, -, hrest⟩ | hraised
  · exact .inl .read
  · cases hrest
    exact .inl (.done _)
  · exact .inr hraised

theorem goes_setStored
    (h : Goes (Answered pf oracle)
      (setStored c created tSeconds written (cropKey c.ownerId.text c.id.text)) s log q s') :
    NothingPending c created tSeconds written q ∨ CropPending c created tSeconds written q ∨
      ∃ e, q = .raise e := by
  rcases h.performed with ⟨-, rfl, -⟩ | ⟨_, s₁, rest, -, -, hrest⟩ | hraised
  · exact .inr (.inl .set)
  · exact (goes_readBack hrest).imp_right .inr
  · exact .inr (.inr hraised)

theorem goes_attachCrop {img : Image} {det : Detection K}
    (h : Goes (Answered pf oracle) (attachCrop svc img c.ownerId.text c.id.text det c >>= fun _ =>
      readBack c created tSeconds written) s log q s') :
    NothingPending c created tSeconds written q ∨ CropPending c created tSeconds written q ∨
      ∃ e, q = .raise e := by
  rcases attachCrop_shape svc img det c created tSeconds written with heq | ⟨jpeg, heq⟩
  · rw [heq] at h
    exact (goes_readBack h).imp_right .inr
  · rw [heq] at h
    rcases h.performed with ⟨-, rfl, -⟩ | ⟨key, s₁, rest, hanswer, -, hrest⟩ | hraised
    · exact .inr (.inl (.store jpeg))
    · have hkey : Except.ok key = Except.ok (cropKey c.ownerId.text c.id.text) := hanswer.parts.1
      cases hkey
      exact goes_setStored hrest
    · exact .inr (.inr hraised)

omit [Arithmetic K] in
theorem goes_raise {e : PyError} {α : Type} {q : Program K α}
    {answers : (op : Call K) → World K → Except PyError op.Answer → World K → Prop}
    (h : Goes answers (.raise e) s log q s') : q = .raise e := by
  cases h
  rfl

/-- An attachment that has not raised has not written the centroid yet, and then the
clusters are as before but for a count; or it has, and a crop may be pending. -/
theorem goes_attachTo {img : Image} {det : Detection K}
    (h : Goes (Answered pf oracle)
      (attachTo svc streamId tSeconds img det c.ownerId.text c created) s log q s')
    (hq : ∀ e, q ≠ .raise e) :
    ((∀ st ∈ log, ∀ a, st.op ≠ .write (.updateClusterCentroid c.id.text c.ownerId.text a)) ∧
      ∀ v : Window, v.owner = c.ownerId → v.clusters s'.db = v.clusters s.db) ∨
    ∃ written, NothingPending c created tSeconds written q ∨ CropPending c created tSeconds written q := by
  rw [attachTo_eq] at h
  rcases h.performed with ⟨rfl, -, rfl⟩ | ⟨written, s₁, rest, hanswer, rfl, hrest⟩ | ⟨e, rfl⟩
  · exact .inl ⟨by simp, fun _ _ => rfl⟩
  · cases hmerged : mergeCentroid svc.pf (asFloat32 svc.pf c.centroid) c.sampleCount
      (asFloat32 svc.pf det.embedding) with
    | error e =>
        rw [hmerged, lift_error_bind] at hrest
        exact absurd (goes_raise hrest) (hq e)
    | ok merged =>
        rw [hmerged, lift_ok_bind] at hrest
        rcases hrest.performed with ⟨rfl, -, rfl⟩ | ⟨_, s₂, rest', -, rfl, hlater⟩ | ⟨e, rfl⟩
        · refine .inl ⟨fun st hst a => ?_, fun v hv => ?_⟩
          · rw [List.mem_singleton.mp hst]
            exact fun h => by cases h
          · obtain ⟨-, rfl⟩ := hanswer.parts
            rw [(answer_write _ s).2.1]
            exact Write.append_clusters (hv ▸ Uuid.castUuid_text c.ownerId)
        · refine .inr ⟨written, ?_⟩
          rcases goes_attachCrop hlater with hnothing | hcrop | ⟨e, rfl⟩
          · exact .inl hnothing
          · exact .inr hcrop
          · exact absurd rfl (hq e)
        · exact absurd rfl (hq e)
  · exact absurd rfl (hq e)

/-- With nothing to write, it ends where it is. -/
theorem NothingPending.exec (h : NothingPending c created tSeconds written q) (pf : Platform K)
    (oracle : Oracle) (s : World K) :
    ∃ body t, q.exec (answer pf oracle) s = (.ok body, t) ∧ t.db = s.db ∧
      ∀ v : Window, Alongside v s t := by
  cases h with
  | read =>
      obtain ⟨found, hfound⟩ := getCluster_text s.db c.id (some c.ownerId.text)
      have hread : (query (K := K) (.getCluster c.id.text (some c.ownerId.text))).exec (answer pf oracle) s =
          (.ok found, (answer pf oracle (.query (.getCluster c.id.text (some c.ownerId.text))) s).2) := by
        rw [exec_perform]
        exact Prod.ext hfound rfl
      refine ⟨_, _, exec_bind_ok hread, rfl, ?_⟩
      exact fun v => (Alongside.afterRead v pf oracle _ s).symm
  | done body => exact ⟨body, s, rfl, rfl, fun v => .refl v s⟩

theorem setStored_exec (howner : HasOwner c.id c.ownerId s.db) (key : String) :
    ∃ body t, (setStored c created tSeconds written key).exec (answer pf oracle) s = (.ok body, t) ∧
      (∀ v : Window, v.owner = c.ownerId → v.bare c.id = true → Alongside v s t) ∧
      CropIs c.id key t.db := by
  let op : Call K := .write (.setClusterCrop c.id.text c.ownerId.text (some key))
  obtain ⟨houtcome, hcrop⟩ := @CropIs.set K _ pf (oracle.fresh s.draws) c.ownerId c.id
    (oracle.clock s.calls) s.db howner key
  obtain ⟨hanswers, hdb, -⟩ := @answer_write K _ pf oracle
    (.setClusterCrop c.id.text c.ownerId.text (some key)) s
  have hset : (call op).exec (answer pf oracle) s = (.ok (), (answer pf oracle op s).2) := by
    rw [exec_perform]
    exact Prod.ext (hanswers.trans houtcome) rfl
  have hread : NothingPending c created tSeconds written (readBack c created tSeconds written) := .read
  obtain ⟨body, t, hend, htables, hsame⟩ := hread.exec pf oracle (answer pf oracle op s).2
  refine ⟨body, t, (exec_bind_ok hset).trans hend, fun v hv hbare => ?_, ?_⟩
  · have hcall : AttachCall c.ownerId c.id op := .crop key
    have haside : Aside v op := hcall.aside hv fun _ => .inr ⟨rfl, hbare⟩
    exact ((Alongside.refl v s).one haside).symm.trans (hsame v)
  · rw [htables, hdb]
    exact hcrop

/-- With the crop pending, it ends with the crop set. -/
theorem CropPending.exec (h : CropPending c created tSeconds written q) (pf : Platform K) (oracle : Oracle)
    (howner : HasOwner c.id c.ownerId s.db) :
    ∃ body t, q.exec (answer pf oracle) s = (.ok body, t) ∧
      (∀ v : Window, v.owner = c.ownerId → v.bare c.id = true → Alongside v s t) ∧
      CropIs c.id (cropKey c.ownerId.text c.id.text) t.db := by
  cases h with
  | store jpeg =>
      let op : Call K := .putCrop c.ownerId.text c.id.text jpeg
      have hput : (call op).exec (answer pf oracle) s =
          (.ok (cropKey c.ownerId.text c.id.text), (answer pf oracle op s).2) := exec_perform _ _ _
      have howner' : HasOwner c.id c.ownerId (answer pf oracle op s).2.db := howner
      obtain ⟨body, t, hend, hsame, hcrop⟩ := setStored_exec howner' (cropKey c.ownerId.text c.id.text)
      refine ⟨body, t, (exec_bind_ok hput).trans hend, fun v hv hbare => ?_, hcrop⟩
      have hcall : AttachCall c.ownerId c.id op := .putCrop jpeg
      have haside : Aside v op := hcall.aside hv False.elim
      exact ((Alongside.refl v s).one haside).symm.trans (hsame v hv hbare)
  | set => exact setStored_exec howner _

omit [Arithmetic K] in
theorem NothingPending.within (h : NothingPending c created tSeconds written q) :
    q.Within (fun op => ∃ q : Query K, op = .query q) fun _ => True := by
  cases h with
  | read => exact within_bind (within_perform ⟨_, rfl⟩) fun _ => within_pure _
  | done body => exact within_pure _

omit [Arithmetic K] in
theorem CropPending.within (h : CropPending c created tSeconds written q) :
    q.Within (fun op => AttachCall c.ownerId c.id op ∧ (op.Touches c.id → op.setsCrop = true))
      fun _ => True := by
  have hset : ∀ key, (setStored c created tSeconds written key).Within
      (fun op => AttachCall c.ownerId c.id op ∧ (op.Touches c.id → op.setsCrop = true)) fun _ => True :=
    fun key => within_bind (within_perform ⟨.crop key, fun _ => rfl⟩) fun _ =>
      within_bind (within_perform ⟨.read, False.elim⟩) fun _ => within_pure _
  cases h with
  | store jpeg => exact within_bind (within_perform ⟨.putCrop jpeg, False.elim⟩) hset
  | set => exact hset _

end Goes

/-- An attachment that completes has written the centroid. -/
theorem attachTo_writes {α : Type} {p : Program K α} {r : Except PyError α} {s w' : World K}
    {log : List (Moment K)} {body : AttachBody K} {img : Image} {det : Detection K} {c : Cluster K}
    {created : Bool} (h : Race (Answered svc.pf oracle) (Answered svc.pf oracle) p
      (attachTo svc streamId tSeconds img det c.ownerId.text c created) s log r (.ok body) w') :
    ∃ st a, .inr st ∈ log ∧ st.op = .write (.updateClusterCentroid c.id.text c.ownerId.text a) := by
  rw [attachTo_eq] at h
  obtain ⟨p₁, s₁, written, s₂, before, rest, -, -, rfl, hmerge⟩ := h.until_performed
  cases hmerged : mergeCentroid svc.pf (asFloat32 svc.pf c.centroid) c.sampleCount
    (asFloat32 svc.pf det.embedding) with
  | error e =>
      rw [hmerged, lift_error_bind] at hmerge
      cases hmerge.raised
  | ok merged =>
      rw [hmerged, lift_ok_bind] at hmerge
      obtain ⟨p₂, s₃, _, s₄, before', rest', -, -, rfl, -⟩ := hmerge.until_performed
      refine ⟨_, merged, List.mem_append_right _ (List.mem_cons_of_mem _ (List.mem_append_right _
        List.mem_cons_self)), rfl⟩

end FacesService.Reader
