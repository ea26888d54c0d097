import FacesService.Model.Assist
import FacesService.Reader.Steps

/-!
How `attach_frame_face` ends. All its checks come before its first write, and a
request that fails there leaves the tables alone. What its writes may still
meet is not checked: the stream id is first cast by `append_stream_occurrences`,
a new cluster is read back under the caller's spelling of the owner, the stored
centroid may have another length, and the bucket may be down. Each write commits
on its own, so what came before such an error stays.
-/

namespace FacesService.Reader

open Prog Database Db

variable {K : Type} [Arithmetic K]

/-! ### A bucket that may be down -/

/-- The handler of the service, with a bucket that raises at every crop while it is down. -/
def answerWith (pf : Platform K) (oracle : Oracle) (down : Bool) :
    Handler (Call K) Call.Answer PyError (World K)
  | .putCrop ownerId clusterId data, w =>
      if down then (.error .storage, { w with calls := w.calls + 1 })
      else answer pf oracle (.putCrop ownerId clusterId data) w
  | c, w => answer pf oracle c w

section Calls

variable {pf : Platform K} {oracle : Oracle} {down : Bool}

/-- A call of `db.py`. -/
inductive OfDb : Call K → Prop
  | query (q : Query K) : OfDb (.query q)
  | write (wr : Write K) : OfDb (.write wr)

theorem exec_down {α : Type} {p : Program K α} (hp : p.Within OfDb fun _ => True) (w : World K) :
    p.exec (answerWith pf oracle down) w = p.exec (answer pf oracle) w := by
  refine exec_congr (fun op w hop => ?_) hp w
  cases hop <;> rfl

theorem exec_write_of_ok (oracle : Oracle) (down : Bool) (wr : Write K) (w : World K)
    {c : Commit K wr.Answer}
    (h : wr.run pf (oracle.fresh w.draws) (oracle.clock w.calls) w.db = .ok c) :
    ∃ w', (write wr).exec (answerWith pf oracle down) w = (.ok c.result, w') ∧ w'.db = c.db ∧
      w'.calls = w.calls + 1 := by
  rw [exec_down (within_perform (.write wr)), exec_perform]
  simp only [answer, Call.effect, h]
  exact ⟨_, rfl, bumps_db _ _, congrArg (· + 1) (bumps_calls _ _)⟩

theorem exec_write_of_error (oracle : Oracle) (down : Bool) (wr : Write K) (w : World K) {e : PyError}
    (h : wr.run pf (oracle.fresh w.draws) (oracle.clock w.calls) w.db = .error e) :
    ∃ w', (write wr).exec (answerWith pf oracle down) w = (.error e, w') ∧ w'.db = w.db := by
  rw [exec_down (within_perform (.write wr)), exec_perform]
  simp only [answer, Call.effect, h]
  exact ⟨_, rfl, rfl⟩

end Calls

/-! ### Before the first write -/

variable (svc : Service K) (auth : AuthContext)

omit [Arithmetic K] in
/-- What `givenCluster` finds. -/
def givenRow (db : Database K) (clusterId : Option String) : Except PyError (Option (Cluster K)) :=
  match clusterId with
  | none => .ok none
  | some id => if id = "" then .ok none else some <$> (getCluster db id none >>= checkOwner auth)

/-- The checks of `attach_frame_face`: the frame, the cluster it names, and the
face in the box. -/
def attachChecks (db : Database K) (file : Bytes) (bbox : String) (tSeconds : K)
    (clusterId : Option String) : Except PyError (Image × Option (Cluster K) × Detection K) := do
  let img ← readImage svc file
  engineOr503 svc
  let box ← parseBox svc bbox
  if tSeconds < 0 then .error (.http 400 "t_seconds out of range")
  else do
    let cluster ← givenRow auth db clusterId
    let det ← faceInBox box (detectOn svc img)
    .ok (img, cluster, det)

/-- The writes to a cluster that is there. -/
def attachTo (streamId : String) (tSeconds : K) (img : Image) (det : Detection K) (ownerId : String)
    (c : Cluster K) (created : Bool) : Program K (AttachBody K) := do
  let id := c.id.text
  let centroid := asFloat32 svc.pf det.embedding
  let written ← write (.appendStreamOccurrences ownerId streamId
    [⟨id, centroid, tSeconds, det.confidence⟩])
  let merged ← lift (mergeCentroid svc.pf (asFloat32 svc.pf c.centroid) c.sampleCount centroid)
  write (.updateClusterCentroid id ownerId merged)
  attachCrop svc img ownerId id det c
  let updated ← query (.getCluster id (some ownerId))
  return ⟨updated, created, written, tSeconds⟩

/-- Everything after the checks. -/
def attachRest (streamId : String) (tSeconds : K) (img : Image) (cluster : Option (Cluster K))
    (det : Detection K) : Program K (AttachBody K) :=
  let ownerId := match cluster with
    | none => auth.userId
    | some c => c.ownerId.text
  attachTarget ownerId (asFloat32 svc.pf det.embedding) cluster >>= fun target =>
    attachTo svc streamId tSeconds img det ownerId target.1 target.2

section Checks

variable {pf : Platform K} {oracle : Oracle} {down : Bool} {svc auth}

omit [Arithmetic K] in
theorem ownedCluster_within (clusterId : String) :
    (ownedCluster auth clusterId : Program K (Cluster K)).Within OfDb fun _ => True := by
  unfold ownedCluster
  refine within_bind (within_perform (.query _)) fun found => ?_
  cases found with
  | none => trivial
  | some c =>
      simp only
      split <;> trivial

theorem exec_givenCluster (clusterId : Option String) (w : World K) :
    ∃ n, (givenCluster auth clusterId).exec (answerWith pf oracle down) w =
      (givenRow auth w.db clusterId, { w with calls := w.calls + n }) := by
  unfold givenCluster givenRow
  cases clusterId with
  | none => exact ⟨0, rfl⟩
  | some id =>
      simp only
      split
      · exact ⟨0, rfl⟩
      · refine ⟨1, ?_⟩
        change (ownedCluster auth id >>= fun c => pure (some c)).exec _ _ = _
        rw [exec_bind, exec_down (ownedCluster_within id), exec_ownedCluster]
        cases getCluster w.db id none >>= checkOwner auth <;> rfl

/-- The checks only read: a request runs up to its first write, or fails without one. -/
theorem exec_attachFrameFace (streamId : String) (file : Bytes) (bbox : String) (tSeconds : K)
    (clusterId : Option String) (w : World K) :
    ∃ n, (attachFrameFace svc auth streamId file bbox tSeconds clusterId).exec
        (answerWith pf oracle down) w =
      match attachChecks svc auth w.db file bbox tSeconds clusterId with
      | .error e => (.error e, { w with calls := w.calls + n })
      | .ok (img, cluster, det) =>
          (attachRest svc auth streamId tSeconds img cluster det).exec (answerWith pf oracle down)
            { w with calls := w.calls + n } := by
  unfold attachFrameFace attachChecks
  rw [exec_bind, exec_lift]
  cases readImage svc file with
  | error e => exact ⟨0, rfl⟩
  | ok img =>
      simp only [Fallible.ok_bind]
      rw [exec_bind, exec_lift]
      cases engineOr503 svc with
      | error e => exact ⟨0, rfl⟩
      | ok _ =>
          simp only [Fallible.ok_bind]
          rw [exec_bind, exec_lift]
          cases parseBox svc bbox with
          | error e => exact ⟨0, rfl⟩
          | ok box =>
              simp only [Fallible.ok_bind]
              split
              · exact ⟨0, rfl⟩
              · obtain ⟨n, hgiven⟩ := @exec_givenCluster K _ auth pf oracle down clusterId w
                refine ⟨n, ?_⟩
                rw [exec_bind, hgiven]
                cases givenRow auth w.db clusterId with
                | error e => rfl
                | ok cluster =>
                    simp only [Fallible.ok_bind]
                    rw [exec_bind, exec_lift]
                    cases faceInBox box (detectOn svc img) <;> rfl

end Checks

/-! ### The writes one by one -/

section Writes

variable {db : Database K} {c : Cluster K}

/-- The row of the cluster was last written at `now`. -/
def Stamped (db : Database K) (c : Cluster K) (now : ℕ) : Prop :=
  ∃ row, db.clusterById c.id = some row ∧ row.id = c.id ∧ row.ownerId = c.ownerId ∧
    row.updatedAt = now

theorem insertOccurrenceIfNew_of_row (o : Occurrence K) (hrow : db.clusterById o.clusterId = some c) :
    ∃ r, db.insertOccurrenceIfNew o = .ok r := by
  unfold insertOccurrenceIfNew
  rw [hrow]
  split <;> exact ⟨_, rfl⟩

/-- The sighting has its row. -/
def Sighted (db : Database K) (stream id : Uuid) (tSeconds : K) : Prop :=
  ∃ o ∈ db.occurrences, o.key = (stream, id, tSeconds)

/-- A sighting of a cluster that is there can only fail at the stream id. It
brings the row of the cluster up to date be it new or not; if it is not, that
is all it does. -/
theorem append_sighting (pf : Platform K) (now : ℕ) (hrow : db.clusterById c.id = some c)
    {streamId : String} {stream : Uuid} (hstream : castUuid streamId = .ok stream)
    (embedding : List K) (tSeconds confidence : K) :
    ∃ commit, appendStreamOccurrences pf now db c.ownerId.text streamId
        [⟨c.id.text, embedding, tSeconds, confidence⟩] = .ok commit ∧
      Sighted commit.db stream c.id tSeconds ∧
      commit.db.clusterById c.id =
        some { c with sampleCount := commit.db.countFor c.id, updatedAt := now } ∧
      (Sighted db stream c.id tSeconds →
        commit.result = 0 ∧ commit.db.occurrences = db.occurrences) := by
  obtain ⟨⟨written, db₁⟩, hone⟩ := insertOccurrenceIfNew_of_row (Item.row pf now c.ownerId stream c.id
    ⟨c.id.text, embedding, tSeconds, confidence⟩) hrow
  have hins : insertItems pf now c.ownerId.text streamId
      [⟨c.id.text, embedding, tSeconds, confidence⟩] 0 db = .ok (0 + written, db₁) := by
    simp only [insertItems, Uuid.castUuid_text, hstream, Fallible.ok_bind, hone]
  obtain ⟨id, hid, o, ho, hos, hoc, hot⟩ :=
    insertItems_row hstream hins _ (List.mem_singleton.mpr rfl)
  rw [Uuid.castUuid_text] at hid
  cases hid
  have hrow₁ : db₁.clusterById c.id = some c := by
    rw [clusterById, (insertItems_keeps hins).1]
    exact hrow
  have hreached : (decide (c.ownerId = c.ownerId) &&
      db₁.occurrences.any fun o => o.streamId = stream && o.clusterId = c.id) = true := by
    simpa using ⟨o, ho, hos, hoc⟩
  simp only [appendStreamOccurrences, hins, Uuid.castUuid_text, hstream, Fallible.ok_bind]
  refine ⟨_, rfl, ⟨o, ho, by rw [Occurrence.key, hos, hoc, hot]⟩, ?_, fun hsighted => ?_⟩
  · rw [clusterById_recount, hrow₁, Option.map_some, if_pos hreached]
    rfl
  · have hkey : (db.occurrences.any fun o' => o'.key = (Item.row pf now c.ownerId stream c.id
        ⟨c.id.text, embedding, tSeconds, confidence⟩).key) = true := by
      obtain ⟨o', ho', hkey⟩ := hsighted
      exact List.any_eq_true.mpr ⟨o', ho', decide_eq_true hkey⟩
    rw [insertOccurrenceIfNew, if_pos hkey] at hone
    cases hone
    exact ⟨rfl, rfl⟩

theorem append_one (pf : Platform K) (now : ℕ) (hrow : db.clusterById c.id = some c)
    {streamId : String} {stream : Uuid} (hstream : castUuid streamId = .ok stream) (embedding : List K) (tSeconds confidence : K) :
    ∃ commit, appendStreamOccurrences pf now db c.ownerId.text streamId
        [⟨c.id.text, embedding, tSeconds, confidence⟩] = .ok commit ∧ Stamped commit.db c now := by
  obtain ⟨commit, happend, -, hfound, -⟩ :=
    append_sighting pf now hrow hstream embedding tSeconds confidence
  exact ⟨commit, happend, _, hfound, rfl, rfl, rfl⟩

theorem append_uncast (pf : Platform K) (now : ℕ) {owner : Uuid} {clusterId streamId : String}
    {e : PyError} (hstream : castUuid streamId = .error e) (embedding : List K) (tSeconds confidence : K) :
    appendStreamOccurrences pf now db owner.text streamId
      [⟨clusterId, embedding, tSeconds, confidence⟩] = .error e := by
  simp only [appendStreamOccurrences, insertItems, Uuid.castUuid_text, hstream, Fallible.ok_bind,
    Fallible.error_bind]

omit [Arithmetic K] in
/-- The statement reaches the row of the cluster and no sighting. -/
theorem updateCentroid_found (pf : Platform K) (now : ℕ) {row : Cluster K}
    (hfound : db.clusterById c.id = some row) (howner : row.ownerId = c.ownerId) (centroid : List K) :
    ∃ commit, updateClusterCentroid pf now db c.id.text c.ownerId.text centroid = .ok commit ∧
      commit.db.occurrences = db.occurrences ∧
      commit.db.clusterById c.id =
        some { row with centroid := toListArray pf centroid, updatedAt := now } := by
  unfold updateClusterCentroid
  rw [Uuid.castUuid_text, Fallible.ok_bind, Uuid.castUuid_text, Fallible.ok_bind]
  refine ⟨_, rfl, rfl, ?_⟩
  rw [clusterById_updateClusters, hfound, Option.map_some, if_pos]
  · simp [(mem_of_clusterById hfound).2, howner]
  · exact fun _ => rfl

omit [Arithmetic K] in
theorem updateCentroid_one (pf : Platform K) (now : ℕ) {before : ℕ} (hrow : Stamped db c before)
    (centroid : List K) :
    ∃ commit, updateClusterCentroid pf now db c.id.text c.ownerId.text centroid = .ok commit ∧
      Stamped commit.db c now := by
  obtain ⟨row, hfound, hid, howner, -⟩ := hrow
  obtain ⟨commit, hupdate, -, hfound'⟩ := updateCentroid_found pf now hfound howner centroid
  exact ⟨commit, hupdate, _, hfound', hid, howner, rfl⟩

omit [Arithmetic K] in
theorem getCluster_text (db : Database K) (id : Uuid) (ownerId : Option String) :
    ∃ found, getCluster db id.text ownerId = .ok found := by
  unfold getCluster
  rw [Uuid.castUuid_text, Fallible.ok_bind]
  cases db.clusterById id with
  | none => exact ⟨none, rfl⟩
  | some row =>
      cases ownerId with
      | none => exact ⟨some row, rfl⟩
      | some owner => exact ⟨_, rfl⟩

omit [Arithmetic K] in
theorem upsert_new (pf : Platform K) (now : ℕ) {fresh owner : Uuid} {ownerId : String}
    (howner : castUuid ownerId = .ok owner) (hfresh : db.clusterById fresh = none) (centroid : List K) :
    ∃ (commit : Commit K Uuid) (row : Cluster K),
      upsertCluster pf fresh now db ownerId none false centroid = .ok commit ∧
      commit.result = fresh ∧ commit.db.clusterById fresh = some row ∧ row.id = fresh ∧
      row.ownerId = owner ∧ row.sampleCount = 0 ∧ row.cropObject = none := by
  unfold upsertCluster insertCluster
  rw [howner, Fallible.ok_bind]
  simp only [hfresh, Fallible.ok_bind]
  refine ⟨_, ⟨fresh, owner, none, false, toListArray pf centroid, 0, none, now, now⟩, rfl, rfl, ?_,
    rfl, rfl, rfl, rfl⟩
  unfold clusterById at hfresh ⊢
  simp [List.find?_append, hfresh]

end Writes

/-! ### How the writes end -/

/-- The bucket is down, and the cluster needs a crop that can be cut. -/
def CropRefused (down : Bool) (img : Image) (det : Detection K) (cropObject : Option String) : Prop :=
  down = true ∧ svc.storeReady = true ∧ truthy cropObject = false ∧
    (det.bbox.bind (cropJpeg svc img)).isSome = true

/-- The stored centroid and the new embedding are of one length, up to broadcasting. -/
def Mergeable (c : Cluster K) (det : Detection K) : Prop :=
  ∃ merged, mergeCentroid svc.pf (asFloat32 svc.pf c.centroid) c.sampleCount
    (asFloat32 svc.pf det.embedding) = .ok merged

/-- Postgres takes the string for a uuid. -/
def Castable (s : String) : Prop := ∃ u, castUuid s = .ok u

section Ends

variable {svc auth} {oracle : Oracle} {down : Bool} {img : Image} {det : Detection K} {c : Cluster K}

/-- The step may change the crop of the cluster, and no more. -/
theorem attachCrop_ok (oracle : Oracle) (h : ¬ CropRefused svc down img det c.cropObject) (w : World K) :
    ∃ w', (attachCrop svc img c.ownerId.text c.id.text det c).exec (answerWith svc.pf oracle down) w =
        (.ok (), w') ∧
      w'.db.occurrences = w.db.occurrences ∧
      ∀ row, w.db.clusterById c.id = some row → ∃ crop now,
        w'.db.clusterById c.id = some { row with cropObject := crop, updatedAt := now } := by
  have hstays : ∀ row, w.db.clusterById c.id = some row → ∃ crop now,
      w.db.clusterById c.id = some { row with cropObject := crop, updatedAt := now } :=
    fun row hrow => ⟨row.cropObject, row.updatedAt, hrow⟩
  unfold attachCrop
  by_cases hcrop : truthy c.cropObject = true
  · rw [if_pos hcrop]
    exact ⟨w, rfl, rfl, hstays⟩
  · rw [if_neg hcrop]
    cases hjpeg : det.bbox.bind (cropJpeg svc img) with
    | none => exact ⟨w, rfl, rfl, hstays⟩
    | some jpeg =>
        simp only
        by_cases hstore : svc.storeReady = true
        · have hup : down = false := by
            by_contra hdown
            exact h ⟨by simpa using hdown, hstore, by simpa using hcrop, by simp [hjpeg]⟩
          rw [if_pos hstore, exec_bind, exec_perform, hup]
          have hset : ∃ commit, (Write.setClusterCrop c.id.text c.ownerId.text
              (some (cropKey c.ownerId.text c.id.text)) : Write K).run svc.pf (oracle.fresh w.draws)
              (oracle.clock (w.calls + 1)) w.db = .ok commit ∧
              commit.db = w.db.updateClusters (fun r => r.id = c.id && r.ownerId = c.ownerId)
                fun r => { r with
                  cropObject := some (cropKey c.ownerId.text c.id.text)
                  updatedAt := oracle.clock (w.calls + 1) } := by
            simp only [Write.run, setClusterCrop, Uuid.castUuid_text, Fallible.ok_bind]
            exact ⟨_, rfl, rfl⟩
          obtain ⟨commit, hset, hcommit⟩ := hset
          obtain ⟨w', hw', hdb, -⟩ := exec_write_of_ok oracle false _ (answer svc.pf oracle
            (.putCrop c.ownerId.text c.id.text jpeg) w).2 hset
          refine ⟨w', hw', by rw [hdb, hcommit]; rfl, fun row hrow => ?_⟩
          rw [hdb, hcommit, clusterById_updateClusters, hrow, Option.map_some]
          · split
            · exact ⟨_, _, rfl⟩
            · exact ⟨row.cropObject, row.updatedAt, rfl⟩
          · exact fun _ => rfl
        · rw [if_neg hstore]
          exact ⟨w, rfl, rfl, hstays⟩

theorem attachCrop_refused (h : CropRefused svc down img det c.cropObject) (w : World K) :
    (attachCrop svc img c.ownerId.text c.id.text det c).exec (answerWith svc.pf oracle down) w =
      (.error .storage, { w with calls := w.calls + 1 }) := by
  obtain ⟨hdown, hstore, hcrop, hjpeg⟩ := h
  obtain ⟨jpeg, hjpeg⟩ := Option.isSome_iff_exists.mp hjpeg
  unfold attachCrop
  rw [if_neg (by simp [hcrop]), hjpeg]
  simp only
  rw [if_pos hstore, exec_bind, exec_perform, hdown]
  rfl

/-- **The writes to a cluster that is there** either all succeed, or fail at
the stream id before anything is changed, or leave the cluster written to. -/
theorem attachTo_ends (svc : Service K) (oracle : Oracle) (down : Bool) (img : Image) (det : Detection K)
    (streamId : String) (tSeconds : K) (created : Bool) {w : World K} (hrow : w.db.clusterById c.id = some c) :
    let run := (attachTo svc streamId tSeconds img det c.ownerId.text c created).exec
      (answerWith svc.pf oracle down) w
    (Castable streamId ∧ Mergeable svc c det ∧ ¬ CropRefused svc down img det c.cropObject ∧
      ∃ body, run.1 = .ok body) ∨
    (¬ Castable streamId ∧ (∃ e, run.1 = .error e) ∧ run.2.db = w.db) ∨
    (Castable streamId ∧ ¬ (Mergeable svc c det ∧ ¬ CropRefused svc down img det c.cropObject) ∧
      (∃ e, run.1 = .error e) ∧ ∃ n, w.calls ≤ n ∧ Stamped run.2.db c (oracle.clock n)) := by
  intro run
  set centroid := asFloat32 svc.pf det.embedding with hcentroid
  cases hstream : castUuid streamId with
  | error e =>
      obtain ⟨w', hw', hdb⟩ := exec_write_of_error oracle down (.appendStreamOccurrences
        c.ownerId.text streamId [⟨c.id.text, centroid, tSeconds, det.confidence⟩]) w
        (append_uncast svc.pf (oracle.clock w.calls) hstream centroid tSeconds
          det.confidence)
      have hrun : run = (.error e, w') := exec_bind_error hw'
      refine .inr (.inl ⟨?_, ⟨e, by rw [hrun]⟩, by rw [hrun, hdb]⟩)
      rintro ⟨u, hu⟩
      rw [hstream] at hu
      cases hu
  | ok stream =>
      obtain ⟨commit, happend, hstamped⟩ := append_one svc.pf (oracle.clock w.calls)
        hrow hstream centroid tSeconds det.confidence
      obtain ⟨w₁, hw₁, hdb₁, hcalls₁⟩ := exec_write_of_ok oracle down
        (.appendStreamOccurrences c.ownerId.text streamId
          [⟨c.id.text, centroid, tSeconds, det.confidence⟩]) w happend
      have hcast : Castable streamId := ⟨stream, hstream⟩
      rw [← hdb₁] at hstamped
      have hrun₁ : run = _ := exec_bind_ok hw₁
      cases hmerge : mergeCentroid svc.pf (asFloat32 svc.pf c.centroid) c.sampleCount centroid with
      | error e =>
          have hrun : run = (.error e, w₁) := by
            rw [hrun₁, hmerge]
            rfl
          refine .inr (.inr ⟨hcast, ?_, ⟨e, by rw [hrun]⟩, w.calls, le_refl _, by rw [hrun]; exact hstamped⟩)
          rintro ⟨⟨merged, hok⟩, -⟩
          rw [← hcentroid, hmerge] at hok
          cases hok
      | ok merged =>
          have hmergeable : Mergeable svc c det := ⟨merged, hmerge⟩
          obtain ⟨commit₂, hupdate, hstamped₂⟩ := updateCentroid_one svc.pf
            (oracle.clock w₁.calls) hstamped merged
          obtain ⟨w₂, hw₂, hdb₂, hcalls₂⟩ := exec_write_of_ok oracle down
            (.updateClusterCentroid c.id.text c.ownerId.text merged) w₁ hupdate
          rw [← hdb₂] at hstamped₂
          rw [hmerge] at hrun₁
          have hrun₂ : run = _ := (hrun₁.trans (exec_bind_ok (exec_lift _ _ w₁))).trans (exec_bind_ok hw₂)
          by_cases hcrop : CropRefused svc down img det c.cropObject
          · have hrun : run = _ := hrun₂.trans (exec_bind_error (attachCrop_refused hcrop w₂))
            exact .inr (.inr ⟨hcast, fun h => h.2 hcrop, ⟨_, by rw [hrun]⟩, w₁.calls, by omega,
              by rw [hrun]; exact hstamped₂⟩)
          · obtain ⟨w₃, hw₃, -⟩ := attachCrop_ok oracle hcrop w₂
            have hrun : run = _ := hrun₂.trans (exec_bind_ok hw₃)
            refine .inl ⟨hcast, hmergeable, hcrop, ?_⟩
            obtain ⟨updated, hupdated⟩ := getCluster_text w₃.db c.id (some c.ownerId.text)
            have hread : (query (.getCluster c.id.text (some c.ownerId.text))).exec
                (answerWith svc.pf oracle down) w₃ = (.ok updated, { w₃ with calls := w₃.calls + 1 }) := by
              rw [exec_down (within_perform (.query _)), exec_query, Query.run, hupdated]
            exact ⟨_, by rw [hrun, exec_bind_ok hread]; rfl⟩

/-- A request that names a cluster changes nothing or everything, unless a
writable stream id takes it past its first write to an error. -/
theorem attachRest_given {streamId : String} {tSeconds : K} {w : World K}
    (hrow : w.db.clusterById c.id = some c) (hclock : ∀ n, w.calls ≤ n → c.updatedAt < oracle.clock n) :
    (∀ e, ((attachRest svc auth streamId tSeconds img (some c) det).exec
        (answerWith svc.pf oracle down) w).1 = .error e →
      ((attachRest svc auth streamId tSeconds img (some c) det).exec
        (answerWith svc.pf oracle down) w).2.db = w.db) ↔
      (Castable streamId → Mergeable svc c det ∧ ¬ CropRefused svc down img det c.cropObject) := by
  have hends := attachTo_ends svc oracle down img det streamId tSeconds false hrow
  change (∀ e, ((attachTo svc streamId tSeconds img det c.ownerId.text c false).exec
      (answerWith svc.pf oracle down) w).1 = .error e →
    ((attachTo svc streamId tSeconds img det c.ownerId.text c false).exec
      (answerWith svc.pf oracle down) w).2.db = w.db) ↔ _
  rcases hends with
    ⟨-, hmerge, hcrop, body, hbody⟩ | ⟨hcast, -, hdb⟩ | ⟨hcast, hfails, ⟨e, he⟩, n, hn, hstamped⟩
  · refine ⟨fun _ _ => ⟨hmerge, hcrop⟩, fun _ e he => ?_⟩
    rw [hbody] at he
    cases he
  · exact ⟨fun _ h => absurd h hcast, fun _ _ _ => hdb⟩
  · refine ⟨fun h => ?_, fun h => absurd (h hcast) hfails⟩
    obtain ⟨row, hfound, -, -, hnow⟩ := hstamped
    rw [h e he, hrow] at hfound
    cases hfound
    exact absurd (hclock n hn) (by omega)

/-- The first write of a request for a new cluster rolls back as a whole or
leaves the cluster there, which is then found under the caller's own spelling
of the owner only. -/
theorem attachTarget_new (svc : Service K) (auth : AuthContext) (oracle : Oracle) (down : Bool)
    (centroid : List K) (w : World K) :
    let run := (attachTarget auth.userId centroid none).exec (answerWith svc.pf oracle down) w
    ((∃ e, run.1 = .error e) ∧ run.2.db = w.db ∧
      ∀ owner, castUuid auth.userId = .ok owner → w.db.clusterById (oracle.fresh w.draws) ≠ none) ∨
    ∃ row : Cluster K, w.db.clusterById (oracle.fresh w.draws) = none ∧
      castUuid auth.userId = .ok row.ownerId ∧ row.id = oracle.fresh w.draws ∧ row.sampleCount = 0 ∧
      row.cropObject = none ∧ run.2.db.clusterById row.id = some row ∧
      run.1 = if row.ownerId.text = auth.userId then .ok (row, true) else .error .typeError := by
  intro run
  -- the transaction rolls back
  have hrefused : ∀ e, upsertCluster svc.pf (oracle.fresh w.draws) (oracle.clock w.calls) w.db
      auth.userId none false centroid = .error e → (∃ e, run.1 = .error e) ∧ run.2.db = w.db := by
    intro e he
    obtain ⟨w₁, hw₁, hdb⟩ := exec_write_of_error oracle down
      (.upsertCluster auth.userId none false centroid) w he
    have hrun : run = (.error e, w₁) := exec_bind_error hw₁
    exact ⟨⟨e, by rw [hrun]⟩, by rw [hrun, hdb]⟩
  cases howner : castUuid auth.userId with
  | error e =>
      obtain ⟨herror, hdb⟩ := hrefused e (by rw [upsertCluster, howner, Fallible.error_bind])
      exact .inl ⟨herror, hdb, fun _ h => by cases h⟩
  | ok owner =>
      cases hfresh : w.db.clusterById (oracle.fresh w.draws) with
      | some taken =>
          obtain ⟨herror, hdb⟩ := hrefused .integrity (by
            simp only [upsertCluster, insertCluster, howner, hfresh, Fallible.ok_bind,
              Fallible.error_bind])
          exact .inl ⟨herror, hdb, fun _ _ h => by cases h⟩
      | none =>
          obtain ⟨commit, row, hupsert, hresult, hfound, hid, hrowner, hcount, hnocrop⟩ :=
            upsert_new svc.pf (oracle.clock w.calls) howner hfresh centroid
          obtain ⟨w₁, hw₁, hdb₁, -⟩ := exec_write_of_ok oracle down
            (.upsertCluster auth.userId none false centroid) w hupsert
          rw [hresult] at hw₁
          rw [← hdb₁] at hfound
          have hread : (query (.getCluster (oracle.fresh w.draws).text (some auth.userId))).exec
              (answerWith svc.pf oracle down) w₁ =
              (.ok (if row.ownerId.text ≠ auth.userId then none else some row),
                { w₁ with calls := w₁.calls + 1 }) := by
            rw [exec_down (within_perform (.query _)), exec_query]
            simp only [Query.run, getCluster, Uuid.castUuid_text, Fallible.ok_bind, hfound]
          refine .inr ⟨row, rfl, by rw [hrowner], hid, hcount, hnocrop, ?_⟩
          rw [hid]
          by_cases hspelled : row.ownerId.text = auth.userId
          · rw [if_neg (not_not.mpr hspelled)] at hread
            have hrun : run = (.ok (row, true), { w₁ with calls := w₁.calls + 1 }) :=
              (exec_bind_ok hw₁).trans (exec_bind_ok hread)
            rw [hrun, if_pos hspelled]
            exact ⟨hfound, rfl⟩
          · rw [if_pos hspelled] at hread
            have hrun : run = (.error .typeError, { w₁ with calls := w₁.calls + 1 }) :=
              (exec_bind_ok hw₁).trans (exec_bind_ok hread)
            rw [hrun, if_neg hspelled]
            exact ⟨hfound, rfl⟩

/-- A request for a new cluster leaves it behind whenever something fails after
it was created. -/
theorem attachRest_new {streamId : String} {tSeconds : K} {w : World K} :
    (∀ e, ((attachRest svc auth streamId tSeconds img none det).exec
        (answerWith svc.pf oracle down) w).1 = .error e →
      ((attachRest svc auth streamId tSeconds img none det).exec
        (answerWith svc.pf oracle down) w).2.db = w.db) ↔
      ∀ owner, castUuid auth.userId = .ok owner → w.db.clusterById (oracle.fresh w.draws) = none →
        owner.text = auth.userId ∧ Castable streamId ∧ ¬ CropRefused svc down img det none := by
  set run := (attachRest svc auth streamId tSeconds img none det).exec
    (answerWith svc.pf oracle down) w with hrun
  have htarget := attachTarget_new svc auth oracle down (asFloat32 svc.pf det.embedding) w
  set target := (attachTarget auth.userId (asFloat32 svc.pf det.embedding) none).exec
    (answerWith svc.pf oracle down) w with htargetdef
  rcases htarget with ⟨⟨e, he⟩, hdb, hrefused⟩ | ⟨row, hfresh, howner, hid, hcount, hnocrop, hfound, hres⟩
  · have hend : run = (.error e, target.2) :=
      exec_bind_error (htargetdef.symm.trans (Prod.ext he rfl))
    refine ⟨fun _ owner howner hfresh => absurd hfresh (hrefused owner howner), fun _ _ _ => ?_⟩
    rw [hend, hdb]
  · -- whatever keeps the new row is not the database of before
    have hleft : ∀ {db : Database K} {row' : Cluster K}, db.clusterById row.id = some row' →
        db ≠ w.db := by
      intro db row' hrow' hsame
      rw [hsame, hid, hfresh] at hrow'
      cases hrow'
    by_cases hspelled : row.ownerId.text = auth.userId
    · rw [if_pos hspelled] at hres
      have hend : run = (attachTo svc streamId tSeconds img det row.ownerId.text row true).exec
          (answerWith svc.pf oracle down) target.2 := by
        rw [hspelled]
        exact exec_bind_ok (htargetdef.symm.trans (Prod.ext hres rfl))
      have hmerge : Mergeable svc row det := by
        simp only [Mergeable, mergeCentroid, hcount, if_true]
        exact ⟨_, rfl⟩
      have hends := attachTo_ends svc oracle down img det streamId tSeconds true hfound
      simp only [← hend, hnocrop] at hends
      rcases hends with ⟨hcast, -, hcrop, body, hbody⟩ | ⟨hcast, ⟨e, he⟩, hdb⟩ |
        ⟨-, hfails, ⟨e, he⟩, n, -, row', hrow', -⟩
      · refine ⟨fun _ owner h _ => ?_, fun _ e he => ?_⟩
        · rw [howner] at h
          cases h
          exact ⟨hspelled, hcast, hcrop⟩
        · rw [hbody] at he
          cases he
      · rw [← hdb] at hfound
        exact ⟨fun h => absurd (h e he) (hleft hfound),
          fun h => absurd (h _ howner hfresh).2.1 hcast⟩
      · exact ⟨fun h => absurd (h e he) (hleft hrow'),
          fun h => absurd ⟨hmerge, (h _ howner hfresh).2.2⟩ hfails⟩
    · rw [if_neg hspelled] at hres
      have hend : run = (.error .typeError, target.2) :=
        exec_bind_error (htargetdef.symm.trans (Prod.ext hres rfl))
      rw [hend]
      exact ⟨fun h => absurd (h .typeError rfl) (hleft hfound),
        fun h => absurd (h _ howner hfresh).1 hspelled⟩

omit [Arithmetic K] in
/-- A cluster the caller names and may access. -/
theorem givenRow_eq_some {db : Database K} {clusterId : String} (hid : clusterId ≠ "") :
    givenRow auth db (some clusterId) = .ok (some c) ↔
      castUuid clusterId = .ok c.id ∧ db.clusterById c.id = some c ∧
        ensureOwner auth c.ownerId.text = .ok () := by
  unfold givenRow
  simp only [if_neg hid]
  constructor
  · intro h
    obtain ⟨row, hrow, hsome⟩ := Fallible.map_eq_ok.mp h
    cases hsome
    obtain ⟨found, hfound, hchecked⟩ := Fallible.bind_eq_ok.mp hrow
    cases found with
    | none => cases hchecked
    | some row =>
        obtain ⟨id, hcast, hrow'⟩ := rowOf_eq_some.mp (getCluster_some.mp hfound)
        simp only [checkOwner] at hchecked
        split at hchecked
        · cases hchecked
        · rename_i howner
          cases hchecked
          obtain rfl : c.id = id := (mem_of_clusterById hrow').2
          exact ⟨hcast, hrow', howner⟩
  · rintro ⟨hcast, hrow, howner⟩
    have hfound : getCluster db clusterId none = .ok (some c) :=
      getCluster_some.mpr (rowOf_eq_some.mpr ⟨c.id, hcast, hrow⟩)
    rw [hfound, Fallible.ok_bind, checkOwner, howner]
    rfl

/-- The checks of a request that passes them. -/
theorem attachChecks_ok {db : Database K} {file : Bytes} {bbox : String} {tSeconds : K}
    {clusterId : Option String} {cluster : Option (Cluster K)}
    (h : attachChecks svc auth db file bbox tSeconds clusterId = .ok (img, cluster, det)) :
    givenRow auth db clusterId = .ok cluster ∧
      ∃ box, faceInBox box (detectOn svc img) = .ok det := by
  unfold attachChecks at h
  obtain ⟨img', -, h⟩ := Fallible.bind_eq_ok.mp h
  obtain ⟨-, -, h⟩ := Fallible.bind_eq_ok.mp h
  obtain ⟨box, -, h⟩ := Fallible.bind_eq_ok.mp h
  split at h
  · cases h
  · obtain ⟨cluster', hgiven, h⟩ := Fallible.bind_eq_ok.mp h
    obtain ⟨det', hface, h⟩ := Fallible.bind_eq_ok.mp h
    cases h
    exact ⟨hgiven, box, hface⟩

theorem attachChecks_found {db : Database K} {file : Bytes} {bbox : String} {tSeconds : K}
    {clusterId : Option String}
    (h : attachChecks svc auth db file bbox tSeconds clusterId = .ok (img, some c, det)) :
    c ∈ db.clusters ∧ db.clusterById c.id = some c := by
  have hgiven := (attachChecks_ok h).1
  cases clusterId with
  | none => cases hgiven
  | some id =>
      by_cases hid : id = ""
      · rw [givenRow, if_pos hid] at hgiven
        cases hgiven
      · obtain ⟨-, hrow, -⟩ := (givenRow_eq_some hid).mp hgiven
        exact ⟨(mem_of_clusterById hrow).1, hrow⟩

end Ends

/-! ### All or nothing -/

/-- `now()` of the calls to come is later than every row of the table. -/
def ClockAhead (oracle : Oracle) (w : World K) : Prop :=
  ∀ c ∈ w.db.clusters, ∀ n, w.calls ≤ n → c.updatedAt < oracle.clock n

/-- A request that passes the checks, and whose first write Postgres takes,
meets nothing else it could fail at. -/
def GoesThrough (oracle : Oracle) (down : Bool) (w : World K) (streamId : String) (file : Bytes)
    (bbox : String) (tSeconds : K) (clusterId : Option String) : Prop :=
  ∀ img cluster det, attachChecks svc auth w.db file bbox tSeconds clusterId = .ok (img, cluster, det) →
    match cluster with
    | none => ∀ owner, castUuid auth.userId = .ok owner →
        w.db.clusterById (oracle.fresh w.draws) = none →
        owner.text = auth.userId ∧ Castable streamId ∧ ¬ CropRefused svc down img det none
    | some c => Castable streamId → Mergeable svc c det ∧ ¬ CropRefused svc down img det c.cropObject

variable {svc auth} in
/-- **All or nothing.** A request that fails leaves the tables as they were, if
and only if it meets no error after its first write. -/
theorem attach_intact_iff {oracle : Oracle} {down : Bool} {w : World K} (hclock : ClockAhead oracle w)
    {streamId : String} {file : Bytes} {bbox : String} {tSeconds : K} {clusterId : Option String} :
    (∀ e, ((attachFrameFace svc auth streamId file bbox tSeconds clusterId).exec
        (answerWith svc.pf oracle down) w).1 = .error e →
      ((attachFrameFace svc auth streamId file bbox tSeconds clusterId).exec
        (answerWith svc.pf oracle down) w).2.db = w.db) ↔
      GoesThrough svc auth oracle down w streamId file bbox tSeconds clusterId := by
  obtain ⟨n, hexec⟩ := @exec_attachFrameFace K _ svc auth svc.pf oracle down streamId file bbox
    tSeconds clusterId w
  rw [hexec]
  unfold GoesThrough
  cases hchecks : attachChecks svc auth w.db file bbox tSeconds clusterId with
  | error e => exact ⟨fun _ _ _ _ h => (by cases h), fun _ _ _ => rfl⟩
  | ok checked =>
      obtain ⟨img, cluster, det⟩ := checked
      have honly : ∀ P : Image → Option (Cluster K) → Detection K → Prop,
          (∀ img' cluster' det', (Except.ok (img, cluster, det) :
            Except PyError (Image × Option (Cluster K) × Detection K)) = .ok (img', cluster', det') →
            P img' cluster' det') ↔ P img cluster det :=
        fun P => ⟨fun h => h _ _ _ rfl, fun h _ _ _ heq => by cases heq; exact h⟩
      rw [honly]
      cases cluster with
      | none => exact attachRest_new
      | some c =>
          obtain ⟨hmem, hrow⟩ := attachChecks_found hchecks
          have hahead : ∀ m, w.calls + n ≤ m → c.updatedAt < oracle.clock m :=
            fun m hm => hclock c hmem m (Nat.le_trans (Nat.le_add_right _ _) hm)
          exact attachRest_given hrow hahead

/-- A viewer with one cluster. -/
def viewer : AuthContext := ⟨(Uuid.fill 1).text, none⟩

def viewerWorld : World ℚ :=
  { sceneWorld with
    db := ⟨[Cluster.anonymous (Uuid.fill 3) (Uuid.fill 1) [0, 1] 0], []⟩
    calls := 1
    draws := 1 }

/-- One face on the frame, and a platform that reads the numerals of its box. -/
def oneFaceService : Service ℚ :=
  { sceneService [[(1, 0)]] with
    pf := { Platform.exact with
      parseFloat := fun s => if s = "10" then some 10 else if s = "50" then some 50 else none } }

/-- The viewer attaches the one face of the frame. -/
def attachOne (streamId : String) (clusterId : Option String) :
    Except PyError (AttachBody ℚ) × World ℚ :=
  (attachFrameFace oneFaceService viewer streamId [0] "10,10,50,50" 1 clusterId).exec
    (answerWith oneFaceService.pf (sceneOracle 9) false) viewerWorld

theorem parseBox_oneFace : parseBox oneFaceService "10,10,50,50" = .ok (10, 10, 50, 50) := by
  have hsplit : "10,10,50,50".splitOn "," = ["10", "10", "50", "50"] := by
    rw [String.splitOn, if_neg (by decide)]
    iterate 12 (rw [String.splitOnAux]; simp +decide only [↓reduceIte])
  rw [parseBox, hsplit]
  decide +kernel

/-- With a cluster of theirs and a stream id that is no uuid, nothing is written. -/
theorem attach_intact_iff_named : (attachOne "x" (some (Uuid.fill 3).text)).1.toOption.isNone = true ∧
    (attachOne "x" (some (Uuid.fill 3).text)).2.db = viewerWorld.db := by
  have hclock : ClockAhead (sceneOracle 9) viewerWorld := by
    intro c hc n hn
    cases List.mem_singleton.mp hc
    exact hn
  have hthrough : GoesThrough oneFaceService viewer (sceneOracle 9) false viewerWorld "x" [0]
      "10,10,50,50" 1 (some (Uuid.fill 3).text) := by
    intro img cluster det hchecks
    cases cluster with
    | none =>
        have hfound : (attachChecks oneFaceService viewer viewerWorld.db [0] "10,10,50,50" 1
            (some (Uuid.fill 3).text)).toOption.any (·.2.1.isSome) = true := by
          simp only [attachChecks, parseBox_oneFace]
          decide +kernel
        rw [hchecks] at hfound
        cases hfound
    | some c =>
        rintro ⟨u, hu⟩
        have huncast : (castUuid "x").toOption = none := by decide +kernel
        rw [hu] at huncast
        cases huncast
  have hfails : (attachOne "x" (some (Uuid.fill 3).text)).1.toOption.isNone = true := by
    simp only [attachOne, attachFrameFace, parseBox_oneFace]
    decide +kernel
  refine ⟨hfails, ?_⟩
  cases hres : (attachOne "x" (some (Uuid.fill 3).text)).1 with
  | ok body =>
      rw [hres] at hfails
      cases hfails
  | error e => exact (attach_intact_iff hclock).mpr hthrough e hres

/-- Without a cluster, a stream id that is no uuid leaves a new cluster behind. -/
theorem attach_leaves_cluster :
    ¬ ∀ streamId clusterId e, (attachOne streamId clusterId).1 = .error e →
      (attachOne streamId clusterId).2.db = viewerWorld.db := by
  intro h
  have hfails : (attachOne "x" none).1.toOption.isNone = true := by
    simp only [attachOne, attachFrameFace, parseBox_oneFace]
    decide +kernel
  have hchanged : (attachOne "x" none).2.db ≠ viewerWorld.db := by
    simp only [attachOne, attachFrameFace, parseBox_oneFace]
    decide +kernel
  cases hres : (attachOne "x" none).1 with
  | ok body =>
      rw [hres] at hfails
      cases hfails
  | error e => exact hchanged (h "x" none e hres)

end FacesService.Reader
