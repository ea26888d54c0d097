import FacesService.Infer.RunningMean
import FacesService.Reader.Attach
import FacesService.Store.Lineage

/-!
The same frame attached again. The unique key keeps the second sighting out,
and the count with it; but the centroid is merged from the values read before
the insert, whether or not there was one. So a repeated request moves the
centroid towards the embedding, unless it is there already.
-/

namespace FacesService.Reader

open Prog Database Db

/-! ### Merging twice -/

section Means

variable {K : Type} [Field K] [LinearOrder K]

theorem zipWith_eq_left_iff {α : Type} {f : α → α → α} (hf : ∀ a b, f a b = a ↔ a = b) :
    ∀ {v e : List α}, v.length = e.length → (List.zipWith f v e = v ↔ v = e)
  | [], [], _ => by simp
  | a :: v, b :: e, h => by
      have htail : v.length = e.length := Nat.succ_inj.mp h
      rw [List.zipWith_cons_cons, List.cons.injEq, List.cons.injEq, hf, zipWith_eq_left_iff hf htail]

theorem zipWith_eq_right_iff {α : Type} {f : α → α → α} (hf : ∀ a b, f a b = b ↔ a = b) :
    ∀ {v e : List α}, v.length = e.length → (List.zipWith f v e = e ↔ v = e)
  | [], [], _ => by simp
  | a :: v, b :: e, h => by
      have htail : v.length = e.length := Nat.succ_inj.mp h
      rw [List.zipWith_cons_cons, List.cons.injEq, List.cons.injEq, hf, zipWith_eq_right_iff hf htail]

variable {pf : Platform K}

/-- One component of `merge_centroid`. -/
def mergedAt (count : ℕ) (a b : K) : K := (a * (count : K) + b) / ((count + 1 : ℕ) : K)

theorem mergeCentroid_zipWith {count : ℕ} (hcount : count ≠ 0) {v e : List K}
    (hlen : v.length = e.length) :
    mergeCentroid pf v count e = .ok (List.zipWith (mergedAt count) v e) := by
  unfold mergeCentroid addArrays
  rw [if_neg hcount, List.length_map, if_pos hlen, Fallible.ok_bind]
  congr 1
  rw [List.zipWith_map_left, List.map_zipWith]
  rfl

variable [CharZero K]

/-- The mean stays where it is only if the new value is the old one. -/
theorem mergedAt_eq_left_iff (count : ℕ) (a b : K) : mergedAt count a b = a ↔ a = b := by
  have hne : ((count + 1 : ℕ) : K) ≠ 0 := Nat.cast_ne_zero.mpr (Nat.succ_ne_zero count)
  unfold mergedAt
  rw [div_eq_iff hne, Nat.cast_add, Nat.cast_one, mul_add, mul_one, add_right_inj]
  exact eq_comm

theorem mergedAt_eq_right_iff {count : ℕ} (hcount : count ≠ 0) (a b : K) :
    mergedAt count a b = b ↔ a = b := by
  have hne : ((count + 1 : ℕ) : K) ≠ 0 := Nat.cast_ne_zero.mpr (Nat.succ_ne_zero count)
  have hcount' : (count : K) ≠ 0 := Nat.cast_ne_zero.mpr hcount
  unfold mergedAt
  rw [div_eq_iff hne, Nat.cast_add, Nat.cast_one, mul_add, mul_one, add_left_inj]
  exact mul_left_inj' hcount'

/-- The first merge. -/
theorem mergeCentroid_returns (hexact : pf.Exact) (count : ℕ) {v e : List K}
    (hlen : v.length = e.length) :
    ∃ merged, mergeCentroid pf v count e = .ok merged ∧ merged.length = e.length ∧
      (merged = e ↔ count = 0 ∨ v = e) := by
  by_cases hcount : count = 0
  · refine ⟨e, ?_, rfl, by simp [hcount]⟩
    rw [mergeCentroid, if_pos hcount, asFloat32_exact hexact]
  · refine ⟨_, mergeCentroid_zipWith hcount hlen, by simp [hlen], ?_⟩
    rw [zipWith_eq_right_iff (mergedAt_eq_right_iff hcount) hlen]
    exact (or_iff_right hcount).symm

/-- Merging the same embedding once more changes nothing iff the mean has
reached it. -/
theorem mergeCentroid_again {count : ℕ} (hcount : count ≠ 0) {v e : List K}
    (hlen : v.length = e.length) :
    ∃ merged, mergeCentroid pf v count e = .ok merged ∧ merged.length = e.length ∧
      (merged = v ↔ v = e) := by
  refine ⟨_, mergeCentroid_zipWith hcount hlen, by simp [hlen], ?_⟩
  exact zipWith_eq_left_iff (mergedAt_eq_left_iff count) hlen

end Means

/-! ### One request -/

section Requests

variable {K : Type} [Arithmetic K] {svc : Service K} {auth : AuthContext} {oracle : Oracle}
  {img : Image} {det : Detection K} {c : Cluster K}

theorem answerWith_up (pf : Platform K) (oracle : Oracle) :
    answerWith pf oracle false = answer pf oracle := by
  funext call w
  cases call <;> rfl

theorem attachChecks_given {db : Database K} {file : Bytes} {bbox : String} {tSeconds : K}
    {clusterId : String} (hid : clusterId ≠ "") :
    attachChecks svc auth db file bbox tSeconds (some clusterId) ≠ .ok (img, none, det) := by
  intro h
  have hgiven := (attachChecks_ok h).1
  rw [givenRow, if_neg hid] at hgiven
  obtain ⟨row, -, hsome⟩ := Fallible.map_eq_ok.mp hgiven
  cases hsome

/-- The checks find the same face on every request, and the cluster as it is. -/
theorem attachChecks_again {db db' : Database K} {file : Bytes} {bbox : String} {tSeconds : K}
    {clusterId : String} (hid : clusterId ≠ "") {row : Cluster K}
    (hchecks : attachChecks svc auth db file bbox tSeconds (some clusterId) = .ok (img, some c, det))
    (hrow : db'.clusterById c.id = some row) (howner : row.ownerId = c.ownerId) :
    attachChecks svc auth db' file bbox tSeconds (some clusterId) = .ok (img, some row, det) := by
  unfold attachChecks at hchecks ⊢
  obtain ⟨img', himg, hchecks⟩ := Fallible.bind_eq_ok.mp hchecks
  obtain ⟨ready, hready, hchecks⟩ := Fallible.bind_eq_ok.mp hchecks
  obtain ⟨box, hbox, hchecks⟩ := Fallible.bind_eq_ok.mp hchecks
  rw [himg, Fallible.ok_bind, hready, Fallible.ok_bind, hbox, Fallible.ok_bind]
  split at hchecks
  · cases hchecks
  · rename_i ht
    rw [if_neg ht]
    obtain ⟨cluster, hgiven, hchecks⟩ := Fallible.bind_eq_ok.mp hchecks
    obtain ⟨det', hdet, hchecks⟩ := Fallible.bind_eq_ok.mp hchecks
    cases hchecks
    obtain ⟨hcast, -, hauth⟩ := (givenRow_eq_some hid).mp hgiven
    have hrowId : row.id = c.id := (mem_of_clusterById hrow).2
    have hgiven' : givenRow auth db' (some clusterId) = .ok (some row) := by
      refine (givenRow_eq_some hid).mpr ⟨?_, ?_, ?_⟩
      · rw [hrowId, hcast]
      · rw [hrowId, hrow]
      · rw [howner, hauth]
    rw [hgiven', Fallible.ok_bind, hdet]
    rfl

theorem bestBox_mem {box : K × K × K × K} {dets : List (Detection K)}
    (h : (bestBox box dets).1 = some det) : det ∈ dets := by
  refine List.foldlRecOn dets _
    (motive := fun best : Option (Detection K) × K => ∀ d, best.1 = some d → d ∈ dets) ?_ ?_ det h
  · exact fun d hd => by cases hd
  · intro best hbest a ha d hd
    split at hd
    · exact hbest d hd
    · split at hd
      · cases hd
        exact ha
      · exact hbest d hd

theorem faceInBox_mem {box : K × K × K × K} {dets : List (Detection K)}
    (h : faceInBox box dets = .ok det) : det ∈ dets := by
  unfold faceInBox at h
  split at h
  · rename_i found score hbest
    split at h
    · cases h
    · cases h
      exact bestBox_mem (congrArg Prod.fst hbest)
  · cases h

/-- The face attached is one the model found, so its embedding has the model's
dimension. -/
theorem attachChecks_dim {db : Database K} {file : Bytes} {bbox : String} {tSeconds : K}
    {clusterId : Option String} {cluster : Option (Cluster K)}
    (h : attachChecks svc auth db file bbox tSeconds clusterId = .ok (img, cluster, det)) :
    det.embedding.length = svc.vision.dim := by
  obtain ⟨-, box, hface⟩ := attachChecks_ok h
  exact svc.vision.length_embedding _ _ _ _ det (faceInBox_mem hface)

/-- A request that was answered has passed the checks, and its stream id is one. -/
theorem attachFrameFace_answered {w w₁ : World K} {streamId : String} {file : Bytes}
    {bbox : String} {tSeconds : K} {clusterId : String} {body : AttachBody K} (hid : clusterId ≠ "")
    (h : (attachFrameFace svc auth streamId file bbox tSeconds (some clusterId)).exec
      (answer svc.pf oracle) w = (.ok body, w₁)) :
    ∃ img c det stream,
      attachChecks svc auth w.db file bbox tSeconds (some clusterId) = .ok (img, some c, det) ∧
      castUuid streamId = .ok stream := by
  rw [← answerWith_up] at h
  obtain ⟨n, hexec⟩ := @exec_attachFrameFace K _ svc auth svc.pf oracle false streamId file bbox
    tSeconds (some clusterId) w
  rw [hexec] at h
  cases hchecks : attachChecks svc auth w.db file bbox tSeconds (some clusterId) with
  | error e =>
      rw [hchecks] at h
      cases h
  | ok checked =>
      obtain ⟨img, cluster, det⟩ := checked
      rw [hchecks] at h
      cases cluster with
      | none => exact absurd hchecks (attachChecks_given hid)
      | some c =>
          have hends := @attachTo_ends K _ c svc oracle false img det streamId tSeconds false
            { w with calls := w.calls + n } (attachChecks_found hchecks).2
          change (attachTo svc streamId tSeconds img det c.ownerId.text c false).exec _ _ = _ at h
          simp only [h] at hends
          rcases hends with ⟨⟨stream, hstream⟩, -⟩ | ⟨-, ⟨e, he⟩, -⟩ | ⟨-, -, ⟨e, he⟩, -⟩
          · exact ⟨img, c, det, stream, rfl, hstream⟩
          · cases he
          · cases he

/-- What a request that goes through leaves of the cluster. -/
structure Attached (pf : Platform K) (stream : Uuid) (tSeconds : K) (c : Cluster K)
    (merged : List K) (body : AttachBody K) (db db' : Database K) : Prop where
  sighted : Sighted db' stream c.id tSeconds
  row : ∃ row, db'.clusterById c.id = some row ∧ row.ownerId = c.ownerId ∧
    row.sampleCount = db'.countFor c.id ∧ row.centroid = toListArray pf merged
  again : Sighted db stream c.id tSeconds → body.written = 0 ∧ db'.occurrences = db.occurrences

/-- A request for a cluster that is there, once its vectors merge. -/
theorem attachFrameFace_attaches {w : World K} {streamId : String} {stream : Uuid} {file : Bytes}
    {bbox : String} {tSeconds : K} {clusterId : String} {merged : List K}
    (hchecks : attachChecks svc auth w.db file bbox tSeconds (some clusterId) = .ok (img, some c, det))
    (hstream : castUuid streamId = .ok stream)
    (hmerge : mergeCentroid svc.pf (asFloat32 svc.pf c.centroid) c.sampleCount
      (asFloat32 svc.pf det.embedding) = .ok merged) :
    ∃ body w', (attachFrameFace svc auth streamId file bbox tSeconds (some clusterId)).exec
        (answer svc.pf oracle) w = (.ok body, w') ∧
      Attached svc.pf stream tSeconds c merged body w.db w'.db := by
  rw [← answerWith_up]
  obtain ⟨n, hexec⟩ := @exec_attachFrameFace K _ svc auth svc.pf oracle false streamId file bbox
    tSeconds (some clusterId) w
  rw [hexec, hchecks]
  obtain ⟨-, hrow⟩ := attachChecks_found hchecks
  set w₀ : World K := { w with calls := w.calls + n }
  obtain ⟨commit, happend, hsighted, hfound, hagain⟩ := append_sighting svc.pf (oracle.clock w₀.calls)
    hrow hstream (asFloat32 svc.pf det.embedding) tSeconds det.confidence
  obtain ⟨w₁, hw₁, hdb₁, -⟩ := exec_write_of_ok oracle false (.appendStreamOccurrences
    c.ownerId.text streamId [⟨c.id.text, asFloat32 svc.pf det.embedding, tSeconds, det.confidence⟩])
    w₀ happend
  obtain ⟨commit₂, hupdate, hocc₂, hfound₂⟩ := updateCentroid_found svc.pf (oracle.clock w₁.calls)
    hfound rfl merged
  rw [← hdb₁] at hupdate
  obtain ⟨w₂, hw₂, hdb₂, -⟩ := exec_write_of_ok oracle false
    (.updateClusterCentroid c.id.text c.ownerId.text merged) w₁ hupdate
  have hup : ¬ CropRefused svc false img det c.cropObject := fun h => by cases h.1
  obtain ⟨w₃, hw₃, hocc₃, hrow₃⟩ := attachCrop_ok oracle hup w₂
  rw [hdb₂] at hocc₃ hrow₃
  obtain ⟨crop, now, hfound₃⟩ := hrow₃ _ hfound₂
  obtain ⟨updated, hupdated⟩ := getCluster_text w₃.db c.id (some c.ownerId.text)
  have hread : (query (.getCluster c.id.text (some c.ownerId.text))).exec
      (answerWith svc.pf oracle false) w₃ = (.ok updated, { w₃ with calls := w₃.calls + 1 }) := by
    rw [exec_down (within_perform (.query _)), exec_query, Query.run, hupdated]
  have hoccurrences : w₃.db.occurrences = commit.db.occurrences := hocc₃.trans hocc₂
  refine ⟨⟨updated, false, commit.result, tSeconds⟩, { w₃ with calls := w₃.calls + 1 }, ?_, ?_, ?_, ?_⟩
  · change (attachTo svc streamId tSeconds img det c.ownerId.text c false).exec _ _ = _
    unfold attachTo
    rw [exec_bind_ok hw₁, hmerge, exec_bind_ok (exec_lift _ _ w₁), exec_bind_ok hw₂,
      exec_bind_ok hw₃, exec_bind_ok hread]
    rfl
  · obtain ⟨o, ho, hkey⟩ := hsighted
    exact ⟨o, hoccurrences ▸ ho, hkey⟩
  · refine ⟨_, hfound₃, rfl, ?_, rfl⟩
    simp only [countFor, hoccurrences]
  · intro h
    obtain ⟨hwritten, hocc⟩ := hagain h
    exact ⟨hwritten, hoccurrences.trans hocc⟩

end Requests

/-! ### The same request again -/

/-- What `sample_count` and `centroid` say about a cluster. -/
def identityOf {K : Type} (db : Database K) (id : Uuid) : Option (ℕ × List K) :=
  (db.clusterById id).map fun c => (c.sampleCount, c.centroid)

/-- However often the request is repeated from `w₁` on, it is answered, writes
no sighting, and leaves the cluster as it is in `w₁`. -/
def RepeatsIdle {K : Type} [Arithmetic K] (pf : Platform K) (oracle : Oracle)
    (request : Program K (AttachBody K)) (id : Uuid) (w₁ : World K) : Prop :=
  ∀ k : ℕ, ∃ body w', request.exec (answer pf oracle)
      ((fun w => (request.exec (answer pf oracle) w).2)^[k] w₁) = (.ok body, w') ∧
    body.written = 0 ∧ w'.db.occurrences = w₁.db.occurrences ∧
    identityOf w'.db id = identityOf w₁.db id

section Repeats

variable {K : Type} [Field K] [LinearOrder K] [CharZero K] {svc : Service K} {auth : AuthContext}
  {oracle : Oracle} {streamId : String} {file : Bytes} {bbox : String} {tSeconds : K}
  {clusterId : String}

/-- The sightings are those of `db₁`, their number is the count of the cluster,
and its centroid is `u`. -/
def Holds (db₁ : Database K) (c : Cluster K) (u : List K) (db : Database K) : Prop :=
  db.occurrences = db₁.occurrences ∧
    ∃ row, db.clusterById c.id = some row ∧ row.ownerId = c.ownerId ∧
      row.sampleCount = db₁.countFor c.id ∧ row.centroid = u

omit [Field K] [LinearOrder K] [CharZero K] in
theorem Holds.identityOf_eq {db₁ db : Database K} {c : Cluster K} {u : List K}
    (h : Holds db₁ c u db) : identityOf db c.id = some (db₁.countFor c.id, u) := by
  obtain ⟨-, row, hrow, -, hcount, hcentroid⟩ := h
  rw [identityOf, hrow, Option.map_some, hcount, hcentroid]

omit [Field K] [LinearOrder K] [CharZero K] in
theorem toListArray_exact (h : svc.pf.Exact) (a : List K) : toListArray svc.pf a = a := by
  rw [toListArray, h.fmt, List.map_id]

/-- One more request, the sighting being there: it writes none, and the centroid
stays iff it is the embedding. -/
theorem attach_again (hexact : svc.pf.Exact) {db db₁ : Database K} {img : Image} {c : Cluster K}
    {det : Detection K} {stream : Uuid} {u : List K} {w : World K} (hid : clusterId ≠ "")
    (hchecks : attachChecks svc auth db file bbox tSeconds (some clusterId) = .ok (img, some c, det))
    (hstream : castUuid streamId = .ok stream) (hsighted : Sighted db₁ stream c.id tSeconds)
    (hlen : u.length = det.embedding.length) (h : Holds db₁ c u w.db) :
    ∃ body w' u', (attachFrameFace svc auth streamId file bbox tSeconds (some clusterId)).exec
        (answer svc.pf oracle) w = (.ok body, w') ∧ body.written = 0 ∧
      (u' = u ↔ u = det.embedding) ∧ Holds db₁ c u' w'.db := by
  obtain ⟨hocc, row, hrow, howner, hcount, rfl⟩ := h
  have hrowId : row.id = c.id := (mem_of_clusterById hrow).2
  have hsome : db₁.countFor c.id ≠ 0 := by
    obtain ⟨o, ho, hkey⟩ := hsighted
    simp only [Occurrence.key, Prod.mk.injEq] at hkey
    exact Nat.pos_iff_ne_zero.mp (List.countP_pos_iff.mpr ⟨o, ho, by simp [hkey.2.1]⟩)
  obtain ⟨u', hu', -, hfixed⟩ := @mergeCentroid_again K _ _ svc.pf _ _ hsome _ _ hlen
  have hmerge : mergeCentroid svc.pf (asFloat32 svc.pf row.centroid) row.sampleCount
      (asFloat32 svc.pf det.embedding) = .ok u' := by
    rw [asFloat32_exact hexact, asFloat32_exact hexact, hcount, hu']
  obtain ⟨body, w', hexec, hdone⟩ := @attachFrameFace_attaches K _ svc auth oracle img det row w
    streamId stream file bbox tSeconds clusterId u' (attachChecks_again hid hchecks hrow howner)
    hstream hmerge
  obtain ⟨row', hrow', howner', hcount', hcentroid'⟩ := hdone.row
  rw [hrowId] at hrow' hcount'
  have hpresent : Sighted w.db stream row.id tSeconds := by
    obtain ⟨o, ho, hkey⟩ := hsighted
    exact ⟨o, hocc ▸ ho, hrowId ▸ hkey⟩
  obtain ⟨hwritten, hocc'⟩ := hdone.again hpresent
  refine ⟨body, w', u', hexec, hwritten, hfixed, hocc'.trans hocc, row', hrow',
    howner'.trans howner, ?_, ?_⟩
  · rw [hcount', countFor, hocc', hocc]
    rfl
  · rw [hcentroid', toListArray_exact hexact]

/-- **When attaching again is a no-op.** A request that has succeeded for a
cluster can be repeated without effect if and only if the cluster had no
samples before, or its centroid was the embedding already. -/
theorem attach_repeats_iff (hexact : svc.pf.Exact) {w w₁ : World K} {body : AttachBody K}
    (hreach : ReachedWith svc w.db) (hid : clusterId ≠ "")
    (hfirst : (attachFrameFace svc auth streamId file bbox tSeconds (some clusterId)).exec
      (answer svc.pf oracle) w = (.ok body, w₁)) :
    ∃ img c det,
      attachChecks svc auth w.db file bbox tSeconds (some clusterId) = .ok (img, some c, det) ∧
      (RepeatsIdle svc.pf oracle
          (attachFrameFace svc auth streamId file bbox tSeconds (some clusterId)) c.id w₁ ↔
        c.sampleCount = 0 ∨ c.centroid = det.embedding) := by
  obtain ⟨img, c, det, stream, hchecks, hstream⟩ := attachFrameFace_answered hid hfirst
  refine ⟨img, c, det, hchecks, ?_⟩
  have hlen : c.centroid.length = det.embedding.length :=
    (hreach.centroids c (attachChecks_found hchecks).1).trans
      (attachChecks_dim hchecks).symm
  -- the first request leaves the centroid at `v`
  obtain ⟨v, hv, hvlen, hvfixed⟩ := mergeCentroid_returns hexact c.sampleCount hlen
  have hmerge : mergeCentroid svc.pf (asFloat32 svc.pf c.centroid) c.sampleCount
      (asFloat32 svc.pf det.embedding) = .ok v := by
    rw [asFloat32_exact hexact, asFloat32_exact hexact, hv]
  obtain ⟨body', w', hexec, hdone⟩ := @attachFrameFace_attaches K _ svc auth oracle img det c w
    streamId stream file bbox tSeconds clusterId v hchecks hstream hmerge
  rw [hfirst] at hexec
  cases hexec
  have hfirstHolds : Holds w₁.db c v w₁.db := by
    obtain ⟨row, hrow, howner, hcount, hcentroid⟩ := hdone.row
    exact ⟨rfl, row, hrow, howner, hcount, by rw [hcentroid, toListArray_exact hexact]⟩
  rw [← hvfixed]
  constructor
  · -- the first repetition already moves a centroid that is not the embedding
    intro hidle
    obtain ⟨_, _, hexec, -, -, hidentity⟩ := hidle 0
    obtain ⟨_, _, u', hexec', -, hfixed, hholds⟩ := @attach_again K _ _ _ svc auth oracle streamId file
      bbox tSeconds clusterId hexact _ _ _ _ _ _ _ _ hid hchecks hstream hdone.sighted hvlen hfirstHolds
    rw [Function.iterate_zero, id, hexec'] at hexec
    cases hexec
    rw [hfirstHolds.identityOf_eq, hholds.identityOf_eq] at hidentity
    simp only [Option.some.injEq, Prod.mk.injEq, true_and] at hidentity
    exact hfixed.mp hidentity
  · rintro rfl
    have hagain : ∀ w : World K, Holds w₁.db c det.embedding w.db → ∃ body w',
        (attachFrameFace svc auth streamId file bbox tSeconds (some clusterId)).exec
          (answer svc.pf oracle) w = (.ok body, w') ∧ body.written = 0 ∧
        Holds w₁.db c det.embedding w'.db := by
      intro w hw
      obtain ⟨body, w', u', hexec, hwritten, hfixed, hholds⟩ := @attach_again K _ _ _ svc auth oracle
        streamId file bbox tSeconds clusterId hexact _ _ _ _ _ _ _ w hid hchecks hstream hdone.sighted rfl hw
      rw [hfixed.mpr rfl] at hholds
      exact ⟨body, w', hexec, hwritten, hholds⟩
    -- by induction on the repetitions, the centroid being the embedding all along
    set step := fun w => ((attachFrameFace svc auth streamId file bbox tSeconds
      (some clusterId)).exec (answer svc.pf oracle) w).2 with hstep
    have hholds : ∀ k : ℕ, Holds w₁.db c det.embedding (step^[k] w₁).db := by
      intro k
      induction k with
      | zero => exact hfirstHolds
      | succ k ih =>
          obtain ⟨_, w'', hexec, -, hnext⟩ := hagain _ ih
          have hw'' : step (step^[k] w₁) = w'' := congrArg Prod.snd hexec
          rw [Function.iterate_succ_apply', hw'']
          exact hnext
    intro k
    obtain ⟨body'', w'', hexec, hwritten, hnext⟩ := hagain _ (hholds k)
    refine ⟨body'', w'', hexec, hwritten, hnext.1, ?_⟩
    rw [hnext.identityOf_eq, hfirstHolds.identityOf_eq]

end Repeats

/-- The viewer attaches the face of the frame to their cluster. -/
def attachFace : Program ℚ (AttachBody ℚ) :=
  attachFrameFace oneFaceService viewer (Uuid.fill 2).text [0] "10,10,50,50" 1
    (some (Uuid.fill 3).text)

theorem viewerWorld_reached : ReachedWith oneFaceService viewerWorld.db :=
  .step .empty (Uuid.fill 3) 0 (.upsertCluster (Uuid.fill 1).text none false [0, 1])
    ⟨⟨rfl, rfl⟩, rfl⟩

/-- The cluster has no samples, so its first one settles the centroid. -/
theorem attach_repeats_iff_unseen : ∃ body w₁,
    attachFace.exec (answer oneFaceService.pf (sceneOracle 9)) viewerWorld = (.ok body, w₁) ∧
      RepeatsIdle oneFaceService.pf (sceneOracle 9) attachFace (Uuid.fill 3) w₁ := by
  have hanswered : (attachFace.exec (answer oneFaceService.pf (sceneOracle 9))
      viewerWorld).1.toOption.isSome = true := by
    simp only [attachFace, attachFrameFace, parseBox_oneFace]
    decide +kernel
  cases hres : (attachFace.exec (answer oneFaceService.pf (sceneOracle 9)) viewerWorld).1 with
  | error e =>
      rw [hres] at hanswered
      cases hanswered
  | ok body =>
      have hfirst : attachFace.exec (answer oneFaceService.pf (sceneOracle 9)) viewerWorld =
          (.ok body, (attachFace.exec (answer oneFaceService.pf (sceneOracle 9)) viewerWorld).2) :=
        Prod.ext hres rfl
      obtain ⟨img, c, det, hchecks, hiff⟩ := @attach_repeats_iff ℚ _ _ _ oneFaceService viewer
        (sceneOracle 9) (Uuid.fill 2).text [0] "10,10,50,50" 1 (Uuid.fill 3).text ⟨rfl, rfl⟩ _ _ body
        viewerWorld_reached (by decide) hfirst
      have hc := List.mem_singleton.mp (attachChecks_found hchecks).1
      subst hc
      exact ⟨body, _, hfirst, hiff.mpr (.inl rfl)⟩

/-- The cluster of the viewer after a sighting at another time. -/
def seenWorld : World ℚ :=
  { viewerWorld with
    db := (Write.appendStreamOccurrences (Uuid.fill 1).text (Uuid.fill 2).text
      [⟨(Uuid.fill 3).text, [0, 1], 5 / 2, 1⟩]).commit oneFaceService.pf (Uuid.fill 6) 1
      viewerWorld.db }

theorem seenWorld_reached : ReachedWith oneFaceService seenWorld.db := by
  refine .step viewerWorld_reached (Uuid.fill 6) 1 (.appendStreamOccurrences (Uuid.fill 1).text
    (Uuid.fill 2).text [⟨(Uuid.fill 3).text, [0, 1], 5 / 2, 1⟩]) ⟨⟨Or.inr ?_, trivial⟩, trivial⟩
  intro it hit
  rw [List.mem_singleton.mp hit]
  exact ⟨Uuid.fill 3, _, by decide, rfl, Uuid.castUuid_text _⟩

/-- The mean of two embeddings is pulled to two thirds by the same request. -/
theorem reattach_drifts :
    ¬ ∀ (w w₁ : World ℚ) (body : AttachBody ℚ), ReachedWith oneFaceService w.db →
      attachFace.exec (answer oneFaceService.pf (sceneOracle 9)) w = (.ok body, w₁) →
      RepeatsIdle oneFaceService.pf (sceneOracle 9) attachFace (Uuid.fill 3) w₁ := by
  intro h
  set first := attachFace.exec (answer oneFaceService.pf (sceneOracle 9)) seenWorld with hfirst
  have hmoves : first.1.toOption.isSome = true ∧
      identityOf (attachFace.exec (answer oneFaceService.pf (sceneOracle 9)) first.2).2.db (Uuid.fill 3) ≠
        identityOf first.2.db (Uuid.fill 3) := by
    simp only [hfirst, attachFace, attachFrameFace, parseBox_oneFace]
    decide +kernel
  cases hres : first.1 with
  | error e =>
      rw [hres] at hmoves
      cases hmoves.1
  | ok body =>
      obtain ⟨_, w', hexec, -, -, hidentity⟩ := h seenWorld first.2 body seenWorld_reached (Prod.ext hres rfl) 0
      rw [Function.iterate_zero, id] at hexec
      exact hmoves.2 (by rw [hexec, hidentity])

end FacesService.Reader
