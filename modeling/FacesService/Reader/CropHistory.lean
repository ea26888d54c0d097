import FacesService.Infer.Pictures
import FacesService.Reader.Pictures

/-!
Crops follow their cluster, over whole histories. A crop lies under a key made of
strings: the text of the owner, and for the cluster its text in some places and
whatever the request said in others. Where a request says it in another spelling,
an upload is stored where nobody looks for it, and a deletion purges a key that
does not exist and leaves the picture of the person behind.

In a history whose requests and runs spell the ids right, the table and the bucket
agree after every task.
-/

namespace FacesService.Reader

open Prog Database Fallible Db

variable {K : Type} [Arithmetic K]

/-- What the service is asked to do. -/
inductive Task (K : Type)
  | request (auth : AuthContext) (r : Request K)
  | run (args : RunArgs)

/-- One task after another, each such as `ok` allows, runs being completed. `log`
has the calls so far. Between two tasks objects that are no crops may come and go. -/
inductive History (svc : Service K) (oracle : Oracle) (ok : Database K → Task K → Prop)
    (w₀ : World K) : List (Event K) → World K → Prop
  | start : History svc oracle ok w₀ [] w₀
  | request {log : List (Event K)} {w : World K} (h : History svc oracle ok w₀ log w)
      (auth : AuthContext) (r : Request K) (hok : ok w.db (.request auth r)) :
      History svc oracle ok w₀ (log ++ (serve svc auth r).steps (answer svc.pf oracle) w)
        ((serve svc auth r).exec (answer svc.pf oracle) w).2
  | run {log : List (Event K)} {w : World K} (h : History svc oracle ok w₀ log w) (args : RunArgs)
      (hok : ok w.db (.run args)) {res : RunResult} {w' : World K}
      (hrun : (FacesService.run svc args).exec (answer svc.pf oracle) w = (.ok res, w')) :
      History svc oracle ok w₀ (log ++ (FacesService.run svc args).steps (answer svc.pf oracle) w) w'
  | elsewhere {log : List (Event K)} {w : World K} (h : History svc oracle ok w₀ log w)
      {objects : String → Option Blob} (hcrops : ∀ ownerId clusterId id, castUuid clusterId = .ok id →
        objects (cropKey ownerId clusterId) = w.objects (cropKey ownerId clusterId)) :
      History svc oracle ok w₀ log { w with objects := objects }

/-- A cluster with a crop shows the picture last stored for it, under its text. -/
def LastShown (svc : Service K) (oracle : Oracle) (log : List (Event K)) (w : World K) : Prop :=
  ∀ c ∈ w.db.clusters, c.cropObject ≠ none → ∃ data, lastStored log c.id = some data ∧
    ∀ auth, ensureOwner auth c.ownerId.text = .ok () →
      ((faceCrop svc auth c.id.text).exec (answer svc.pf oracle) w).1 = .ok ⟨data, "image/jpeg"⟩

omit [Arithmetic K] in
/-- Every crop in the bucket is of a cluster that is there. -/
def NoneOrphaned (w : World K) : Prop :=
  ∀ ownerId clusterId id, castUuid clusterId = .ok id → w.objects (cropKey ownerId clusterId) ≠ none →
    ∃ c ∈ w.db.clusters, c.id = id

/-- The ids the task stores or purges crops under are texts. -/
def Task.Spelled (svc : Service K) (db : Database K) : Task K → Prop
  | .request auth r => r.Spelled svc auth db
  | .run args => args.Spelled

variable {svc : Service K} {oracle : Oracle}

/-- A program that ends in a settled album does so in the course of a log. -/
theorem leads_settled {α : Type} {p : Program K α} {A : Album K → Prop}
    (hp : Leads svc oracle A p (fun _ => Album.Settled) Album.Settled) {log : List (Event K)}
    {w : World K} (hA : A ⟨lastStored log, w.db, w.objects⟩) :
    Album.Settled ⟨lastStored (log ++ p.steps (answer svc.pf oracle) w),
      (p.exec (answer svc.pf oracle) w).2.db, (p.exec (answer svc.pf oracle) w).2.objects⟩ := by
  have hend := hp (lastStored log, w) hA
  rw [exec_observe] at hend
  rw [lastStored, List.foldl_append]
  rcases hexec : p.exec (answer svc.pf oracle) w with ⟨_ | a, w'⟩ <;> rw [hexec] at hend
  · exact hend
  · exact hend

/-- **The run lemma.** -/
theorem History.settled (hready : svc.storeReady = true) {w₀ : World K} (hdb : w₀.db = ⟨[], []⟩)
    (hobjects : ∀ ownerId clusterId id, castUuid clusterId = .ok id →
      w₀.objects (cropKey ownerId clusterId) = none) {log : List (Event K)} {w : World K}
    (h : History svc oracle (fun db t => t.Spelled svc db) w₀ log w) :
    Album.Settled ⟨lastStored log, w.db, w.objects⟩ := by
  induction h with
  | start =>
      refine ⟨by simp [hdb], by simp [hdb], fun ownerId clusterId id hid hobj => ?_⟩
      exact absurd (hobjects ownerId clusterId id hid) hobj
  | request _ auth r hok ih => exact leads_settled (serve_leads hready r) ⟨ih, hok⟩
  | @run log w _ args hok res w' hrun ih =>
      have hend := @leads_settled K _ svc oracle _ _ _ (run_leads hok) log w ih
      rw [hrun] at hend
      exact hend
  | elsewhere _ hcrops ih =>
      refine ⟨ih.ids, fun c hc hcrop => ?_, fun ownerId clusterId id hid hobj => ?_⟩
      · obtain ⟨hkey, data, hlast, hobj⟩ := ih.shown c hc hcrop
        exact ⟨hkey, data, hlast, (hcrops _ _ _ (Uuid.castUuid_text _)).trans hobj⟩
      · exact ih.backed ownerId clusterId id hid fun hnone =>
          hobj ((hcrops _ _ _ hid).trans hnone)

theorem exec_faceCrop (hready : svc.storeReady = true) {auth : AuthContext} {w : World K} {c : Cluster K}
    (hids : (w.db.clusters.map (·.id)).Nodup) (hc : c ∈ w.db.clusters)
    (howner : ensureOwner auth c.ownerId.text = .ok ()) {blob : Blob}
    (hblob : w.objects (cropKey c.ownerId.text c.id.text) = some blob) :
    ((faceCrop svc auth c.id.text).exec (answer svc.pf oracle) w).1 = .ok blob := by
  have hfound : (ownedCluster auth c.id.text).exec (answer svc.pf oracle) w =
      (.ok c, { w with calls := w.calls + 1 }) := by
    rw [exec_ownedCluster, getCluster, Uuid.castUuid_text, ok_bind, clusterById_of_nodup hids hc]
    simp only [ok_bind, checkOwner, howner]
  have hstore : (lift (storeOr503 svc) : Program K Unit).exec (answer svc.pf oracle)
      { w with calls := w.calls + 1 } = (.ok (), { w with calls := w.calls + 1 }) := by
    rw [exec_lift, storeOr503, if_pos hready]
  have hget : (call (K := K) (.getCrop c.ownerId.text c.id.text)).exec (answer svc.pf oracle)
      { w with calls := w.calls + 1 } = (.ok (some blob), { w with calls := w.calls + 1 + 1 }) := by
    rw [exec_perform, ← hblob]
    rfl
  rw [faceCrop, exec_bind_ok hfound, exec_bind_ok hstore, exec_bind_ok hget]
  rfl

/-- **Crops follow their cluster**, in every history that spells the ids of the
crops it stores and purges as the service does. -/
theorem crops_follow (hready : svc.storeReady = true) {w₀ : World K} (hdb : w₀.db = ⟨[], []⟩)
    (hobjects : ∀ ownerId clusterId id, castUuid clusterId = .ok id →
      w₀.objects (cropKey ownerId clusterId) = none) {log : List (Event K)} {w : World K}
    (h : History svc oracle (fun db t => t.Spelled svc db) w₀ log w) :
    LastShown svc oracle log w ∧ NoneOrphaned w := by
  have hset := h.settled hready hdb hobjects
  constructor
  · intro c hc hcrop
    obtain ⟨-, data, hlast, hobj⟩ := hset.shown c hc hcrop
    exact ⟨data, hlast, fun auth howner => exec_faceCrop hready hset.ids hc howner hobj⟩
  · intro ownerId clusterId id hid hobj
    rcases hset.backed ownerId clusterId id hid hobj with ⟨c, hc, -, -, rfl⟩ | ⟨owner, hfalse, -⟩
    · rw [Uuid.castUuid_text] at hid
      exact ⟨c, hc, Except.ok.inj hid⟩
    · exact hfalse.elim

/-! ### One person -/

/-- One person on both of two frames. -/
def cropScene : Service ℚ := sceneService [[(1, 0)], [(1, 0)]]

def cropCaller : AuthContext := ⟨(Uuid.fill 1).text, none⟩

/-- The world after the run, which leaves the person with a crop. -/
def croppedWorld : World ℚ := sceneAfter [[(1, 0)], [(1, 0)]]

def croppedLog : List (Event ℚ) :=
  (run cropScene sceneArgs).steps (answer cropScene.pf (sceneOracle 9)) sceneWorld

theorem croppedWorld_history {ok : Database ℚ → Task ℚ → Prop}
    (hok : ok sceneWorld.db (.run sceneArgs)) :
    History cropScene (sceneOracle 9) ok sceneWorld croppedLog croppedWorld := by
  have hdone : ((run cropScene sceneArgs).exec (answer Platform.exact (sceneOracle 9))
      sceneWorld).1.isOk = true := by decide +kernel
  cases hres : ((run cropScene sceneArgs).exec (answer Platform.exact (sceneOracle 9)) sceneWorld).1 with
  | error e =>
      rw [hres] at hdone
      cases hdone
  | ok res => exact .run .start sceneArgs hok (scene_run hres)

theorem sceneWorld_noCrops (ownerId clusterId : String) (id : Uuid) (hid : castUuid clusterId = .ok id) :
    sceneWorld.objects (cropKey ownerId clusterId) = none := by
  simp only [sceneWorld]
  rw [if_neg (cropKey_ne_frameKey hid _ _), if_neg (cropKey_ne_frameKey hid _ _)]

/-- The calls and the world after one more request. -/
def afterwards (r : Request ℚ) : List (Event ℚ) × World ℚ :=
  (croppedLog ++ (serve cropScene cropCaller r).steps (answer cropScene.pf (sceneOracle 9)) croppedWorld,
    ((serve cropScene cropCaller r).exec (answer cropScene.pf (sceneOracle 9)) croppedWorld).2)

/-- The upload of a picture for a person. -/
def upload (clusterId : String) : Request ℚ := .replaceFaceCrop clusterId [7]

theorem crops_follow_upload :
    LastShown cropScene (sceneOracle 9) (afterwards (upload (Uuid.fill 3).text)).1
        (afterwards (upload (Uuid.fill 3).text)).2 ∧
      NoneOrphaned (afterwards (upload (Uuid.fill 3).text)).2 := by
  refine crops_follow rfl rfl sceneWorld_noCrops
    (.request (croppedWorld_history fun owner howner => ?_) cropCaller _ ?_)
  · rw [sceneArgs, Uuid.castUuid_text] at howner
    rw [← Except.ok.inj howner, sceneArgs]
  · intro row img hmine _ _
    obtain ⟨id, hid, hfound⟩ := rowOf_eq_some.mp hmine.1
    rw [Uuid.castUuid_text] at hid
    rw [(mem_of_clusterById hfound).2, Except.ok.inj hid]

/-- The person without hyphens, which the database takes for the same. -/
def hyphenless : String := "33333333333333333333333333333333"

/-- What holds in every history, however ids are spelled. -/
def InEveryHistory (P : Service ℚ → Oracle → List (Event ℚ) → World ℚ → Prop) : Prop :=
  ∀ (svc : Service ℚ) (oracle : Oracle) (w₀ w : World ℚ) (log : List (Event ℚ)),
    svc.storeReady = true → w₀.db = ⟨[], []⟩ →
    (∀ ownerId clusterId id, castUuid clusterId = .ok id →
      w₀.objects (cropKey ownerId clusterId) = none) →
    History svc oracle (fun _ _ => True) w₀ log w → P svc oracle log w

theorem inEveryHistory_afterwards {P : Service ℚ → Oracle → List (Event ℚ) → World ℚ → Prop}
    (h : InEveryHistory P) (r : Request ℚ) :
    P cropScene (sceneOracle 9) (afterwards r).1 (afterwards r).2 :=
  h _ _ _ _ _ rfl rfl sceneWorld_noCrops (.request (croppedWorld_history trivial) cropCaller r trivial)

/-- A picture uploaded without hyphens is not shown, and a deletion without hyphens
leaves the picture of the person in the bucket. -/
theorem hyphenless_breaks :
    ¬ InEveryHistory LastShown ∧ ¬ InEveryHistory fun _ _ _ w => NoneOrphaned w := by
  constructor
  · intro h
    have hrow : ∃ c ∈ (afterwards (upload hyphenless)).2.db.clusters,
        c.id = Uuid.fill 3 ∧ c.ownerId = Uuid.fill 1 ∧ c.cropObject ≠ none := by decide +kernel
    obtain ⟨c, hc, hid, howner, hcrop⟩ := hrow
    obtain ⟨data, hlast, hshown⟩ := inEveryHistory_afterwards h (upload hyphenless) c hc hcrop
    have hserved := hshown cropCaller (by rw [howner]; decide +kernel)
    rw [hid] at hlast hserved
    have hstale : lastStored (afterwards (upload hyphenless)).1 (Uuid.fill 3) = some [7] ∧
        ((faceCrop cropScene cropCaller (Uuid.fill 3).text).exec (answer cropScene.pf (sceneOracle 9))
          (afterwards (upload hyphenless)).2).1.toOption ≠ some ⟨[7], "image/jpeg"⟩ := by
      decide +kernel
    rw [hstale.1] at hlast
    cases hlast
    rw [hserved] at hstale
    exact hstale.2 rfl
  · intro h
    have hleft : (afterwards (.deleteFace hyphenless)).2.db.clusters = [] ∧
        (afterwards (.deleteFace hyphenless)).2.objects
          (cropKey (Uuid.fill 1).text (Uuid.fill 3).text) ≠ none := by decide +kernel
    obtain ⟨c, hc, -⟩ := inEveryHistory_afterwards h (.deleteFace hyphenless) _ _ _
      (Uuid.castUuid_text _) hleft.2
    rw [hleft.1] at hc
    cases hc

end FacesService.Reader
