import FacesService.System.CropSafety
import FacesService.System.Service

/-!
No picture is missing. The engine and the cascade route are tidy as well; so at every
moment of the whole service a crop that a row names is in the bucket
(`service_keeps_pictures`), however ids are spelled and whatever calls fail.
-/

namespace FacesService

open Prog Prog.Discipline Database Reader

variable {K : Type} [Arithmetic K]

/-! ### The engine -/

section

variable {svc : Service K} {supply : Supply}

theorem place_easy (ownerId : String) (st : LoopState K) (embedding : List K) :
    (place svc ownerId st embedding).Within (Easy supply) fun _ => True := by
  unfold place
  refine within_bind (within_lift fun _ _ => trivial) fun best => ?_
  cases best with
  | none => exact within_bind (within_perform (fun _ => by trivial)) fun newId => within_pure _
  | some c => exact within_bind (within_lift fun _ _ => trivial) fun c' => within_pure _

theorem seeDetection_tidies (ownerId : String) (img : Image) (tSeconds : K) (st : LoopState K)
    (det : Detection K) :
    Tidies svc supply (fun _ => True) (seeDetection svc ownerId img tSeconds st det) fun _ _ => True := by
  unfold seeDetection
  refine (easy_tidies (place_easy ownerId _ det.embedding)).bind fun placed => ?_
  refine Maintains.bind (M := fun _ _ => True) ?_ fun st' => .ret fun _ _ => trivial
  unfold saveCrop
  split
  · exact .ret fun _ _ => trivial
  · exact saveCrop_tidies ownerId placed.1.id _ fun key => .ret fun _ _ => trivial

theorem seeFrame_tidies (args : RunArgs) (idx : ℕ) (st : LoopState K) :
    Tidies svc supply (fun _ => True) (seeFrame svc args idx st) fun _ _ => True := by
  unfold seeFrame
  refine (looks_tidies (within_perform (.getFrame _ _))).bind fun raw => ?_
  cases raw with
  | none => exact .ret fun _ _ => trivial
  | some raw =>
      dsimp only
      split
      · exact .ret fun _ _ => trivial
      · exact Maintains.foldlM (J := fun _ _ => True)
          (fun st det _ => seeDetection_tidies args.ownerId _ _ st det) st

/-- The run lemma of the frame loop. -/
theorem seeFrames_tidies (args : RunArgs) (indices : List ℕ) (done : ℕ) (st : LoopState K) :
    Tidies svc supply (fun _ => True) (seeFrames svc args indices done st) fun _ _ => True := by
  induction indices generalizing done st with
  | nil => exact .ret fun _ _ => trivial
  | cons idx rest ih =>
      unfold seeFrames
      refine (looks_tidies (pollCancel_within_of .poll args done)).bind fun _ => ?_
      exact (seeFrame_tidies args idx st).bind fun st' => ih (done + 1) st'

theorem run_tidies (args : RunArgs) :
    Tidies svc supply (fun _ => True) (run svc args) fun _ _ => True := by
  unfold run
  refine (looks_tidies (within_perform (.query _))).bind fun clusters => ?_
  refine (seeFrames_tidies args _ 0 _).bind fun st => easy_tidies ?_
  refine within_bind ?_ fun written => within_pure _
  refine within_bind (within_perform (fun _ => by trivial)) fun written => ?_
  exact within_bind (within_forM (fun drifted => within_perform (fun _ => by trivial)) st.drift) fun _ =>
    within_pure _

end

/-! ### The cascade route -/

section

variable {pf : Platform K} {supply : Supply} {w w' : World K}

theorem RouteOutcome.cropRely {op : RouteCall} (htidy : op.Tidy supply w)
    {r : Except RouteError op.Answer} (h : RouteOutcome pf supply.oracle op w r w')
    (hlimit : w'.draws ≤ supply.limit) : CropRely supply w w' := by
  cases h with
  | cascaded streamId h => exact h.cropRely (by trivial) hlimit
  | removed name w r => exact .removed htidy rfl rfl (le_refl _)
  | _ => exact .refl _

def routeCropRules (pf : Platform K) (supply : Supply) :
    Discipline RouteCall RouteCall.Answer RouteError (World K) where
  answers op w r w' := RouteOutcome pf supply.oracle op w r w' ∧ w'.draws ≤ supply.limit
  admits := RouteCall.Tidy supply
  rely := CropRely supply
  refl := .refl
  trans := .trans
  guarantee htidy hout := hout.1.cropRely htidy hout.2

abbrev RouteTidies (pf : Platform K) (supply : Supply) {α : Type} (P : World K → Prop)
    (p : RouteProgram α) (Q : α → World K → Prop) : Prop :=
  (routeCropRules pf supply).Maintains (Illustrated supply) P p Q

/-- The clusters a cascade reports are gone. -/
def AllGone (supply : Supply) (deleted : List (String × Uuid)) (w : World K) : Prop :=
  ∀ c ∈ deleted, GoneBy supply c.2.text w

theorem lasts_allGone (deleted : List (String × Uuid)) :
    (routeCropRules pf supply).Stable fun w => Illustrated supply w ∧ AllGone supply deleted w := by
  intro w w' hrely hw
  obtain ⟨hw', hgone, -⟩ := hrely hw.1
  refine ⟨hw', fun c hc => ?_⟩
  obtain ⟨id, hid, hgoneId⟩ := hw.2 c hc
  exact ⟨id, hid, hgone id hgoneId⟩

/-- A call of the route beside which the reported clusters stay gone. -/
theorem routeCall_tidies {op : RouteCall} (deleted : List (String × Uuid))
    (htidy : ∀ w : World K, AllGone supply deleted w → op.Tidy supply w) {Q : op.Answer → Prop}
    (hQ : ∀ a w w', RouteOutcome pf supply.oracle op w (.ok a) w' → Q a) :
    RouteTidies pf supply (AllGone supply deleted) (routeCall op) fun a w =>
      Q a ∧ AllGone supply deleted w := by
  have hlasts : (routeCropRules pf supply).Stable fun w => Illustrated supply w ∧ AllGone supply deleted w :=
    lasts_allGone deleted
  refine Discipline.Keeps.performed hlasts (fun w hw => htidy w hw.2)
    (fun a w w' hw hout => ?_) fun e w w' hw hout => (hout.1.cropRely (htidy w hw.2) hout.2 hw.1).1
  obtain ⟨hw', hgone⟩ := hlasts w w' (hout.1.cropRely (htidy w hw.2) hout.2) hw
  exact ⟨hw', hQ a w w' hout.1, hgone⟩

theorem removeQuietly_tidies {name : String} (deleted : List (String × Uuid))
    (hname : ∀ w : World K, AllGone supply deleted w → Unneeded supply name w) :
    RouteTidies pf supply (AllGone supply deleted) (removeQuietly name) fun _ =>
      AllGone supply deleted := by
  have hremove : (routeCropRules pf supply).Keeps
      (fun w => Illustrated supply w ∧ AllGone supply deleted w) (routeCall (.removeObject name))
      (fun _ w => Illustrated supply w ∧ AllGone supply deleted w)
      (fun w => Illustrated supply w ∧ AllGone supply deleted w) :=
    Discipline.Keeps.performed_stable (lasts_allGone deleted) fun w hw => hname w hw.2
  refine Discipline.Keeps.caught hremove fun e => ?_
  unfold ignoreMissing
  split
  · split
    · exact Discipline.Keeps.ret fun _ hw => hw
    · exact Discipline.Keeps.fail fun _ hw => hw.1
  · exact Discipline.Keeps.fail fun _ hw => hw.1

/-- No object of the folder of a stream is a crop. -/
theorem deletePrefix_tidies {streamId : String} {stream : Uuid} (h : castUuid streamId = .ok stream)
    (deleted : List (String × Uuid)) :
    RouteTidies pf supply (AllGone supply deleted) (deletePrefix ("faces/" ++ streamId)) fun _ =>
      AllGone supply deleted := by
  unfold deletePrefix
  have hnext : RouteTidies pf supply (AllGone supply deleted) (routeCall .nextObject) fun _ =>
      AllGone supply deleted :=
    (routeCall_tidies (Q := fun _ => True) deleted (fun _ _ => by trivial) fun _ _ _ _ => trivial).weaken
      fun _ _ h => h.2
  refine Maintains.bind (routeCall_tidies (Q := fun names => ∀ name ∈ names,
    inFolder (folder ("faces/" ++ streamId)) name) deleted (fun _ _ => by trivial) ?_) fun names => ?_
  · intro names w w' hout
    cases hout with
    | listed pre w names hin => exact hin
  · refine Maintains.assuming (fun _ hw => hw.1) fun hnames => Maintains.forget ?_ fun _ hw => hw.2
    refine Maintains.bind (Maintains.forM fun name hname => ?_) fun _ => hnext
    refine hnext.bind fun _ => removeQuietly_tidies deleted ?_
    rintro w - ownerId clusterId id hid rfl
    have hin := hnames _ hname
    rw [cropKey_not_inFolder h] at hin
    cases hin

theorem purgeObjects_tidies {streamId : String} {stream : Uuid} (h : castUuid streamId = .ok stream)
    (deleted : List (String × Uuid)) :
    RouteTidies pf supply (AllGone supply deleted) (purgeObjects streamId deleted) fun _ _ => True := by
  unfold purgeObjects
  refine (deletePrefix_tidies h deleted).bind fun _ => ?_
  refine (Maintains.forM fun c hc => ?_).weaken fun _ _ _ => trivial
  exact removeQuietly_tidies deleted fun w hw => (hw c hc).unneeded c.1

theorem cascadeCall_tidies (streamId : String) :
    RouteTidies pf supply (fun _ => True) (routeCall (.cascadeStream streamId)) fun result w =>
      (∃ stream, castUuid streamId = .ok stream) ∧ AllGone supply result.deletedClusters w := by
  have htrue : (routeCropRules pf supply).Stable fun w : World K => Illustrated supply w ∧ True :=
    fun _ _ hrely hw => ⟨(hrely hw.1).1, trivial⟩
  refine Discipline.Keeps.performed htrue (fun _ _ => trivial) (fun result w w' hw hout => ?_)
    fun e w w' hw hout => (hout.1.cropRely (by trivial) hout.2 hw.1).1
  have hw' := (hout.1.cropRely (by trivial) hout.2 hw.1).1
  obtain ⟨c, hrun, rfl, hdb⟩ := hout.1.cascade_ok
  obtain ⟨stream, hstream, hpurged⟩ := cascadeStream_db hrun
  obtain ⟨c', hc', -, -, hreport, -⟩ := cascadeStream_purges hw.1.ids hstream (supply.oracle.clock w.calls)
  rw [hrun] at hc'
  cases hc'
  refine ⟨hw', ⟨stream, hstream⟩, fun d hd => ?_⟩
  rw [hreport] at hd
  obtain ⟨row, hrow, hid, -, ⟨o, ho, hoid⟩, hall⟩ := (mem_orphaned hw.1.ids).mp hd
  refine ⟨d.2, Uuid.castUuid_text _, fun n hn hlimit heq => ?_, fun row' hrow' heq => ?_⟩
  · exact hw.1.unborn n (le_trans hout.1.draws_le hn) hlimit row hrow (hid.trans heq.symm)
  · rw [hdb, hpurged, purge] at hrow'
    obtain ⟨old, -, hsettle⟩ := List.mem_filterMap.mp hrow'
    have hold : old.id = d.2 := (settleCluster_keeps hsettle).1.symm.trans heq
    -- all of its rows were in the stream
    have hnone : settleCluster (supply.oracle.clock w.calls) (w.db.deleteOccurrences (inStream stream))
        (hit (inStream stream) w.db) old = none := by
      apply settleCluster_eq_none.mpr
      rw [hold]
      refine ⟨mem_hit.mpr ⟨o, ho, by simp [inStream, hall o ho hoid], hoid⟩, ?_⟩
      exact countFor_deleteOccurrences_eq_zero.mpr fun o ho hoid => by simp [inStream, hall o ho hoid]
    rw [hnone] at hsettle
    cases hsettle

theorem cascadeStreamRoute_tidies (args : RouteArgs) :
    RouteTidies pf supply (fun _ => True) (cascadeStreamRoute args) fun _ _ => True := by
  unfold cascadeStreamRoute
  refine Maintains.bind (M := fun _ _ => True) ?_ fun _ => ?_
  · unfold internalToken
    split
    · exact .fail
    · split
      · exact .fail
      · exact .ret fun _ _ => trivial
  · refine Maintains.bind (.caught (cascadeCall_tidies args.streamId) fun _ => .fail) fun result => ?_
    refine Maintains.assuming (fun _ hw => hw.1) fun ⟨stream, hstream⟩ => ?_
    refine Maintains.forget (P := AllGone supply result.deletedClusters) ?_ fun _ hw => hw.2
    split
    · refine Maintains.bind (.caught (purgeObjects_tidies hstream _) fun _ => .fail) fun _ => ?_
      exact .ret fun _ _ => trivial
    · exact .ret fun _ _ => trivial

/-! ### Every moment -/

omit [Arithmetic K] in
/-- Frames are no crops. -/
theorem frame_cropRely (w : World K) (pre : String) (index : ℕ) (blob : Option Blob) :
    CropRely supply w (w.setObject (frameKey pre index) blob) := by
  cases blob with
  | some blob => exact CropRely.put rfl rfl (le_refl _)
  | none =>
      have hframe : Unneeded supply (frameKey pre index) w := fun ownerId clusterId id hid hkey =>
        absurd hkey.symm (cropKey_ne_frameKey hid pre index)
      exact CropRely.removed hframe rfl rfl (le_refl _)

def cropRegime (pf : Platform K) (supply : Supply) : Regime pf supply where
  keeps := Illustrated supply
  calls := cropRules pf supply
  route := routeCropRules pf supply
  answers hout hlimit := show (cropRules pf supply).answers _ _ _ _ from ⟨hout, hlimit⟩
  routeAnswers hout hlimit := show (routeCropRules pf supply).answers _ _ _ _ from ⟨hout, hlimit⟩
  common := rfl
  kept hrely hw := (hrely hw).1
  frame := frame_cropRely

end

section

variable {app : App K} {supply : Supply}

theorem Incoming.start_tidy (request : Incoming K) {w : World K} (hw : Illustrated supply w) :
    (request.start app).Holds (cropRegime app.service.pf supply) w := by
  cases request with
  | read authorization r =>
      refine Thread.holds_program (g := cropRegime app.service.pf supply) (Q := fun _ _ => True) ?_ hw
      change Tidies app.service supply (fun _ => True) (FacesService.read app authorization r) fun _ _ => True
      unfold FacesService.read
      exact Maintains.bind (M := fun _ _ => True) (.lifted fun _ _ _ _ => trivial) fun auth => serve_tidies r
  | infer token body =>
      refine Thread.holds_program (g := cropRegime app.service.pf supply) (Q := fun _ _ => True) ?_ hw
      change Tidies app.service supply (fun _ => True) (FacesService.infer app token body) fun _ _ => True
      unfold FacesService.infer
      refine Maintains.bind (M := fun _ _ => True) (.lifted fun _ _ _ _ => trivial) fun _ => ?_
      refine Maintains.caught ((run_tidies _).bind fun r => .ret fun _ _ => trivial) fun e => ?_
      unfold answerAborted
      split
      · exact .ret fun _ _ => trivial
      · exact .fail
  | cascade token streamId =>
      exact Thread.holds_route (g := cropRegime app.service.pf supply)
        (cascadeStreamRoute_tidies (app.routeArgs token streamId)) hw

variable {ι : Type} [DecidableEq ι] {w₀ : World K} {accepts : Incoming K → Prop} {c : Running ι K}

/-- **No picture is missing**, at any moment of the whole service: what a row names
as its crop is in the bucket, under a key of that cluster. -/
theorem service_keeps_pictures (hstart : Illustrated supply w₀)
    (h : Running.Leads app supply.oracle accepts (.start ι w₀) c) (hlimit : c.state.draws ≤ supply.limit) :
    ∀ row ∈ c.state.db.clusters, row.Shown c.state.objects :=
  (Running.keeps (cropRegime app.service.pf supply) (fun request _ _ hw => request.start_tidy hw)
    hstart h hlimit).shown

end

/-- A run that gives a new cluster its crop. -/
theorem service_keeps_pictures_inferred :
    (inferred 1 sceneWorld).db.clusters.any (fun row => row.cropObject.isSome) = true ∧
      ∀ row ∈ (inferred 1 sceneWorld).db.clusters, row.Shown (inferred 1 sceneWorld).objects := by
  refine ⟨by decide +kernel, ?_⟩
  obtain ⟨c, hstate, hleads⟩ := leads_inferred (fun _ => True) 1 trivial sceneWorld
  have hlimit : (inferred 1 sceneWorld).draws ≤ sceneSupply.limit := by decide +kernel
  rw [← hstate] at hlimit ⊢
  refine service_keeps_pictures ⟨?_, sane_sceneWorld.unborn, fun row hrow => ?_⟩ hleads hlimit
  · exact List.nodup_nil
  · cases hrow

end FacesService
