import FacesService.Base.Ways
import FacesService.Infer.Beside
import FacesService.Reader.Attach
import FacesService.Reader.DeleteEmpty

/-!
A run of the owner and an attachment to one of the owner's clusters at the same
time. Both read the cluster, compute its centroid and write it blindly later: the
run over its whole length, the attachment between its first call and its third.
-/

namespace FacesService.Reader

open Prog Database Db

variable {K : Type} [Arithmetic K] {svc : Service K} {auth : AuthContext} {oracle : Oracle}

/-- An entry in the log of the race: a call of the run, or of the attachment. -/
abbrev Moment (K : Type) : Type :=
  Prog.Event (Call K) Call.Answer PyError (Call K) Call.Answer PyError (World K)

theorem Answered.parts {pf : Platform K} {op : Call K} {a : Except PyError op.Answer} {s t : World K}
    (h : Answered pf oracle op s a t) : a = (answer pf oracle op s).1 ∧ t = (answer pf oracle op s).2 := by
  rw [Answered] at h
  rw [h]
  exact ⟨rfl, rfl⟩

/-! ### The attachment -/

/-- The rest of an attachment, once the cluster is read. -/
def afterRead (svc : Service K) (auth : AuthContext) (streamId : String) (tSeconds : K) (img : Image)
    (box : K × K × K × K) : Option (Cluster K) → Program K (AttachBody K)
  | none => raise (.http 404 "not found")
  | some c =>
      match ensureOwner auth c.ownerId.text with
      | .error e => raise (asHttp e)
      | .ok () => lift (faceInBox box (detectOn svc img)) >>= fun det =>
          attachTo svc streamId tSeconds img det c.ownerId.text c false

/-- An attachment is refused at once, or it reads the cluster. -/
theorem attach_reads (svc : Service K) (auth : AuthContext) {clusterId : String} (hne : clusterId ≠ "")
    (streamId : String) (file : Bytes) (bbox : String) (tSeconds : K) :
    (∃ e, attachFrameFace svc auth streamId file bbox tSeconds (some clusterId) = .raise e) ∨
    ∃ img box, attachFrameFace svc auth streamId file bbox tSeconds (some clusterId) =
      query (.getCluster clusterId none) >>= afterRead svc auth streamId tSeconds img box := by
  unfold attachFrameFace
  cases readImage svc file with
  | error e => exact .inl ⟨e, rfl⟩
  | ok img =>
      cases engineOr503 svc with
      | error e => exact .inl ⟨e, rfl⟩
      | ok _ =>
          cases parseBox svc bbox with
          | error e => exact .inl ⟨e, rfl⟩
          | ok box =>
              simp only [lift_ok_bind]
              by_cases ht : tSeconds < 0
              · rw [if_pos ht]
                exact .inl ⟨_, rfl⟩
              · rw [if_neg ht]
                refine .inr ⟨img, box, ?_⟩
                have hgiven : (givenCluster auth (some clusterId) : Program K _) =
                    some <$> ownedCluster auth clusterId := if_neg hne
                rw [hgiven]
                refine congrArg (Prog.call _) (funext fun found => ?_)
                cases found with
                | error e => rfl
                | ok row =>
                    cases row with
                    | none => rfl
                    | some c =>
                        unfold afterRead
                        cases hauth : ensureOwner auth c.ownerId.text with
                        | error e => simp only [Prog.bind, hauth]
                        | ok _ =>
                            simp only [Prog.bind, hauth]
                            rfl

/-- What an attachment calls after that. -/
inductive AttachCall (owner X : Uuid) : Call K → Prop
  | append (streamId : String) (a : List K) (tSeconds confidence : K) :
      AttachCall owner X (.write (.appendStreamOccurrences owner.text streamId
        [⟨X.text, a, tSeconds, confidence⟩]))
  | centroid (a : List K) : AttachCall owner X (.write (.updateClusterCentroid X.text owner.text a))
  | putCrop (data : Bytes) : AttachCall owner X (.putCrop owner.text X.text data)
  | crop (key : String) : AttachCall owner X (.write (.setClusterCrop X.text owner.text (some key)))
  | read : AttachCall owner X (.query (.getCluster X.text (some owner.text)))

section Calls

variable {owner X : Uuid} {op : Call K} {v : Window}

omit [Arithmetic K] in
theorem AttachCall.shared (h : AttachCall owner X op) : SharedCall owner op := by
  cases h with
  | append streamId a tSeconds confidence => exact .write (.append (Uuid.castUuid_text owner) _ _)
  | centroid a => exact .write (.centroid _ _ _)
  | putCrop data => exact .putCrop _ _ _
  | crop key => exact .write (.crop _ _ _)
  | read => exact .read _

omit [Arithmetic K] in
theorem AttachCall.touches (h : AttachCall owner X op) {id : Uuid} (hid : op.Touches id) : id = X := by
  have hcast : castUuid X.text = .ok id → id = X := fun h => by
    rw [Uuid.castUuid_text] at h
    cases h
    rfl
  cases h with
  | append streamId a tSeconds confidence =>
      obtain ⟨it, hit, hid⟩ := hid
      rw [List.mem_singleton.mp hit] at hid
      exact hcast hid
  | centroid a => exact hcast hid
  | putCrop data => exact hid.elim
  | crop key => exact hcast hid
  | read => exact hid.elim

omit [Arithmetic K] in
theorem AttachCall.draws (h : AttachCall owner X op) : op.draws = false := by
  cases h <;> rfl

omit [Arithmetic K] in
/-- Whoever does not look at the cluster, or not at its crop, does not notice. -/
theorem AttachCall.aside (h : AttachCall owner X op) (howner : v.owner = owner)
    (hX : op.Touches X → v.hidden X = true ∨ (op.setsCrop = true ∧ v.bare X = true)) : Aside v op where
  shared := howner ▸ h.shared
  poll := by cases h <;> rfl
  draws := h.draws
  crop ownerId clusterId data hop := by
    cases h <;> cases hop
    exact ⟨X, Uuid.castUuid_text X⟩
  touches id hid := by
    obtain rfl := h.touches hid
    exact hX hid

theorem attachCrop_within (svc : Service K) (img : Image) (det : Detection K) (c : Cluster K) :
    (attachCrop svc img c.ownerId.text c.id.text det c).Within (AttachCall c.ownerId c.id) fun _ => True := by
  unfold attachCrop
  split
  · exact within_pure _
  · split
    · exact within_pure _
    · split
      · exact within_bind (within_perform (.putCrop _)) fun key => within_perform (.crop key)
      · exact within_pure _

theorem attachTo_within (svc : Service K) (streamId : String) (tSeconds : K) (img : Image)
    (det : Detection K) (c : Cluster K) (created : Bool) :
    (attachTo svc streamId tSeconds img det c.ownerId.text c created).Within (AttachCall c.ownerId c.id)
      fun _ => True := by
  unfold attachTo
  refine within_bind (within_perform (.append _ _ _ _)) fun written => ?_
  refine within_bind (within_lift fun _ _ => trivial) fun merged => ?_
  refine within_bind (within_perform (.centroid _)) fun _ => ?_
  refine within_bind (attachCrop_within svc img det c) fun _ => ?_
  exact within_bind (within_perform .read) fun _ => within_pure _

/-- An attachment in tandem with itself; what its last read shows does not matter. -/
def attachTandem (owner X : Uuid) : Tandem (Call K) Call.Answer PyError where
  shared := AttachCall owner X
  own _ := False
  apt _ _ := True
  bad _ := False
  alike
    | .query _, _, r' => ∃ a, r' = .ok a
    | _, r, r' => r = r'

theorem attachTo_trails (svc : Service K) (streamId : String) (tSeconds : K) (img : Image)
    (det : Detection K) (c : Cluster K) (created : Bool) :
    Trails (attachTandem c.ownerId c.id) (fun _ => False) (fun _ _ => True)
      (attachTo svc streamId tSeconds img det c.ownerId.text c created)
      (attachTo svc streamId tSeconds img det c.ownerId.text c created) := by
  unfold attachTo
  refine .performed (.append _ _ _ _) (fun _ _ => id) fun written => .lifted fun merged _ => ?_
  refine .performed (.centroid _) (fun _ _ => id) fun _ => ?_
  have hcrop : Trails (attachTandem c.ownerId c.id) (fun _ => False) Eq
      (attachCrop svc img c.ownerId.text c.id.text det c)
      (attachCrop svc img c.ownerId.text c.id.text det c) := by
    unfold attachCrop
    split
    · exact .ret rfl
    · split
      · exact .ret rfl
      · split
        · refine .performed (.putCrop _) (fun _ _ => id) fun key => ?_
          refine .call (.crop key) fun r r' hr => ?_
          obtain rfl : r = r' := hr
          cases r with
          | error e => exact .raise e _
          | ok u => exact .ret rfl
        · exact .ret rfl
  refine hcrop.bind (fun _ _ _ => ?_) fun _ => False.elim
  refine .call .read fun r r' hr => ?_
  obtain ⟨a, rfl⟩ : ∃ a, r' = .ok a := hr
  cases r with
  | error e => exact .raise e _
  | ok a' => exact .ret trivial

end Calls

/-! ### Side by side -/

/-- Everything but one cluster. -/
def exceptOne (owner X : Uuid) : Window := ⟨owner, fun id => id = X, fun _ => false, false⟩

/-- One cluster. -/
def onlyOne (owner X : Uuid) : Window := ⟨owner, fun id => id ≠ X, fun _ => false, true⟩

/-- Everything. -/
def everything (owner : Uuid) : Window := ⟨owner, fun _ => false, fun _ => false, false⟩

/-- Everything but the crop of one cluster. -/
def bareOne (owner X : Uuid) : Window := ⟨owner, fun _ => false, fun id => id = X, false⟩

section SideBySide

variable {owner X : Uuid} {pf : Platform K} {s s' t u : World K}
  {log : List (Moment K)}

/-- Elsewhere than at the cluster, nothing happens to it. -/
theorem unseen_onlyOne {op : Call K} (hop : SharedCall owner op) (htouch : ¬ op.Touches X)
    (hthere : s.db.has X = true) : (onlyOne owner X).Same (answer pf oracle op s).2.db s.db := by
  refine SharedCall.unseen (v := onlyOne owner X) hop (fun id hid => .inl ?_) fun _ => ?_
  · exact decide_eq_true fun heq => htouch (heq ▸ hid)
  · by_cases hfresh : oracle.fresh s.draws = X
    · exact .inr (hfresh ▸ hthere)
    · exact .inl (decide_eq_true hfresh)

/-- A run that does not touch the cluster does not notice the attachment. -/
theorem run_alone {α β : Type} {p p' : Program K α} {q : Program K β} {res : α} {r' : Except PyError β}
    {Q : α → α → Prop} (h : Race (Answered pf oracle) (Answered pf oracle) p q s log (.ok res) r' s')
    (hp : Trails (countTandem owner X) (fun _ => False) Q p p')
    (hfirst : ∀ st, .inl st ∈ log → ¬ st.op.Touches X)
    (hsecond : ∀ st, .inr st ∈ log → AttachCall owner X st.op) (hst : Alongside (exceptOne owner X) s t)
    (hthere : t.db.has X = true) :
    ∃ res' t', p'.exec (answer pf oracle) t = (.ok res', t') ∧ Alongside (exceptOne owner X) s' t' ∧
      (onlyOne owner X).Same t'.db t.db := by
  have hends := h.trails (H := answer pf oracle) (N := AttachCall owner X)
    (R := fun s t' => Alongside (exceptOne owner X) s t' ∧ (onlyOne owner X).Same t'.db t.db ∧
      t'.db.has X = true) ?_ (fun _ _ _ _ _ => False.elim) ?_ hp hfirst hsecond
    ⟨hst, .refl _ _, hthere⟩ rfl
  · obtain ⟨res', t', hexec, -, ⟨hR, hsame, -⟩, -⟩ := hends.resolve_left id
    exact ⟨res', t', hexec, hR, hsame⟩
  · rintro op s a s₁ t' ⟨hop, hread⟩ htouch hanswer ⟨hR, hsame, hthere⟩
    obtain ⟨rfl, rfl⟩ := hanswer.parts
    have htouch' : ∀ id, op.Touches id → (exceptOne owner X).hidden id = false := fun id hid =>
      decide_eq_false fun heq => htouch (heq ▸ hid)
    obtain ⟨hanswers, hR'⟩ := hR.both rfl hop hread htouch'
    exact ⟨hanswers, hR', (unseen_onlyOne hop htouch hthere).trans hsame, hop.has hthere⟩
  · rintro op s a s₁ t' hop hanswer ⟨hR, hrest⟩
    obtain ⟨rfl, rfl⟩ := hanswer.parts
    exact ⟨hR.one (hop.aside rfl fun _ => .inl (by simp [exceptOne])), hrest⟩

/-- An attachment to a cluster the run does not touch does not notice the run, and
does nothing elsewhere. -/
theorem attach_alone {α : Type} {p : Program K α} {r : Except PyError α} {body : AttachBody K}
    {streamId : String} {tSeconds : K} {img : Image} {det : Detection K} {c : Cluster K} {created : Bool}
    (h : Race (Answered pf oracle) (Answered pf oracle) p
      (attachTo svc streamId tSeconds img det c.ownerId.text c created) s log r (.ok body) s')
    (hp : p.Within (SharedCall c.ownerId) fun _ => True)
    (hfirst : ∀ st, .inl st ∈ log → ¬ st.op.Touches c.id)
    (hsame : (onlyOne c.ownerId c.id).Same s.db u.db) (hthere : s.db.has c.id = true) :
    ∃ body' u', (attachTo svc streamId tSeconds img det c.ownerId.text c created).exec (answer pf oracle) u =
        (.ok body', u') ∧ (onlyOne c.ownerId c.id).Same s'.db u'.db ∧
      (exceptOne c.ownerId c.id).Same u'.db u.db := by
  have htrails := attachTo_trails svc streamId tSeconds img det c created
  have hends := h.swap.trails (H := answer pf oracle)
    (N := fun op => SharedCall c.ownerId op ∧ ¬ op.Touches c.id)
    (R := fun s u' => (onlyOne c.ownerId c.id).Same s.db u'.db ∧ s.db.has c.id = true) ?_
    (fun _ _ _ _ _ => False.elim) ?_ htrails (fun _ _ => id) ?_ ⟨hsame, hthere⟩ rfl
  · obtain ⟨body', u', hexec, -, ⟨hsame', -⟩, -⟩ := hends.resolve_left id
    refine ⟨body', u', hexec, hsame', ?_⟩
    refine exec_keeps (I := fun u' => (exceptOne c.ownerId c.id).Same u'.db u.db) (fun op u' hop hI => ?_)
      (attachTo_within svc streamId tSeconds img det c created) hexec (.refl _ _)
    have haside := hop.aside (v := exceptOne c.ownerId c.id) rfl fun _ => .inl (by simp [exceptOne])
    refine (SharedCall.unseen haside.shared haside.touches fun hdraws => ?_).trans hI
    rw [haside.draws] at hdraws
    cases hdraws
  · rintro op s a s₁ u' hop - hanswer ⟨hsame, hthere⟩
    obtain ⟨rfl, rfl⟩ := hanswer.parts
    have hthere' : (answer pf oracle op s).2.db.has c.id = true := hop.shared.has hthere
    have hvisible : ∀ id, op.Touches id → (onlyOne c.ownerId c.id).hidden id = false := fun id hid => by
      rw [hop.touches hid]
      simp [onlyOne]
    have hwrite : ∀ wr : Write K, op = .write wr → wr.Sees c.ownerId ∧ wr.isUpsert = false := by
      rintro wr rfl
      have hshared := hop.shared
      cases hshared with
      | write hwr => exact ⟨hwr, hop.draws⟩
    cases op with
    | write wr =>
        obtain ⟨hwr, hupsert⟩ := hwrite wr rfl
        obtain ⟨houtcome, htables⟩ := @Write.commit_seen K _ pf (oracle.fresh u'.draws)
          (oracle.clock s.calls) (oracle.clock u'.calls) s.db u'.db _ wr hwr hvisible
          (fun hnew => by rw [hupsert] at hnew; cases hnew) hsame
        obtain ⟨hfresh, hfresh'⟩ := @Write.no_draw K _ pf (oracle.fresh s.draws)
          (oracle.clock s.calls) s.db (oracle.fresh u'.draws) wr hupsert
        obtain ⟨hanswers, hdb, -⟩ := @answer_write K _ pf oracle wr s
        obtain ⟨hanswers', hdb', -⟩ := @answer_write K _ pf oracle wr u'
        refine ⟨?_, ?_, hthere'⟩
        · exact hanswers.trans ((hfresh.trans houtcome).trans hanswers'.symm)
        · rw [hdb, hdb', hfresh']
          exact htables
    | query q =>
        cases hop
        exact ⟨getCluster_text u'.db c.id (some c.ownerId.text), hsame, hthere'⟩
    | putCrop ownerId clusterId data => exact ⟨rfl, hsame, hthere'⟩
    | _ => cases hop
  · rintro op s a s₁ u' ⟨hop, htouch⟩ hanswer ⟨hsame, hthere⟩
    obtain ⟨rfl, rfl⟩ := hanswer.parts
    exact ⟨(unseen_onlyOne hop htouch hthere).trans hsame, hop.has hthere⟩
  · intro st hst
    obtain ⟨e, he, heq⟩ := List.mem_map.mp hst
    cases e with
    | inl e =>
        cases heq
        exact ⟨h.made hp st he, hfirst st he⟩
    | inr e => cases heq

/-- Both runs make the same calls. -/
def sameTandem (owner : Uuid) : Tandem (Call K) Call.Answer PyError where
  shared op := SharedCall owner op ∧ op.isRead = false
  own _ := False
  apt _ _ := True
  bad _ := False
  alike _ r r' := r = r'

/-- A run does not notice readings. -/
theorem run_beside_reads {α β : Type} {args : RunArgs} {p : Program K α} {q : Program K β} {res : α}
    {r' : Except PyError β}
    (h : Race (Answered pf oracle) (Answered pf oracle) p q s log (.ok res) r' s')
    (hp : p.Within (LaterCall args) fun _ => True) (howner : castUuid args.ownerId = .ok owner)
    (hsecond : ∀ st, .inr st ∈ log → ∃ q : Query K, st.op = .query q)
    (hst : Alongside (everything owner) s t) :
    ∃ res' t', p.exec (answer pf oracle) t = (.ok res', t') ∧ Alongside (everything owner) s' t' := by
  have htrails : Trails (sameTandem owner) (fun _ => False) Eq p p :=
    .refl (hp.mono fun _ hop => hop.shared howner) fun _ _ _ _ => id
  have hends := h.trails (H := answer pf oracle) (N := fun op => ∃ q : Query K, op = .query q)
    (R := fun s t' => Alongside (everything owner) s t') ?_ (fun _ _ _ _ _ => False.elim) ?_ htrails
    (fun _ _ => id) hsecond hst rfl
  · obtain ⟨res', t', hexec, -, hR, -⟩ := hends.resolve_left id
    exact ⟨res', t', hexec, hR⟩
  · rintro op s a s₁ t' ⟨hop, hread⟩ - hanswer hR
    obtain ⟨rfl, rfl⟩ := hanswer.parts
    exact hR.both rfl hop hread fun _ _ => rfl
  · rintro op s a s₁ t' ⟨q, rfl⟩ hanswer hR
    obtain ⟨rfl, rfl⟩ := hanswer.parts
    exact (Alongside.afterRead _ pf oracle q s).trans hR

/-- A run beside the crop of an attachment goes as one that has found the crop. -/
theorem run_beside_crop {α β : Type} {args : RunArgs} {p p' : Program K α} {q : Program K β} {res : α}
    {r' : Except PyError β} {Q : α → α → Prop} {key : String}
    (h : Race (Answered pf oracle) (Answered pf oracle) p q s log (.ok res) r' s')
    (hp : Trails (cropTandem owner X args.ownerId) (fun _ => False) Q p p')
    (hsecond : ∀ st, .inr st ∈ log → AttachCall owner X st.op ∧ (st.op.Touches X → st.op.setsCrop = true))
    (hst : Alongside (bareOne owner X) s t) (hthere : t.db.has X = true) (hcrop : CropIs X key t.db) :
    ∃ res' t', p'.exec (answer pf oracle) t = (.ok res', t') ∧ Alongside (bareOne owner X) s' t' ∧
      CropIs X key t'.db ∧ ∀ st, .inl st ∈ log → SharedCall owner st.op ∧
        (st.op.setsCrop = true → st.op.Touches X →
          st.op = .write (.setClusterCrop X.text args.ownerId (some (cropKey args.ownerId X.text)))) := by
  have hends := h.trails (H := answer pf oracle)
    (N := fun op => AttachCall owner X op ∧ (op.Touches X → op.setsCrop = true))
    (R := fun s t' => Alongside (bareOne owner X) s t' ∧ CropIs X key t'.db ∧ t'.db.has X = true) ?_ ?_ ?_
    hp (fun _ _ => id) hsecond ⟨hst, hcrop, hthere⟩ rfl
  · obtain ⟨res', t', hexec, -, ⟨hR, hcrop', -⟩, hmade⟩ := hends.resolve_left id
    refine ⟨res', t', hexec, hR, hcrop', fun st hst => ?_⟩
    rcases hmade st hst with ⟨hop, -, huntouched⟩ | ⟨data, hop⟩ | hop
    · exact ⟨hop, fun hsets htouch => absurd htouch (huntouched hsets)⟩
    · rw [hop]
      exact ⟨.putCrop _ _ _, fun hsets => by cases hsets⟩
    · rw [hop]
      exact ⟨.write (.crop _ _ _), fun _ _ => rfl⟩
  · rintro op s a s₁ t' ⟨hop, hread, huntouched⟩ - hanswer ⟨hR, hcrop, hthere⟩
    obtain ⟨rfl, rfl⟩ := hanswer.parts
    obtain ⟨hanswers, hR'⟩ := hR.both rfl hop hread fun _ _ => rfl
    refine ⟨?_, hR', hop.cropIs hcrop hthere fun htouch clusterId ownerId a hwr => ?_, hop.has hthere⟩
    · have hnew : ∀ ownerId a, op = .write (.upsertCluster ownerId none false a) →
          sameAnswer X op (answer pf oracle op s).1 (answer pf oracle op t').1 := by
        rintro ownerId a rfl
        refine ⟨hanswers, ?_⟩
        rw [hanswers, (answer_write _ t').1]
        exact Write.upsert_ne hthere
      cases hop with
      | write hwr =>
          cases hwr with
          | upsert ownerId a => exact hnew ownerId a rfl
          | append howner streamId items => exact hanswers
          | centroid clusterId ownerId a => exact hanswers
          | crop clusterId ownerId a => exact hanswers
      | _ => exact hanswers
    · subst hwr
      exact absurd htouch (huntouched rfl)
  · rintro op s a s₁ t' hop - hanswer ⟨hR, hrest⟩
    obtain ⟨rfl, rfl⟩ := hanswer.parts
    have haside : Aside (bareOne owner X) op ∧ storedUnder op (answer pf oracle op s).1 := by
      rcases hop with ⟨data, rfl⟩ | rfl
      · refine ⟨⟨.putCrop _ _ _, rfl, rfl, fun _ _ _ heq => ?_, fun _ => False.elim⟩, rfl⟩
        cases heq
        exact ⟨X, Uuid.castUuid_text X⟩
      · refine ⟨⟨.write (.crop _ _ _), rfl, rfl, fun _ _ _ heq => (by cases heq), fun id hid => .inr ?_⟩,
          trivial⟩
        have hcast : castUuid X.text = .ok id := hid
        rw [Uuid.castUuid_text] at hcast
        cases hcast
        exact ⟨rfl, decide_eq_true rfl⟩
    exact ⟨haside.2, hR.one haside.1, hrest⟩
  · rintro op s a s₁ t' ⟨hop, hsets⟩ hanswer ⟨hR, hrest⟩
    obtain ⟨rfl, rfl⟩ := hanswer.parts
    exact ⟨hR.one (hop.aside rfl fun htouch => .inr ⟨hsets htouch, decide_eq_true rfl⟩), hrest⟩

end SideBySide

end FacesService.Reader
