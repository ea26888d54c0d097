import FacesService.Reader.AttachWays
import FacesService.Reader.Reattach

/-!
Whether a centroid update is lost when a face is attached while a run of the owner
is going on. The run writes means of what it read at its start, the attachment the
mean of what it read in its first call. Where each has read before the other has
written, one of the two means goes; where the one has written first, the tables
end as if the two had come one after the other, unless the run comes second, spells
its owner in another way, and writes the crop after the attachment has.
-/

namespace FacesService.Reader

open Prog Database Db

variable {K : Type} [Arithmetic K] {svc : Service K} {auth : AuthContext} {oracle : Oracle}

/-! ### Which comes before which -/

def byRun (P : Call K → Prop) : Moment K → Prop
  | .inl st => P st.op
  | .inr _ => False

def byAttach (P : Call K → Prop) : Moment K → Prop
  | .inl _ => False
  | .inr st => P st.op

/-- No entry in `P` comes before one in `Q`. -/
def NeverBefore (P Q : Moment K → Prop) (log : List (Moment K)) : Prop :=
  log.Pairwise fun e e' => P e → ¬ Q e'

/-- When the attachment reads the cluster, the run is done with it. -/
def RunFirst (clusterId : String) (X : Uuid) (log : List (Moment K)) : Prop :=
  NeverBefore (byAttach (· = .query (.getCluster clusterId none))) (byRun (·.Touches X)) log

/-- When the run reads the clusters, the attachment has written the centroid. The
crop it may write yet: the run writes the same, unless it spells the owner in another way. -/
structure AttachedFirst (args : RunArgs) (owner X : Uuid) (log : List (Moment K)) : Prop where
  centroid : NeverBefore (byRun (·.isRead = true))
    (byAttach fun op => ∃ a, op = .write (.updateClusterCentroid X.text owner.text a)) log
  crop : args.ownerId = owner.text ∨
    NeverBefore (byAttach (·.setsCrop = true)) (byRun fun op => op.setsCrop = true ∧ op.Touches X) log

/-- The tables are as they are after the one program and then the other. -/
def EndsAs {α β : Type} (svc : Service K) (oracle : Oracle) (p : Program K α) (q : Program K β)
    (w : World K) (db : Database K) : Prop :=
  ∃ a b t t', p.exec (answer svc.pf oracle) w = (.ok a, t) ∧ q.exec (answer svc.pf oracle) t = (.ok b, t') ∧
    db.SameTables t'.db

section NeverBefore

omit [Arithmetic K]

variable {P Q : Moment K → Prop} {e : Moment K} {log log' : List (Moment K)}

theorem NeverBefore.tail (h : NeverBefore P Q (log ++ log')) : NeverBefore P Q log' :=
  (List.pairwise_append.mp h).2.1

theorem NeverBefore.after (h : NeverBefore P Q (e :: log)) (he : P e) (e' : Moment K) (he' : e' ∈ log) :
    ¬ Q e' :=
  (List.pairwise_cons.mp h).1 e' he' he

/-- Where the run comes as a whole, only what the attachment does later can come after. -/
theorem neverBefore_of_amid (P : Call K → Prop) {Q : Call K → Prop} (begun steps : List (Event K))
    {ended : List (Event K)} (h : ∀ st ∈ ended, ¬ Q st.op) :
    NeverBefore (byRun P) (byAttach Q) (begun.map .inr ++ (steps.map .inl ++ ended.map .inr)) := by
  have hrun : ∀ e ∈ steps.map Sum.inl, ¬ byAttach Q e := by
    intro e he
    obtain ⟨st, -, rfl⟩ := List.mem_map.mp he
    exact id
  have hended : ∀ e ∈ ended.map Sum.inr, ¬ byAttach Q e := by
    intro e he
    obtain ⟨st, hst, rfl⟩ := List.mem_map.mp he
    exact h st hst
  have hattach : ∀ {steps : List (Event K)} {e}, e ∈ steps.map Sum.inr → ¬ byRun P e := by
    intro steps e he
    obtain ⟨st, -, rfl⟩ := List.mem_map.mp he
    exact id
  refine List.pairwise_append.mpr ⟨?_, List.pairwise_append.mpr ⟨?_, ?_, ?_⟩, ?_⟩
  · exact List.pairwise_of_forall_mem_list fun e he _ _ hP => absurd hP (hattach he)
  · exact List.pairwise_of_forall_mem_list fun _ _ e' he' _ => hrun e' he'
  · exact List.pairwise_of_forall_mem_list fun e he _ _ hP => absurd hP (hattach he)
  · exact fun _ _ e' he' _ => hended e' he'
  · exact fun e he _ _ hP => absurd hP (hattach he)

end NeverBefore

/-! ### The attachment after the run -/

section Attachment

variable {streamId bbox clusterId : String} {file : Bytes} {tSeconds : K} {X : Uuid}

omit [Arithmetic K] in
/-- The row of the cluster, as far as it is seen. -/
theorem row_onlyOne {owner : Uuid} {db db' : Database K} (h : (onlyOne owner X).Same db db')
    (hdb : Tallied owner db) (hdb' : Tallied owner db') {c : Cluster K} (hc : db.clusterById X = some c) :
    ∃ c', db'.clusterById X = some c' ∧ c.undated = c'.undated := by
  have hrows := congrArg List.head? (h.undated hdb hdb' fun _ _ _ _ _ hb => by cases hb)
  have hp : (fun c : Cluster K => !(onlyOne owner X).hidden c.id) = fun c => decide (c.id = X) := by
    funext c
    simp [onlyOne]
  rw [List.head?_map, List.head?_map, hp, List.head?_filter, List.head?_filter] at hrows
  change Option.map _ (db.clusterById X) = Option.map _ (db'.clusterById X) at hrows
  rw [hc] at hrows
  obtain ⟨c', hc', hundated⟩ := Option.map_eq_some_iff.mp hrows.symm
  exact ⟨c', hc', hundated.symm⟩

theorem attachTo_undated {img : Image} {det : Detection K} {ownerId : String} {c c' : Cluster K}
    {created : Bool} (h : c.undated = c'.undated) :
    attachTo svc streamId tSeconds img det ownerId c created =
      attachTo svc streamId tSeconds img det ownerId c' created := by
  obtain ⟨id, owner, name, isNamed, centroid, sampleCount, cropObject, createdAt, updatedAt⟩ := c
  obtain ⟨id', owner', name', isNamed', centroid', sampleCount', cropObject', createdAt', updatedAt'⟩ := c'
  simp only [Cluster.undated, Cluster.mk.injEq] at h
  obtain ⟨rfl, rfl, rfl, rfl, rfl, rfl, rfl, -⟩ := h
  rfl

/-- The counts stay right in a race and in a run. -/
theorem race_counted {α β : Type} {p : Program K α} {q : Program K β} {r : Except PyError α}
    {r' : Except PyError β} {owner : Uuid} {s w' : World K} {log : List (Moment K)}
    (h : Race (Answered svc.pf oracle) (Answered svc.pf oracle) p q s log r r' w')
    (hp : p.Within (SharedCall owner) fun _ => True) (hq : q.Within (SharedCall owner) fun _ => True)
    (hs : Tallied owner s.db) : Tallied owner w'.db := by
  have hstep : ∀ (op : Call K) s a s', SharedCall owner op → Answered svc.pf oracle op s a s' →
      Tallied owner s.db → Tallied owner s'.db := by
    rintro op s a s' hop hanswer hI
    obtain ⟨rfl, rfl⟩ := hanswer.parts
    exact hop.counted hI
  exact h.preserves (I := fun s => Tallied owner s.db) hstep hstep hp hq hs

theorem exec_counted {α : Type} {p : Program K α} {r : Except PyError α} {owner : Uuid} {t t' : World K}
    (h : p.exec (answer svc.pf oracle) t = (r, t')) (hp : p.Within (SharedCall owner) fun _ => True)
    (ht : Tallied owner t.db) : Tallied owner t'.db :=
  exec_keeps (I := fun s => Tallied owner s.db) (fun _ _ hop => hop.counted) hp h ht

/-- After the run, the attachment does what it did beside it. -/
theorem attach_after {α : Type} {p : Program K α} {r : Except PyError α} {s t' w' : World K}
    {log : List (Moment K)} {body : AttachBody K} {img : Image} {det : Detection K} {c : Cluster K}
    (hattach : AttachesTo svc auth oracle streamId file bbox tSeconds clusterId X img det c.ownerId)
    (h : Race (Answered svc.pf oracle) (Answered svc.pf oracle) p
      (attachTo svc streamId tSeconds img det c.ownerId.text c false) s log r (.ok body) w')
    (hc : s.db.clusterById X = some c)
    (hp : p.Within (SharedCall c.ownerId) fun _ => True)
    (hfirst : ∀ st, .inl st ∈ log → ¬ st.op.Touches X)
    (hcounted : Tallied c.ownerId s.db) (hcounted' : Tallied c.ownerId t'.db)
    (hone : (onlyOne c.ownerId X).Same s.db t'.db) (hrest : (exceptOne c.ownerId X).Same w'.db t'.db) :
    ∃ body' u', (attachFrameFace svc auth streamId file bbox tSeconds (some clusterId)).exec
        (answer svc.pf oracle) t' = (.ok body', u') ∧ w'.db.SameTables u'.db := by
  obtain ⟨hmem, rfl⟩ := mem_of_clusterById hc
  obtain ⟨c', hc', hundated⟩ := row_onlyOne hone hcounted hcounted' hc
  have howner : c'.ownerId = c.ownerId := (congrArg Cluster.ownerId hundated).symm
  have hexec := hattach.exec t' c' hc' howner
  rw [← attachTo_undated hundated] at hexec
  have hthere : s.db.has c.id = true := has_iff.mpr (List.mem_map_of_mem hmem)
  obtain ⟨body', u', hends, hone', hrest'⟩ := attach_alone
    (u := (answer svc.pf oracle (.query (.getCluster clusterId none)) t').2) h hp hfirst hone hthere
  refine ⟨body', u', hexec.trans hends, ?_⟩
  have hattached : (attachTo svc streamId tSeconds img det c.ownerId.text c false).Within
      (SharedCall c.ownerId) fun _ => True :=
    (attachTo_within svc streamId tSeconds img det c false).mono fun _ hop => hop.shared
  have hend : Tallied c.ownerId w'.db := race_counted h hp hattached hcounted
  have hend' : Tallied c.ownerId u'.db := exec_counted hends hattached hcounted'
  exact Window.Same.tables (v := exceptOne c.ownerId c.id) (hrest.trans hrest'.symm) hone' rfl
    (fun id => by simp [onlyOne, exceptOne]) (fun _ => rfl) hend hend' fun _ _ _ _ _ hb => by cases hb

/-! ### The last crop -/

omit [Arithmetic K] in
/-- The call sets another crop of the cluster. -/
def OtherCrop (X : Uuid) (key : String) (op : Call K) : Prop :=
  op.Touches X ∧ ∃ clusterId ownerId a, op = .write (.setClusterCrop clusterId ownerId a) ∧ a ≠ some key

section Settles

variable {pf : Platform K} {c : Cluster K} {created : Bool} {written : ℕ} {s s' : World K}
  {log : List (Moment K)} {q : Program K (AttachBody K)} {body : AttachBody K} {α : Type}
  {p : Program K α} {r : Except PyError α} {key : String}

/-- If nobody sets another crop after the attachment, its crop stays. -/
theorem setStored_settles
    (h : Race (Answered pf oracle) (Answered pf oracle) p (setStored c created tSeconds written key) s log r
      (.ok body) s') (hp : p.Within (SharedCall c.ownerId) fun _ => True)
    (howner : HasOwner c.id c.ownerId s.db)
    (hafter : NeverBefore (byAttach (·.setsCrop = true)) (byRun (OtherCrop c.id key)) log) :
    CropIs c.id key s'.db := by
  obtain ⟨p₁, s₁, _, s₂, before, rest, hgoes, hanswer, rfl, hrest⟩ := h.until_performed
  obtain ⟨-, rfl⟩ := hanswer.parts
  have howner₁ : HasOwner c.id c.ownerId s₁.db := hgoes.keeps (H := answer pf oracle)
    (I := fun s => HasOwner c.id c.ownerId s.db) (fun _ _ _ _ h => h) (fun _ _ hop => hop.hasOwner) hp howner
  have hcall : SharedCall c.ownerId (.write (.setClusterCrop c.id.text c.ownerId.text (some key)) : Call K) :=
    .write (.crop _ _ _)
  have hset : CropIs c.id key (answer pf oracle (.write (.setClusterCrop c.id.text c.ownerId.text (some key)))
      s₁).2.db := by
    rw [(answer_write _ s₁).2.1]
    exact (CropIs.set howner₁ key).2
  have hmade := hrest.made (hgoes.within hp)
  have hread : (readBack c created tSeconds written).Within (fun op => ∃ q : Query K, op = .query q)
      fun _ => True :=
    within_bind (within_perform ⟨_, rfl⟩) fun _ => within_pure _
  refine (hrest.keeps (I := fun s => CropIs c.id key s.db ∧ s.db.has c.id = true)
    (P := fun op => SharedCall c.ownerId op ∧ ¬ OtherCrop c.id key op)
    (N := fun op => ∃ q : Query K, op = .query q) ?_ ?_ ?_ (hrest.made_second hread)
    ⟨hset, hcall.has howner₁.there⟩).1
  · rintro op s a s' ⟨hop, hnot⟩ hanswer ⟨hI, hthere⟩
    obtain ⟨rfl, rfl⟩ := hanswer.parts
    refine ⟨hop.cropIs hI hthere fun htouch clusterId ownerId a hwr => ?_, hop.has hthere⟩
    by_contra hne
    exact hnot ⟨htouch, clusterId, ownerId, a, hwr, hne⟩
  · rintro op s a s' ⟨q, rfl⟩ hanswer hI
    obtain ⟨rfl, rfl⟩ := hanswer.parts
    exact hI
  · intro st hst
    exact ⟨hmade st hst, hafter.tail.after rfl (.inl st) hst⟩

theorem CropPending.settles (hq : CropPending c created tSeconds written q)
    (h : Race (Answered pf oracle) (Answered pf oracle) p q s log r (.ok body) s')
    (hp : p.Within (SharedCall c.ownerId) fun _ => True) (howner : HasOwner c.id c.ownerId s.db)
    (hafter : NeverBefore (byAttach (·.setsCrop = true))
      (byRun (OtherCrop c.id (cropKey c.ownerId.text c.id.text))) log) :
    CropIs c.id (cropKey c.ownerId.text c.id.text) s'.db := by
  cases hq with
  | set => exact setStored_settles h hp howner hafter
  | store jpeg =>
      obtain ⟨p₁, s₁, key, s₂, before, rest, hgoes, hanswer, rfl, hrest⟩ := h.until_performed
      obtain ⟨hkey, rfl⟩ := hanswer.parts
      cases hkey
      have howner₁ : HasOwner c.id c.ownerId s₁.db := hgoes.keeps (H := answer pf oracle)
        (I := fun s => HasOwner c.id c.ownerId s.db) (fun _ _ _ _ h => h) (fun _ _ hop => hop.hasOwner) hp howner
      exact setStored_settles hrest (hgoes.within hp) howner₁
        (List.pairwise_cons.mp hafter.tail).2

end Settles

/-! ### The run after the attachment -/

section After

variable {args : RunArgs} {c : Cluster K} {created : Bool} {written : ℕ} {s w' : World K}
  {log : List (Moment K)} {q : Program K (AttachBody K)} {rows : List (Cluster K)} {res : RunResult}
  {body : AttachBody K} {owner : Uuid}

theorem shared_within (howner : castUuid args.ownerId = .ok owner) (rows : List (Cluster K)) :
    (fromClusters svc args rows).Within (SharedCall owner) fun _ => True :=
  (fromClusters_within svc args rows).mono fun _ hop => (hop.shared howner).1

theorem exec_run_of {rows : List (Cluster K)} {t : World K}
    (h : getClustersForOwner t.db args.ownerId = .ok rows) :
    (run svc args).exec (answer svc.pf oracle) t = (fromClusters svc args rows).exec (answer svc.pf oracle)
      (answer svc.pf oracle (.query (.getClustersForOwner args.ownerId)) t).2 := by
  have hread : (query (K := K) (.getClustersForOwner args.ownerId)).exec (answer svc.pf oracle) t =
      (.ok rows, (answer svc.pf oracle (.query (.getClustersForOwner args.ownerId)) t).2) := by
    rw [exec_perform]
    exact Prod.ext h rfl
  rw [run_eq, exec_bind_ok hread]

/-- Beside the end of an attachment with nothing to write. -/
theorem run_after_nothing (howner : castUuid args.ownerId = .ok owner)
    (hq : NothingPending c created tSeconds written q)
    (h : Race (Answered svc.pf oracle) (Answered svc.pf oracle) (fromClusters svc args rows) q
      (answer svc.pf oracle (.query (.getClustersForOwner args.ownerId)) s).2 log (.ok res) (.ok body) w')
    (hrows : getClustersForOwner s.db args.ownerId = .ok rows) (hcounted : Tallied owner s.db) :
    ∃ body' t res' t', q.exec (answer svc.pf oracle) s = (.ok body', t) ∧
      (run svc args).exec (answer svc.pf oracle) t = (.ok res', t') ∧ w'.db.SameTables t'.db := by
  obtain ⟨body', t, hend, htables, hsame⟩ := hq.exec svc.pf oracle s
  rw [← htables] at hrows
  obtain ⟨res', t', hexec, hsame'⟩ := run_beside_reads h (fromClusters_within svc args rows) howner
    (h.made_second hq.within) ((hsame _).reads svc.pf oracle (.getClustersForOwner args.ownerId))
  refine ⟨body', t, res', t', hend, (exec_run_of hrows).trans hexec, ?_⟩
  have hread : q.Within (SharedCall owner) fun _ => True := hq.within.mono fun op ⟨q, hop⟩ => hop ▸ .read q
  have hcounted' : Tallied owner w'.db := race_counted h (shared_within howner rows) hread hcounted
  have hcounted₀ : Tallied owner (answer svc.pf oracle (.query (.getClustersForOwner args.ownerId)) t).2.db :=
    htables.symm ▸ hcounted
  have hcounted'' : Tallied owner t'.db := exec_counted hexec (shared_within howner rows) hcounted₀
  have hnone : (⟨owner, fun _ => true, fun _ => false, false⟩ : Window).Same w'.db t'.db :=
    ⟨by simp [Window.clusters], by simp [Window.rows]⟩
  exact hsame'.tables.tables hnone rfl (fun _ => rfl) (fun _ => rfl) hcounted' hcounted''
    fun _ _ _ _ _ hb => by cases hb

/-- Beside the end of an attachment with a crop pending. -/
theorem run_after_crop (howner : castUuid args.ownerId = .ok c.ownerId)
    (hq : CropPending c created tSeconds written q)
    (h : Race (Answered svc.pf oracle) (Answered svc.pf oracle) (fromClusters svc args rows) q
      (answer svc.pf oracle (.query (.getClustersForOwner args.ownerId)) s).2 log (.ok res) (.ok body) w')
    (hrows : getClustersForOwner s.db args.ownerId = .ok rows) (hcounted : Tallied c.ownerId s.db)
    (hhas : HasOwner c.id c.ownerId s.db)
    (hcrop : args.ownerId = c.ownerId.text ∨ NeverBefore (byAttach (·.setsCrop = true))
      (byRun fun op => op.setsCrop = true ∧ op.Touches c.id) log) :
    ∃ body' t res' t', q.exec (answer svc.pf oracle) s = (.ok body', t) ∧
      (run svc args).exec (answer svc.pf oracle) t = (.ok res', t') ∧ w'.db.SameTables t'.db := by
  obtain ⟨body', t, hend, hsame, hset⟩ := hq.exec svc.pf oracle hhas
  have hattach : q.Within (SharedCall c.ownerId) fun _ => True := hq.within.mono fun _ hop => hop.1.shared
  -- the run from there reads the same rows, but for the crop
  have hcounted₁ : Tallied c.ownerId t.db := exec_counted hend hattach hcounted
  have hhas₁ : HasOwner c.id c.ownerId t.db :=
    exec_keeps (I := fun s => HasOwner c.id c.ownerId s.db) (fun _ _ hop => hop.hasOwner) hattach hend hhas
  obtain ⟨rows', hrows'⟩ : ∃ rows', getClustersForOwner t.db args.ownerId = .ok rows' := by
    rw [getClustersForOwner, howner]
    exact ⟨_, rfl⟩
  have hcropped := cropped_of howner rfl
    (hsame ⟨c.ownerId, fun _ => false, fun id => id = c.id, true⟩ rfl (decide_eq_true rfl)).tables hcounted
    hcounted₁ hhas₁ hset hrows hrows'
  have hreads := (hsame (bareOne c.ownerId c.id) rfl (decide_eq_true rfl)).reads svc.pf oracle
    (.getClustersForOwner args.ownerId)
  obtain ⟨res', t', hexec, hsame', hset', hmade⟩ := run_beside_crop h
    (fromClusters_cropped svc howner hcropped) (h.made_second hq.within) hreads hhas₁.there hset
  refine ⟨body', t, res', t', hend, (exec_run_of hrows').trans hexec, ?_⟩
  -- and in the race the crop is set in the end
  have hnot : NeverBefore (byAttach (·.setsCrop = true))
      (byRun (OtherCrop c.id (cropKey c.ownerId.text c.id.text))) log := by
    rcases hcrop with hspelled | hnever
    · refine List.pairwise_of_forall_mem_list fun e _ e' he' _ hother => ?_
      cases e' with
      | inr st => exact hother
      | inl st =>
          obtain ⟨htouch, clusterId, ownerId, a, hop, hne⟩ := hother
          have hset := (hmade st he').2 (by rw [hop]; rfl) htouch
          rw [hop, hspelled] at hset
          cases hset
          exact hne rfl
    · refine hnever.imp fun hstep hset hother => hstep hset ?_
      rename_i e'
      cases e' with
      | inr st => exact hother
      | inl st =>
          obtain ⟨htouch, clusterId, ownerId, a, hop, -⟩ := hother
          exact ⟨by rw [hop]; rfl, htouch⟩
  have hshared : (fromClusters svc args rows).Within (SharedCall c.ownerId) fun _ => True :=
    shared_within howner rows
  have hsettles := hq.settles h hshared hhas hnot
  have hcounted' : Tallied c.ownerId w'.db := race_counted h hshared hattach hcounted
  have hcounted'' : Tallied c.ownerId t'.db := exec_counted hexec (shared_within howner rows') hcounted₁
  have hnone : (⟨c.ownerId, fun _ => true, fun _ => false, false⟩ : Window).Same w'.db t'.db :=
    ⟨by simp [Window.clusters], by simp [Window.rows]⟩
  refine hsame'.tables.tables hnone rfl (fun _ => rfl) (fun _ => rfl) hcounted' hcounted''
    fun d hd d' hd' hid hb => ?_
  have hd'id : d.id = c.id := of_decide_eq_true hb
  rw [hsettles d hd hd'id, hset' d' hd' (hid ▸ hd'id)]

end After

/-! ### The run before the attachment -/

section Before

variable {args : RunArgs} {c : Cluster K} {w w' s : World K} {log : List (Moment K)}
  {rows : List (Cluster K)} {res : RunResult} {body : AttachBody K} {img : Image} {det : Detection K}

theorem run_within_shared {owner : Uuid} (howner : castUuid args.ownerId = .ok owner) :
    (run svc args).Within (SharedCall owner) fun _ => True := by
  rw [run_eq]
  exact within_bind (within_perform (.read _)) (shared_within howner)

/-- A run that has read the clusters before the attachment reads the one. -/
theorem run_before_read (howner : castUuid args.ownerId = .ok c.ownerId) {before : List (Event K)}
    {p₁ : Program K RunResult} (hgoes : Goes (Answered svc.pf oracle) (run svc args) w before p₁ s)
    (hbefore : before ≠ [])
    (h : Race (Answered svc.pf oracle) (Answered svc.pf oracle) p₁
      (attachTo svc streamId tSeconds img det c.ownerId.text c false)
      (answer svc.pf oracle (.query (.getCluster clusterId none)) s).2 log (.ok res) (.ok body) w')
    (hfirst : ∀ st, .inl st ∈ log → ¬ st.op.Touches c.id) (hthere : s.db.has c.id = true) :
    ∃ res' t', (run svc args).exec (answer svc.pf oracle) w = (.ok res', t') ∧
      (exceptOne c.ownerId c.id).Same w'.db t'.db ∧ (onlyOne c.ownerId c.id).Same s.db t'.db := by
  have hexec := hgoes.exec (H := answer svc.pf oracle) fun _ _ _ _ h => h
  rw [run_eq] at hgoes
  rcases hgoes.performed with ⟨hnil, -, -⟩ | ⟨rows, s₁, rest, -, -, hrest⟩ | ⟨e, rfl⟩
  · exact absurd hnil hbefore
  · have htrails : Trails (countTandem c.ownerId c.id) (fun _ => False) Eq p₁ p₁ :=
      .refl ((hrest.within (fromClusters_within svc args rows)).mono fun _ hop => hop.shared howner)
        fun _ _ _ _ => id
    have hstart := Alongside.afterRead (exceptOne c.ownerId c.id) svc.pf oracle (.getCluster clusterId none) s
    obtain ⟨res', t', hrun, hsame, hone⟩ := run_alone h htrails hfirst
      (h.made_second (attachTo_within svc streamId tSeconds img det c false)) hstart hthere
    exact ⟨res', t', hexec.trans hrun, hsame.tables, hone.symm⟩
  · cases h.swap.raised

/-- A run that reads the clusters while the attachment has not written the centroid. -/
theorem run_before_centroid (howner : castUuid args.ownerId = .ok c.ownerId)
    {before : List (Event K)} {q : Program K (AttachBody K)} {rows : List (Cluster K)}
    (hgoes : Goes (Answered svc.pf oracle) (attachTo svc streamId tSeconds img det c.ownerId.text c false)
      (answer svc.pf oracle (.query (.getCluster clusterId none)) w).2 before q s)
    (hclusters : ∀ v : Window, v.owner = c.ownerId → v.clusters s.db = v.clusters w.db)
    (hrows : getClustersForOwner s.db args.ownerId = .ok rows)
    (h : Race (Answered svc.pf oracle) (Answered svc.pf oracle) (fromClusters svc args rows) q
      (answer svc.pf oracle (.query (.getClustersForOwner args.ownerId)) s).2 log (.ok res) (.ok body) w')
    (hfirst : ∀ st, .inl st ∈ log → ¬ st.op.Touches c.id) (hthere : w.db.has c.id = true)
    (hcounted : Tallied c.ownerId w.db) :
    ∃ res' t', (run svc args).exec (answer svc.pf oracle) w = (.ok res', t') ∧
      (exceptOne c.ownerId c.id).Same w'.db t'.db ∧ (onlyOne c.ownerId c.id).Same w.db t'.db := by
  have hattach := attachTo_within svc streamId tSeconds img det c false
  obtain ⟨hsame, hcounted'⟩ := hgoes.keeps (H := answer svc.pf oracle)
    (I := fun s => Alongside (exceptOne c.ownerId c.id) s w ∧ Tallied c.ownerId s.db) (fun _ _ _ _ h => h)
    (fun _ _ hop hI => ⟨hI.1.one (hop.aside rfl fun _ => .inl (by simp [exceptOne])),
      hop.shared.counted hI.2⟩)
    hattach ⟨.afterRead _ svc.pf oracle _ w, hcounted⟩
  obtain ⟨rows₀, hrows₀⟩ : ∃ rows₀, getClustersForOwner w.db args.ownerId = .ok rows₀ := by
    rw [getClustersForOwner, howner]
    exact ⟨_, rfl⟩
  have hrecounted := recounted_of (X := c.id) howner rfl (hclusters _ rfl) hcounted' hcounted
    (fun id hid => hsame.tables.countFor (by simp [exceptOne, hid])) hrows hrows₀
  obtain ⟨res', t', hrun, hsame', hone⟩ := run_alone h
    (fromClusters_recounted svc howner hrecounted) hfirst
    (h.made_second (hgoes.within hattach))
    (hsame.reads svc.pf oracle (.getClustersForOwner args.ownerId)) hthere
  exact ⟨res', t', (exec_run_of hrows₀).trans hrun, hsame'.tables, hone.symm⟩

end Before

/-! ### The race -/

section Race

variable {args : RunArgs} {owner : Uuid} {w w' : World K} {log : List (Moment K)} {res : RunResult}
  {body : AttachBody K}

omit [Arithmetic K] in
theorem counted_of_store {db : Database K} (h : StoreInvariant db) (owner : Uuid) : Tallied owner db where
  counts c hc _ := h.counts c hc id
  linked r hr := by
    obtain ⟨c, hc, hid, -⟩ := h.owned r hr
    exact has_iff.mpr (List.mem_map.mpr ⟨c, hc, hid⟩)

omit [Arithmetic K] in
theorem hasOwner_of_store {db : Database K} (h : StoreInvariant db)
    (hrow : ∃ c ∈ db.clusters, c.id = X ∧ c.ownerId = owner) : HasOwner X owner db := by
  obtain ⟨c, hc, hid, howner⟩ := hrow
  refine ⟨has_iff.mpr (List.mem_map.mpr ⟨c, hc, hid⟩), fun c' hc' hid' => ?_⟩
  rw [← howner, List.inj_on_of_nodup_map h.ids hc' hc (hid'.trans hid.symm)]

/-- Where the run ends as alone but for the cluster, and has left the cluster alone,
the two end as the run and then the attachment. -/
theorem ends_run_first {p : Program K RunResult} {img : Image} {det : Detection K} {c : Cluster K}
    {s : World K} (howner : castUuid args.ownerId = .ok c.ownerId)
    (hattach : AttachesTo svc auth oracle streamId file bbox tSeconds clusterId c.id img det c.ownerId)
    (h : Race (Answered svc.pf oracle) (Answered svc.pf oracle) p
      (attachTo svc streamId tSeconds img det c.ownerId.text c false) s log (.ok res) (.ok body) w')
    (hc : s.db.clusterById c.id = some c)
    (hp : p.Within (SharedCall c.ownerId) fun _ => True)
    (hfirst : ∀ st, .inl st ∈ log → ¬ st.op.Touches c.id)
    (hcounted : Tallied c.ownerId w.db) (hcounted' : Tallied c.ownerId s.db)
    (hrun : ∃ res' t', (run svc args).exec (answer svc.pf oracle) w = (.ok res', t') ∧
      (exceptOne c.ownerId c.id).Same w'.db t'.db ∧ (onlyOne c.ownerId c.id).Same s.db t'.db) :
    EndsAs svc oracle (run svc args)
      (attachFrameFace svc auth streamId file bbox tSeconds (some clusterId)) w w'.db := by
  obtain ⟨res', t', hexec, hrest, hone⟩ := hrun
  obtain ⟨body', u', hends, htables⟩ := attach_after hattach h hc hp hfirst hcounted'
    (exec_counted hexec (run_within_shared howner) hcounted) hone hrest
  exact ⟨res', body', t', u', hexec, hends, htables⟩

/-- Where the run reads the clusters after the centroid is written, the two end as
the attachment and then the run. -/
theorem ends_attach_first {img : Image} {det : Detection K} {c : Cluster K} {before : List (Event K)}
    {q : Program K (AttachBody K)} {s : World K} {rows : List (Cluster K)} {written : ℕ}
    (howner : castUuid args.ownerId = .ok c.ownerId)
    (hattach : AttachesTo svc auth oracle streamId file bbox tSeconds clusterId c.id img det c.ownerId)
    (hc : w.db.clusterById c.id = some c)
    (hgoes : Goes (Answered svc.pf oracle) (attachTo svc streamId tSeconds img det c.ownerId.text c false)
      (answer svc.pf oracle (.query (.getCluster clusterId none)) w).2 before q s)
    (hpending : NothingPending c false tSeconds written q ∨ CropPending c false tSeconds written q)
    (hrows : getClustersForOwner s.db args.ownerId = .ok rows)
    (h : Race (Answered svc.pf oracle) (Answered svc.pf oracle) (fromClusters svc args rows) q
      (answer svc.pf oracle (.query (.getClustersForOwner args.ownerId)) s).2 log (.ok res) (.ok body) w')
    (hcounted : Tallied c.ownerId w.db) (hhas : HasOwner c.id c.ownerId w.db)
    (hcrop : args.ownerId = c.ownerId.text ∨ NeverBefore (byAttach (·.setsCrop = true))
      (byRun fun op => op.setsCrop = true ∧ op.Touches c.id) log) :
    EndsAs svc oracle (attachFrameFace svc auth streamId file bbox tSeconds (some clusterId))
      (run svc args) w w'.db := by
  have hexec := hattach.exec w c hc rfl
  rw [hgoes.exec fun _ _ _ _ h => h] at hexec
  obtain ⟨hhas', hcounted'⟩ := hgoes.keeps (H := answer svc.pf oracle)
    (I := fun s => HasOwner c.id c.ownerId s.db ∧ Tallied c.ownerId s.db) (fun _ _ _ _ h => h)
    (fun _ _ hop hI => ⟨hop.shared.hasOwner hI.1, hop.shared.counted hI.2⟩)
    (attachTo_within svc streamId tSeconds img det c false) ⟨hhas, hcounted⟩
  have hends : ∃ body' t res' t', q.exec (answer svc.pf oracle) s = (.ok body', t) ∧
      (run svc args).exec (answer svc.pf oracle) t = (.ok res', t') ∧ w'.db.SameTables t'.db :=
    hpending.elim (fun hnothing => run_after_nothing howner hnothing h hrows hcounted')
      fun hstored => run_after_crop howner hstored h hrows hcounted' hhas' hcrop
  obtain ⟨body', t, res', t', hq, hrun, htables⟩ := hends
  exact ⟨body', res', t, t', hexec.trans hq, hrun, htables⟩

/-- **No update is lost** where the one has written before the other reads: the
tables then end as after the one and then the other. -/
theorem attached_beside_run (hstore : StoreInvariant w.db) (howner : castUuid args.ownerId = .ok owner)
    (hX : castUuid clusterId = .ok X) (hrow : ∃ c ∈ w.db.clusters, c.id = X ∧ c.ownerId = owner)
    (h : Race (Answered svc.pf oracle) (Answered svc.pf oracle) (run svc args)
      (attachFrameFace svc auth streamId file bbox tSeconds (some clusterId)) w log (.ok res) (.ok body) w')
    (hwhen : RunFirst clusterId X log ∨ AttachedFirst args owner X log) :
    EndsAs svc oracle (run svc args)
        (attachFrameFace svc auth streamId file bbox tSeconds (some clusterId)) w w'.db ∨
      EndsAs svc oracle (attachFrameFace svc auth streamId file bbox tSeconds (some clusterId))
        (run svc args) w w'.db := by
  have hcounted := counted_of_store hstore owner
  have hhas := hasOwner_of_store hstore hrow
  have hshared : (run svc args).Within (SharedCall owner) fun _ => True := run_within_shared howner
  obtain ⟨before, p₁, s₁, c, img, det, rest, hgoes, hc, hlog, hrace, hattach⟩ := attach_at_read hX h
  obtain ⟨hhas₁, hcounted₁⟩ := hgoes.keeps (H := answer svc.pf oracle)
    (I := fun s => HasOwner X owner s.db ∧ Tallied owner s.db) (fun _ _ _ _ h => h)
    (fun _ _ hop hI => ⟨hop.hasOwner hI.1, hop.counted hI.2⟩) hshared ⟨hhas, hcounted⟩
  obtain ⟨hmem, rfl⟩ := mem_of_clusterById hc
  obtain rfl : c.ownerId = owner := hhas₁.owner c hmem rfl
  obtain ⟨centroid, a, hcentroid, hwrites⟩ := attachTo_writes hrace
  have huntouched : RunFirst clusterId c.id log → ∀ st, .inl st ∈ rest → ¬ st.op.Touches c.id := by
    intro hrun st hst
    rw [hlog] at hrun
    exact hrun.tail.after rfl (.inl st) hst
  by_cases hbefore : before = []
  · subst hbefore
    cases hgoes
    have hread := hrace
    rw [run_eq] at hread
    obtain ⟨q, s, rows, s', before, rest', hgoes, hanswer, hrest, hlater⟩ := hread.until_first
    obtain ⟨hrows, rfl⟩ := hanswer.parts
    have hraised : ∀ e, q ≠ .raise e := by
      rintro e rfl
      cases hlater.raised
    have htail : ∀ {st}, .inl st ∈ rest' → Sum.inl st ∈ rest := fun hst => by
      rw [hrest]
      exact List.mem_append_right _ (List.mem_cons_of_mem _ hst)
    rcases goes_attachTo hgoes hraised with ⟨hunwritten, hclusters⟩ | ⟨written, hpending⟩
    · -- the run reads the clusters before the centroid is written
      have hlate : Sum.inr centroid ∈ rest' := by
        rw [hrest] at hcentroid
        rcases List.mem_append.mp hcentroid with hst | hst
        · obtain ⟨st, hst, heq⟩ := List.mem_map.mp hst
          cases heq
          exact absurd hwrites (hunwritten centroid hst a)
        · exact (List.mem_cons.mp hst).resolve_left fun h => by cases h
      have hrun : RunFirst clusterId c.id log := hwhen.resolve_right fun hattached => by
        have hnever := hattached.centroid
        rw [hlog, hrest] at hnever
        have hnever' : NeverBefore _ _ (before.map .inr ++ _) := (List.pairwise_cons.mp hnever).2
        exact hnever'.tail.after rfl (.inr centroid) hlate ⟨a, hwrites⟩
      exact .inl (ends_run_first howner hattach hrace hc hshared (huntouched hrun) hcounted hcounted₁
        (run_before_centroid howner hgoes hclusters hrows.symm hlater
          (fun st hst => huntouched hrun st (htail hst)) hhas₁.there hcounted₁))
    · -- the run reads the clusters after the centroid is written
      refine .inr (ends_attach_first howner hattach hc hgoes hpending hrows.symm hlater hcounted hhas ?_)
      rcases hwhen with hrun | hattached
      · refine .inr (List.pairwise_of_forall_mem_list fun e _ e' he' _ hsets => ?_)
        cases e' with
        | inr st => exact hsets
        | inl st => exact huntouched hrun st (htail he') hsets.2
      · refine hattached.crop.imp_right fun hnever => ?_
        rw [hlog, hrest] at hnever
        have hnever' : NeverBefore _ _ (before.map .inr ++ _) := (List.pairwise_cons.mp hnever).2
        exact (List.pairwise_cons.mp hnever'.tail).2
  · -- the run has read the clusters before the attachment starts
    have hrun : RunFirst clusterId c.id log := hwhen.resolve_right fun hattached => by
      have hread := hgoes
      rw [run_eq] at hread
      rcases hread.performed with ⟨hnil, -, -⟩ | ⟨rows, s, steps, -, rfl, -⟩ | ⟨e, rfl⟩
      · exact hbefore hnil
      · have hnever := hattached.centroid
        rw [hlog] at hnever
        refine NeverBefore.after hnever rfl (.inr centroid) ?_ ⟨a, hwrites⟩
        exact List.mem_append_right _ (List.mem_cons_of_mem _ hcentroid)
      · cases hrace.swap.raised
    have halone := run_before_read howner hgoes hbefore hrace (huntouched hrun) hhas₁.there
    exact .inl (ends_run_first howner hattach hrace hc (hgoes.within hshared) (huntouched hrun) hcounted hcounted₁ halone)

end Race

end Attachment

/-! ### Two races -/

theorem EndsAs.centroids {α β : Type} {p : Program K α} {q : Program K β} {w : World K} {db : Database K}
    (h : EndsAs svc oracle p q w db) : (db.clusters.map (·.centroid)).Perm
      ((q.exec (answer svc.pf oracle) (p.exec (answer svc.pf oracle) w).2).2.db.clusters.map (·.centroid)) := by
  obtain ⟨a, b, t, t', hp, hq, htables⟩ := h
  have hcentroids := htables.clusters.map (·.centroid)
  rw [List.map_map, List.map_map] at hcentroids
  rw [hp, hq]
  exact hcentroids

/-- Two faces of one direction, one on each frame. -/
def twoFaceService : Service ℚ :=
  { oneFaceService with vision := (sceneService [[(0, 2)], [(0, 3)]]).vision }

/-- A run over the first frame, for another stream than the one seen before. -/
def firstFrame : Program ℚ RunResult :=
  run twoFaceService { sceneArgs with streamId := (Uuid.fill 4).text, count := 1 }

/-- The viewer attaches the face of the second frame. -/
def attachSecond : Program ℚ (AttachBody ℚ) :=
  attachFrameFace twoFaceService viewer (Uuid.fill 4).text [1] "10,10,50,50" 6
    (some (Uuid.fill 3).text)

theorem parseBox_twoFace : parseBox twoFaceService "10,10,50,50" = .ok (10, 10, 50, 50) :=
  parseBox_oneFace

/-- The run as a whole, when the attachment has written the centroid, and not yet the crop. -/
def runAmid : Except PyError RunResult × Except PyError (AttachBody ℚ) × World ℚ :=
  let h := answer twoFaceService.pf (sceneOracle 9)
  let begun := Prog.after h 3 attachSecond seenWorld
  let ran := firstFrame.exec h begun.2
  let ended := begun.1.exec h ran.2
  (ran.1, ended.1, ended.2)

/-- The attachment as a whole, when the run has read the clusters. -/
def attachedAmid : Except PyError RunResult × Except PyError (AttachBody ℚ) × World ℚ :=
  let h := answer twoFaceService.pf (sceneOracle 9)
  let begun := Prog.after h 1 firstFrame seenWorld
  let attached := attachSecond.exec h begun.2
  let ended := begun.1.exec h attached.2
  (ended.1, attached.1, ended.2)

theorem completes_of {x : Except PyError RunResult × Except PyError (AttachBody ℚ) × World ℚ}
    (h : x.1.toOption.isSome = true ∧ x.2.1.toOption.isSome = true) :
    ∃ res body w', x = (.ok res, .ok body, w') := by
  obtain ⟨hres, hbody⟩ := h
  rcases x with ⟨_ | res, _ | body, w'⟩
  · cases hres
  · cases hres
  · cases hbody
  · exact ⟨res, body, w', rfl⟩

/-- The calls of the two overlap, and both count. -/
theorem attached_beside_run_amid : ∃ res body w', runAmid = (.ok res, .ok body, w') ∧
    (EndsAs twoFaceService (sceneOracle 9) firstFrame attachSecond seenWorld w'.db ∨
      EndsAs twoFaceService (sceneOracle 9) attachSecond firstFrame seenWorld w'.db) := by
  obtain ⟨res, body, w', hends⟩ := @completes_of runAmid (by
    simp only [runAmid, attachSecond, attachFrameFace, parseBox_twoFace]
    decide +kernel)
  refine ⟨res, body, w', hends, ?_⟩
  have hrace := @Race.amid _ _ _ _ _ _ _ _ _
    (Answered twoFaceService.pf (sceneOracle 9)) (Answered twoFaceService.pf (sceneOracle 9))
    (answer twoFaceService.pf (sceneOracle 9)) (answer twoFaceService.pf (sceneOracle 9))
    (fun _ _ => rfl) (fun _ _ => rfl) 3 firstFrame attachSecond seenWorld
  change Race _ _ _ _ _ _ runAmid.1 runAmid.2.1 runAmid.2.2 at hrace
  rw [hends] at hrace
  -- the crop and a reading are left to the attachment
  have hlast : ∀ st ∈ (Prog.after (answer twoFaceService.pf (sceneOracle 9)) 3 attachSecond seenWorld).1.steps
      (answer twoFaceService.pf (sceneOracle 9)) (firstFrame.exec (answer twoFaceService.pf (sceneOracle 9))
        (Prog.after (answer twoFaceService.pf (sceneOracle 9)) 3 attachSecond seenWorld).2).2,
      ¬ ∃ a, st.op = .write (.updateClusterCentroid (Uuid.fill 3).text (Uuid.fill 1).text a) := by
    have hops : ((Prog.after (answer twoFaceService.pf (sceneOracle 9)) 3 attachSecond seenWorld).1.steps
        (answer twoFaceService.pf (sceneOracle 9)) (firstFrame.exec (answer twoFaceService.pf (sceneOracle 9))
          (Prog.after (answer twoFaceService.pf (sceneOracle 9)) 3 attachSecond seenWorld).2).2).all
        (fun st => !st.op.setsCentroid) = true := by
      simp only [attachSecond, attachFrameFace, parseBox_twoFace]
      decide +kernel
    rintro st hst ⟨a, hwrite⟩
    have hop := List.all_eq_true.mp hops st hst
    rw [hwrite] at hop
    cases hop
  exact attached_beside_run (Reachable.invariant seenWorld_reached.reached) (Uuid.castUuid_text (Uuid.fill 1))
    (Uuid.castUuid_text (Uuid.fill 3)) (by decide +kernel) hrace
    (.inr ⟨neverBefore_of_amid _ _ _ hlast, .inl rfl⟩)

/-- The attachment comes between the reading of the clusters and the rest of the run:
the mean of three embeddings becomes a mean of two. -/
theorem attached_sample_lost :
    ¬ ∀ log res body w', Race (Answered twoFaceService.pf (sceneOracle 9))
      (Answered twoFaceService.pf (sceneOracle 9)) firstFrame attachSecond seenWorld log (.ok res) (.ok body) w' →
      EndsAs twoFaceService (sceneOracle 9) firstFrame attachSecond seenWorld w'.db ∨
        EndsAs twoFaceService (sceneOracle 9) attachSecond firstFrame seenWorld w'.db := by
  intro h
  have hcompletes : attachedAmid.1.toOption.isSome = true ∧ attachedAmid.2.1.toOption.isSome = true := by
    simp only [attachedAmid, attachSecond, attachFrameFace, parseBox_twoFace]
    decide +kernel
  obtain ⟨res, body, w', hends⟩ := completes_of hcompletes
  have hlost : attachedAmid.2.2.db.clusters.map (·.centroid) = [[0, 3 / 2]] ∧
      (attachSecond.exec (answer twoFaceService.pf (sceneOracle 9)) (firstFrame.exec
        (answer twoFaceService.pf (sceneOracle 9)) seenWorld).2).2.db.clusters.map (·.centroid) = [[0, 2]] ∧
      (firstFrame.exec (answer twoFaceService.pf (sceneOracle 9)) (attachSecond.exec
        (answer twoFaceService.pf (sceneOracle 9)) seenWorld).2).2.db.clusters.map (·.centroid) = [[0, 2]] := by
    simp only [attachedAmid, attachSecond, attachFrameFace, parseBox_twoFace]
    decide +kernel
  obtain ⟨hmean, hrunFirst, hattachFirst⟩ := hlost
  obtain ⟨log, hrace⟩ := @Race.nested _ _ _ _ _ _ _ _ _
    (Answered twoFaceService.pf (sceneOracle 9)) (Answered twoFaceService.pf (sceneOracle 9))
    (answer twoFaceService.pf (sceneOracle 9)) (answer twoFaceService.pf (sceneOracle 9))
    (fun _ _ => rfl) (fun _ _ => rfl) 1 firstFrame attachSecond seenWorld
  change Race _ _ _ _ _ _ attachedAmid.1 attachedAmid.2.1 attachedAmid.2.2 at hrace
  rw [hends] at hrace hmean
  have hne : ¬ ([[0, 3 / 2]] : List (List ℚ)).Perm [[0, 2]] := by decide +kernel
  rcases h log res body w' hrace with hserial | hserial
  · have hcentroids := hserial.centroids
    rw [hmean, hrunFirst] at hcentroids
    exact hne hcentroids
  · have hcentroids := hserial.centroids
    rw [hmean, hattachFirst] at hcentroids
    exact hne hcentroids

end FacesService.Reader
