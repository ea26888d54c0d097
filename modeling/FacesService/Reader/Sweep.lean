import FacesService.Reader.DeleteEmpty
import FacesService.Reader.ListFaces
import FacesService.Store.Labels

/-!
`delete_empty_faces` between two looks at `list_faces`. The clusters that the one
counts as empty are those the other deletes, each of them; so the number agrees,
and the next list is the same but for a count of zero.
-/

namespace FacesService.Reader

open Prog Database Fallible Db

variable {K : Type}

/-! ### The swept tables -/

/-- A cluster of the owner that has no rows. -/
def emptyOf (db : Database K) (owner : Uuid) (c : Cluster K) : Bool :=
    c.ownerId = owner && db.countFor c.id = 0

/-- The tables without them. -/
def swept (db : Database K) (owner : Uuid) : Database K :=
  { db with clusters := db.clusters.filter fun c => !emptyOf db owner c }

variable {db : Database K}

/-- A cluster with a row is nobody's empty cluster. -/
theorem not_emptyOf {owner : Uuid} {c : Cluster K} {o : Occurrence K} (ho : o ∈ db.occurrences)
    (hid : o.clusterId = c.id) : emptyOf db owner c = false := by
  have hpos : 0 < db.countFor c.id := List.countP_pos_iff.mpr ⟨o, ho, by simpa using hid⟩
  simp only [emptyOf, Bool.and_eq_false_iff, decide_eq_false_iff_not]
  omega

/-- `ORDER BY is_named DESC, created_at ASC`. -/
def ownerOrder (a b : Cluster K) : Bool :=
  (a.isNamed && !b.isNamed) || (a.isNamed == b.isNamed && a.createdAt ≤ b.createdAt)

instance : IsTrans (Cluster K) fun a b => ownerOrder a b = true where
  trans a b c := by
    simp only [ownerOrder]
    cases a.isNamed <;> cases b.isNamed <;> cases c.isNamed <;> simp <;> omega

instance : Std.Total fun a b : Cluster K => ownerOrder a b = true where
  total a b := by
    simp only [ownerOrder]
    cases a.isNamed <;> cases b.isNamed <;> simp <;> omega

theorem getClustersForOwner_swept (owner : Uuid) (userId : String) :
    getClustersForOwner (swept db owner) userId =
      (getClustersForOwner db userId).map (·.filter fun c => !emptyOf db owner c) := by
  unfold getClustersForOwner
  cases castUuid userId with
  | error e => rfl
  | ok user =>
      change Except.ok (orderBy ownerOrder _) = Except.ok ((orderBy ownerOrder _).filter _)
      rw [orderBy, orderBy, List.filter_insertionSort, swept, List.filter_filter,
          List.filter_filter]
      simp only [Bool.and_comm]

theorem getClustersVideos_swept (owner : Uuid) (userId : String) :
    getClustersVideos (swept db owner) userId = getClustersVideos db userId := by
  unfold getClustersVideos
  cases castUuid userId with
  | error e => rfl
  | ok user =>
      have hjoined : (swept db owner).occurrences.filter
          (fun o => (swept db owner).clusters.any fun c =>
            c.id = o.clusterId && c.ownerId = user) =
          db.occurrences.filter fun o => db.clusters.any fun c =>
              c.id = o.clusterId && c.ownerId = user := by
        apply List.filter_congr
        intro o ho
        apply Bool.eq_iff_iff.mpr
        simp only [swept, List.any_filter, List.any_eq_true, Bool.and_eq_true, Bool.not_eq_true',
            decide_eq_true_eq]
        constructor
        · rintro ⟨c, hc, -, hmine⟩
          exact ⟨c, hc, hmine⟩
        · rintro ⟨c, hc, hid, howner⟩
          exact ⟨c, hc, not_emptyOf ho hid.symm, hid, howner⟩
      simp only [ok_bind, hjoined]

theorem withVideos_swept {owner : Uuid} {userId : String} {rows : List (Cluster K)}
    {videos : List (Uuid × List VideoCount)} (hvideos : getClustersVideos db userId = .ok videos) :
    withVideos (rows.filter fun c => !emptyOf db owner c) videos = withVideos rows videos := by
  unfold withVideos
  rw [List.filter_filter]
  apply List.filter_congr
  intro c _
  by_cases hin : c.id ∈ videos.map (·.1)
  · obtain ⟨o, ho, hid⟩ := getClustersVideos_ok hvideos hin
    simp [hin, not_emptyOf ho hid]
  · simp [hin]

/-- The rows of the caller that a list leaves out are the empty ones. -/
theorem withVideos_own {owner : Uuid} {userId : String} (howner : castUuid userId = .ok owner)
    {rows : List (Cluster K)} {videos : List (Uuid × List VideoCount)}
    (hrows : getClustersForOwner db userId = .ok rows)
    (hvideos : getClustersVideos db userId = .ok videos) :
    withVideos rows videos = rows.filter fun c => !emptyOf db owner c := by
  obtain ⟨rows', videos', hrows', hperm, hvideos', hkept⟩ := @rows_read K db userId owner howner
  cases hrows.symm.trans hrows'
  cases hvideos.symm.trans hvideos'
  unfold withVideos
  apply List.filter_congr
  intro c hc
  obtain ⟨hmem, hmine⟩ := List.mem_filter.mp (hperm.mem_iff.mp hc)
  apply Bool.eq_iff_iff.mpr
  rw [decide_eq_true_eq, Bool.not_eq_true']
  constructor
  · intro hin
    obtain ⟨o, ho, hid⟩ := getClustersVideos_ok hvideos hin
    exact not_emptyOf ho hid
  · intro hfull
    have hpos : db.countFor c.id ≠ 0 := by
      intro hzero
      simp [emptyOf, hzero, of_decide_eq_true hmine] at hfull
    obtain ⟨o, ho, hid⟩ := List.countP_pos_iff.mp (Nat.pos_of_ne_zero hpos)
    exact (mem_withVideos.mp ((hkept c).mpr ⟨hmem, of_decide_eq_true hmine, o, ho,
        of_decide_eq_true hid⟩)).2

variable [Arithmetic K] {svc : Service K} {auth : AuthContext} {oracle : Oracle}

/-! ### The list before and after -/

/-- What `list_faces` answers with the tables in this state. -/
def listOf (svc : Service K) (auth : AuthContext) (limit offset : ℕ) (sort : String)
    (order : Option String)
    (db : Database K) : Except PyError (ListBody K) := do
  let reverse ← sortOrder sort order
  let rows ← getClustersForOwner db auth.userId
  let videos ← getClustersVideos db auth.userId
  listBody svc limit offset sort reverse rows videos

theorem exec_listFaces (limit offset : ℕ) (sort : String) (order : Option String) (w : World K) :
    ((listFaces svc auth limit offset sort order).exec (answer svc.pf oracle) w).1 =
      listOf svc auth limit offset sort order w.db := by
  unfold listFaces listOf
  rw [exec_bind, exec_lift]
  cases sortOrder sort order with
  | error e => rfl
  | ok reverse =>
      simp only [ok_bind]
      rw [exec_bind, exec_query, Query.run]
      cases getClustersForOwner w.db auth.userId with
      | error e => rfl
      | ok rows =>
          simp only [ok_bind]
          rw [exec_bind, exec_query, Query.run]
          cases getClustersVideos w.db auth.userId with
          | error e => rfl
          | ok videos =>
              simp only [ok_bind]
              rw [exec_lift]

/-- The body depends on the rows it keeps, and on the number of the others. -/
theorem listBody_empties {limit offset : ℕ} {sort : String} {reverse : Bool}
    {rows rows' : List (Cluster K)} {videos : List (Uuid × List VideoCount)}
    (hsame : withVideos rows' videos = withVideos rows videos) :
    listBody svc limit offset sort reverse rows' videos =
      (listBody svc limit offset sort reverse rows videos).map fun body =>
        { body with emptyCount := rows'.length - (withVideos rows videos).length } := by
  unfold listBody
  simp only [hsame]
  cases buildSimilarityGroups svc.pf (withCentroid (withVideos rows videos))
      similarityThreshold with
  | error e => rfl
  | ok groups => rfl

theorem listOf_swept {owner : Uuid} (howner : castUuid auth.userId = .ok owner) (limit offset : ℕ)
    (sort : String)
    (order : Option String) : listOf svc auth limit offset sort order (swept db owner) =
      (listOf svc auth limit offset sort order db).map fun body =>
          { body with emptyCount := 0 } := by
  unfold listOf
  cases sortOrder sort order with
  | error e => rfl
  | ok reverse =>
      rw [getClustersForOwner_swept, getClustersVideos_swept]
      cases hrows : getClustersForOwner db auth.userId with
      | error e => rfl
      | ok rows =>
          cases hvideos : getClustersVideos db auth.userId with
          | error e => rfl
          | ok videos =>
              change listBody svc limit offset sort reverse
                  (rows.filter fun c => !emptyOf db owner c) videos = _
              rw [listBody_empties (withVideos_swept hvideos),
                  withVideos_own howner hrows hvideos, Nat.sub_self]
              rfl

/-- Nobody else's list changes. -/
theorem listOf_swept_other {owner user : Uuid} (huser : castUuid auth.userId = .ok user)
    (hne : user ≠ owner)
    (limit offset : ℕ) (sort : String) (order : Option String) :
    listOf svc auth limit offset sort order (swept db owner) =
        listOf svc auth limit offset sort order db := by
  have hrows : getClustersForOwner (swept db owner) auth.userId =
      getClustersForOwner db auth.userId := by
    rw [getClustersForOwner_swept]
    cases hrows : getClustersForOwner db auth.userId with
    | error e => rfl
    | ok rows =>
        obtain ⟨user', huser', hperm⟩ := getClustersForOwner_ok hrows
        cases huser.symm.trans huser'
        refine congrArg Except.ok (List.filter_eq_self.mpr fun c hc => ?_)
        have hmine : c.ownerId = user := by simpa using (List.mem_filter.mp (hperm.mem_iff.mp hc)).2
        simp [emptyOf, hmine, hne]
  unfold listOf
  rw [hrows, getClustersVideos_swept]

theorem emptyCount_listOf {owner : Uuid} (howner : castUuid auth.userId = .ok owner)
    {limit offset : ℕ} {sort : String}
    {order : Option String} {body : ListBody K}
    (h : listOf svc auth limit offset sort order db = .ok body) :
    body.emptyCount = db.clusters.countP (emptyOf db owner) := by
  unfold listOf at h
  obtain ⟨reverse, -, h⟩ := bind_eq_ok.mp h
  obtain ⟨rows, hrows, h⟩ := bind_eq_ok.mp h
  obtain ⟨videos, hvideos, h⟩ := bind_eq_ok.mp h
  obtain ⟨owner', howner', hperm⟩ := getClustersForOwner_ok hrows
  cases howner.symm.trans howner'
  have hcount : body.emptyCount = rows.length - (withVideos rows videos).length := by
    unfold listBody at h
    obtain ⟨groups, -, h⟩ := bind_eq_ok.mp h
    cases h
    rfl
  have hsplit := List.length_eq_countP_add_countP (emptyOf db owner) (l := rows)
  have hempty : rows.countP (emptyOf db owner) = db.clusters.countP (emptyOf db owner) := by
    rw [hperm.countP_eq, List.countP_filter]
    apply List.countP_congr
    intro c _
    simpa [emptyOf] using fun hmine _ => hmine
  rw [hcount, withVideos_own howner hrows hvideos, ← List.countP_eq_length_filter]
  simp only [Bool.not_eq_true] at hsplit
  have hrest : rows.countP (fun c => !emptyOf db owner c) = rows.countP fun c =>
      decide (emptyOf db owner c = false) :=
    List.countP_congr fun c _ => by simp
  omega

/-! ### The deletions -/

omit [Arithmetic K] in
/-- Deleting a cluster without rows takes the cluster and nothing else. -/
theorem delete_empty {id : Uuid} (hzero : db.countFor id = 0) :
    ((db.deleteOccurrences fun o => o.clusterId = id).deleteClusters fun c => c.id = id) =
      { db with clusters := db.clusters.filter fun c => c.id ≠ id } := by
  have hocc := occurrences_without db id
  rw [List.filter_eq_self.mpr fun o ho => by simpa using List.countP_eq_zero.mp hzero o ho] at hocc
  refine congrArg₂ Database.mk ?_ hocc
  apply List.filter_congr
  intro c _
  simp

theorem exec_purgeCrop (due : Bool) (ownerId clusterId : String) (w : World K) :
    ∃ w', (purgeCrop svc due ownerId clusterId).exec (answer svc.pf oracle) w = (.ok (), w') ∧
        w'.db = w.db := by
  unfold purgeCrop orElse
  split
  · rw [exec_tryCatch, exec_perform]
    exact ⟨_, rfl, rfl⟩
  · exact ⟨w, rfl, rfl⟩

theorem exec_deleteListed (deleted : ℕ) {w : World K} {row : Cluster K} {id : Uuid}
    (hown : Owned w.db id.text auth.userId id row) (hzero : w.db.countFor id = 0) :
    ∃ w', (deleteListed svc auth deleted id.text).exec (answer svc.pf oracle) w =
        (.ok (deleted + 1), w') ∧
      w'.db = { w.db with clusters := w.db.clusters.filter fun c => c.id ≠ id } := by
  obtain ⟨c, hrun, hsome, hdb⟩ := deleteCluster_of_owned hown
  have hwrites : ∃ w₁, (write (.deleteCluster id.text auth.userId)).exec (answer svc.pf oracle) w =
      (.ok c.result, w₁) :=
    exec_write_ok hrun
  obtain ⟨w₁, hwrite⟩ := hwrites
  obtain ⟨c', hrun', -, hdb₁, -⟩ := write_ok hwrite
  cases hrun.symm.trans hrun'
  obtain ⟨result, hresult⟩ := Option.isSome_iff_exists.mp hsome
  have hpurges : ∃ w₂, (purgeCrop svc (truthy result.cropObject) result.ownerId id.text).exec
      (answer svc.pf oracle) w₁ =
      (.ok (), w₂) ∧ w₂.db = w₁.db := exec_purgeCrop _ _ _ w₁
  obtain ⟨w₂, hpurge, hdb₂⟩ := hpurges
  refine ⟨w₂, ?_, ?_⟩
  · unfold deleteListed
    rw [exec_bind, hwrite]
    simp only [hresult]
    rw [exec_bind, hpurge]
    rfl
  · rw [hdb₂, hdb₁, hdb, delete_empty hzero]

theorem exec_deleteAll {ids : List Uuid} (hnodup : ids.Nodup) {w : World K}
    (hids : (w.db.clusters.map (·.id)).Nodup)
    (hempty : ∀ id ∈ ids, ∃ row ∈ w.db.clusters, row.id = id ∧ row.ownerId.text = auth.userId ∧
      w.db.countFor id = 0)
    (deleted : ℕ) :
    ∃ w', ((ids.map Uuid.text).foldlM (deleteListed svc auth) deleted).exec
        (answer svc.pf oracle) w =
        (.ok (deleted + ids.length), w') ∧
      w'.db = { w.db with clusters := w.db.clusters.filter fun c => c.id ∉ ids } := by
  induction ids generalizing w deleted with
  | nil => exact ⟨w, rfl, by simp⟩
  | cons id ids ih =>
      obtain ⟨hid, hrest⟩ := List.nodup_cons.mp hnodup
      obtain ⟨⟨row, hrow, rfl, howner, hzero⟩, hothers⟩ := List.forall_mem_cons.mp hempty
      have hown : Owned w.db row.id.text auth.userId row.id row :=
        ⟨Uuid.castUuid_text _, clusterById_of_nodup hids hrow, howner⟩
      have hone : ∃ w₁, (deleteListed svc auth deleted row.id.text).exec (answer svc.pf oracle) w =
          (.ok (deleted + 1), w₁) ∧
        w₁.db = { w.db with clusters := w.db.clusters.filter fun c => c.id ≠ row.id } :=
        exec_deleteListed deleted hown hzero
      obtain ⟨w₁, hexec₁, hdb₁⟩ := hone
      have hids₁ : (w₁.db.clusters.map (·.id)).Nodup := by
        rw [hdb₁]
        exact hids.sublist (List.filter_sublist.map _)
      have hempty₁ : ∀ id ∈ ids, ∃ r ∈ w₁.db.clusters, r.id = id ∧ r.ownerId.text = auth.userId ∧
          w₁.db.countFor id = 0 := by
        intro id' hid'
        obtain ⟨r, hr, hrid, howner', hzero'⟩ := hothers id' hid'
        have hne : r.id ≠ row.id := fun heq => hid (heq ▸ hrid ▸ hid')
        rw [hdb₁]
        exact ⟨r, List.mem_filter.mpr ⟨hr, by simpa using hne⟩, hrid, howner', hzero'⟩
      obtain ⟨w', hexec, hdb⟩ := ih hrest hids₁ hempty₁ (deleted + 1)
      refine ⟨w', ?_, ?_⟩
      · rw [List.map_cons, List.foldlM_cons, exec_bind, hexec₁]
        simp only
        rw [hexec, List.length_cons, Nat.add_assoc, Nat.add_comm 1]
      · rw [hdb, hdb₁]
        simp only [List.filter_filter, List.mem_cons, not_or]
        congr 2
        funext c
        simp [Bool.and_comm]

theorem exec_deleteEmptyFaces {w : World K} (hids : (w.db.clusters.map (·.id)).Nodup) {owner : Uuid}
    (huser : auth.userId = owner.text) :
    ∃ w', (deleteEmptyFaces svc auth).exec (answer svc.pf oracle) w =
        (.ok (w.db.clusters.countP (emptyOf w.db owner)), w') ∧ w'.db = swept w.db owner := by
  have hquery : Db.getClustersWithoutOccurrences w.db auth.userId =
      .ok (w.db.clusters.filter (emptyOf w.db owner)) := by
    rw [getClustersWithoutOccurrences, huser, Uuid.castUuid_text]
    rfl
  have hnodup : ((w.db.clusters.filter (emptyOf w.db owner)).map (·.id)).Nodup :=
    hids.sublist (List.filter_sublist.map _)
  have hempty : ∀ id ∈ (w.db.clusters.filter (emptyOf w.db owner)).map (·.id),
      ∃ row ∈ w.db.clusters, row.id = id ∧ row.ownerId.text = auth.userId ∧
          w.db.countFor id = 0 := by
    intro id hid
    obtain ⟨row, hrow, rfl⟩ := List.mem_map.mp hid
    obtain ⟨hmem, hmine⟩ := List.mem_filter.mp hrow
    simp only [emptyOf, Bool.and_eq_true, decide_eq_true_eq] at hmine
    exact ⟨row, hmem, rfl, by rw [hmine.1, huser], hmine.2⟩
  have hloop : ∃ w', (((w.db.clusters.filter (emptyOf w.db owner)).map (·.id)).map Uuid.text
        |>.foldlM (deleteListed svc auth) 0).exec (answer svc.pf oracle)
            { w with calls := w.calls + 1 } =
      (.ok (0 + ((w.db.clusters.filter (emptyOf w.db owner)).map (·.id)).length), w') ∧
      w'.db = { w.db with clusters := w.db.clusters.filter fun c =>
        c.id ∉ (w.db.clusters.filter (emptyOf w.db owner)).map (·.id) } :=
    exec_deleteAll (w := { w with calls := w.calls + 1 }) hnodup hids hempty 0
  obtain ⟨w', hexec, hdb⟩ := hloop
  refine ⟨w', ?_, ?_⟩
  · unfold deleteEmptyFaces
    rw [exec_bind, exec_query, Query.run, hquery]
    rw [Nat.zero_add, List.length_map, ← List.countP_eq_length_filter, List.map_map] at hexec
    exact hexec
  · rw [hdb]
    refine congrArg₂ Database.mk ?_ rfl
    apply List.filter_congr
    intro c hc
    apply Bool.eq_iff_iff.mpr
    rw [decide_eq_true_eq, Bool.not_eq_true', ← Bool.not_eq_true]
    apply not_congr
    constructor
    · intro hid
      obtain ⟨c', hc', hid⟩ := List.mem_map.mp hid
      obtain ⟨hmem, hmine⟩ := List.mem_filter.mp hc'
      rwa [List.inj_on_of_nodup_map hids hmem hc hid] at hmine
    · exact fun hmine => List.mem_map_of_mem (List.mem_filter.mpr ⟨hc, hmine⟩)

/-- **What the list counts, the endpoint deletes.** It answers the `empty_count` of
any list before it; the same list afterwards differs in that count only, which is
zero, and the lists of other callers do not differ. -/
theorem delete_empty_sweeps {w : World K} (hstore : StoreInvariant w.db) {owner : Uuid}
    (huser : auth.userId = owner.text) :
    ∃ deleted w', (deleteEmptyFaces svc auth).exec (answer svc.pf oracle) w = (.ok deleted, w') ∧
      (∀ limit offset sort order,
        ((listFaces svc auth limit offset sort order).exec (answer svc.pf oracle) w').1 =
            ((listFaces svc auth limit offset sort order).exec (answer svc.pf oracle) w).1.map
              (fun body => { body with emptyCount := 0 }) ∧
          ∀ body, ((listFaces svc auth limit offset sort order).exec (answer svc.pf oracle) w).1 =
              .ok body →
            deleted = body.emptyCount) ∧
      ∀ (other : AuthContext) user limit offset sort order, castUuid other.userId = .ok user →
          user ≠ owner →
        ((listFaces svc other limit offset sort order).exec (answer svc.pf oracle) w').1 =
          ((listFaces svc other limit offset sort order).exec (answer svc.pf oracle) w).1 := by
  have hsweeps : ∃ w', (deleteEmptyFaces svc auth).exec (answer svc.pf oracle) w =
      (.ok (w.db.clusters.countP (emptyOf w.db owner)), w') ∧ w'.db = swept w.db owner :=
    exec_deleteEmptyFaces hstore.ids huser
  obtain ⟨w', hexec, hdb⟩ := hsweeps
  have howner : castUuid auth.userId = .ok owner := huser ▸ Uuid.castUuid_text owner
  refine ⟨_, w', hexec, fun limit offset sort order => ⟨?_, fun body hbody => ?_⟩,
    fun other user limit offset sort order hother hne => ?_⟩
  · rw [exec_listFaces, exec_listFaces, hdb, listOf_swept howner]
  · rw [exec_listFaces] at hbody
    exact (emptyCount_listOf howner hbody).symm
  · rw [exec_listFaces, exec_listFaces, hdb, listOf_swept_other hother hne]

/-- A person, an empty cluster, and an empty one of somebody else. -/
def leftOver : World ℚ :=
  { sceneWorld with
    db := ⟨[.anonymous (.fill 3) (.fill 1) [1, 0] 1, .anonymous (.fill 4) (.fill 1) [1, 0] 0,
        .anonymous (.fill 5) (.fill 2) [1, 0] 0],
      [⟨.fill 1, .fill 7, .fill 3, [1, 0], 5 / 2, 1, 0⟩]⟩ }

theorem leftOver_invariant : StoreInvariant leftOver.db where
  ids := by decide +kernel
  owned := by decide +kernel
  keys := by decide +kernel
  named := by
    simp only [leftOver, List.mem_cons, List.not_mem_nil, or_false]
    rintro c (rfl | rfl | rfl) <;> exact ⟨rfl, fun n hn => nomatch hn⟩
  counts := by
    simp only [leftOver, CountsOutside, List.mem_cons, List.not_mem_nil, or_false]
    rintro c (rfl | rfl | rfl) _ <;> rfl

theorem delete_empty_sweeps_leftOver :
    ∃ deleted w', (deleteEmptyFaces (sceneService []) ⟨(Uuid.fill 1).text, none⟩).exec
        (answer (sceneService []).pf (sceneOracle 9)) leftOver = (.ok deleted, w') ∧
      ∀ body, ((listFaces (sceneService []) ⟨(Uuid.fill 1).text, none⟩ 50 0 "name" none).exec
        (answer (sceneService []).pf (sceneOracle 9)) leftOver).1 = .ok body →
            deleted = body.emptyCount := by
  obtain ⟨deleted, w', hexec, hown, -⟩ := @delete_empty_sweeps ℚ _
      (sceneService []) ⟨(Uuid.fill 1).text, none⟩
    (sceneOracle 9) leftOver leftOver_invariant (.fill 1) rfl
  exact ⟨deleted, w', hexec, (hown 50 0 "name" none).2⟩

end FacesService.Reader
