import FacesService.Model.Assist
import FacesService.Store.Bumps
import FacesService.Store.Calls

/-!
The suggestion index of an owner in one process, requests coming one after
another. A served index is that of the current rows as long as every write that
changes what the index shows empties the entry under the key it is read by.
`set_cluster_crop` empties none, and a write for an owner in another spelling
empties another one.
-/

namespace FacesService.Reader

open Prog Database Db Fallible

variable {K : Type}

/-! ### What an index shows -/

/-- What `_public_cluster` shows of a cluster. -/
structure PublicCluster where
  id : Uuid
  name : Option String
  isNamed : Bool
  sampleCount : ℕ
  cropObject : Option String
  deriving DecidableEq

/-- `_public_cluster`. -/
def publicCluster (c : Cluster K) : PublicCluster :=
  ⟨c.id, c.name, c.isNamed, c.sampleCount, c.cropObject⟩

/-- The matrix and the clusters, as far as they are shown. -/
def shown (index : SuggestionIndex K) : List (List K × PublicCluster) :=
  index.map fun row => (row.1, publicCluster row.2)

variable [Arithmetic K] {svc : Service K} {oracle : Oracle} {pf : Platform K}

/-- `build_suggestion_index(get_clusters_for_owner(o))`. -/
def freshIndex (pf : Platform K) (db : Database K) (ownerId : String) :
    Except PyError (SuggestionIndex K) := do
  buildSuggestionIndex pf (← getClustersForOwner db ownerId)

/-- The index depends on the rows of the owner only. -/
theorem freshIndex_congr {db db' : Database K} {ownerId : String} {owner : Uuid}
    (howner : castUuid ownerId = .ok owner) (h : ownRows db' owner = ownRows db owner) :
    freshIndex pf db' ownerId = freshIndex pf db ownerId := by
  unfold freshIndex getClustersForOwner
  rw [howner]
  have hrows : (db'.clusters.filter fun c => c.ownerId = owner) =
      db.clusters.filter fun c => c.ownerId = owner := h
  simp only [ok_bind, hrows]

/-- Rows that change in nothing the index shows give an index that shows the same. -/
theorem freshIndex_map {db db' : Database K} {ownerId : String} {owner : Uuid}
    (howner : castUuid ownerId = .ok owner) {f : Cluster K → Cluster K}
    (h : ownRows db' owner = (ownRows db owner).map f)
    (hf : ∀ c ∈ ownRows db owner, (f c).isNamed = c.isNamed ∧ (f c).createdAt = c.createdAt ∧
      (f c).centroid = c.centroid ∧ (c.centroid ≠ [] → publicCluster (f c) = publicCluster c)) :
    (freshIndex pf db' ownerId).map shown = (freshIndex pf db ownerId).map shown := by
  let le : Cluster K → Cluster K → Bool := fun a b =>
    (a.isNamed && !b.isNamed) || (a.isNamed == b.isNamed && a.createdAt ≤ b.createdAt)
  have hrows' : getClustersForOwner db' ownerId = .ok (orderBy le (ownRows db' owner)) := by
    rw [getClustersForOwner, howner]
    rfl
  have hrows : getClustersForOwner db ownerId = .ok (orderBy le (ownRows db owner)) := by
    rw [getClustersForOwner, howner]
    rfl
  have hsorted : orderBy le (ownRows db' owner) = (orderBy le (ownRows db owner)).map f := by
    rw [h]
    unfold orderBy
    refine (List.map_insertionSort _ _ f _ fun a ha b hb => ?_).symm
    obtain ⟨hna, hca, -⟩ := hf a ha
    obtain ⟨hnb, hcb, -⟩ := hf b hb
    simp only [le, hna, hca, hnb, hcb]
  have hmem : ∀ c ∈ orderBy le (ownRows db owner), c ∈ ownRows db owner := fun c hc =>
    (List.perm_insertionSort _ _).mem_iff.mp hc
  unfold freshIndex
  rw [hrows', hrows, hsorted]
  simp only [ok_bind]
  generalize orderBy le (ownRows db owner) = rows at hmem
  have hcentroid : ∀ c ∈ rows, (f c).centroid = c.centroid := fun c hc => (hf c (hmem c hc)).2.2.1
  have hwith : withCentroid (rows.map f) = (withCentroid rows).map f := by
    unfold withCentroid
    rw [List.filter_map]
    congr 1
    exact List.filter_congr fun c hc => by simp [hcentroid c hc]
  have hin : ∀ c ∈ withCentroid rows, c ∈ rows ∧ c.centroid ≠ [] := fun c hc => by
    simpa [withCentroid] using hc
  have hstack : Stackable (withCentroid (rows.map f)) ↔ Stackable (withCentroid rows) := by
    rw [hwith]
    unfold Stackable
    simp only [List.forall_mem_map]
    refine forall₂_congr fun c hc => forall₂_congr fun d hd => ?_
    rw [hcentroid c (hin c hc).1, hcentroid d (hin d hd).1]
  unfold buildSuggestionIndex
  simp only [hstack]
  split
  · rw [hwith]
    simp only [Except.map, shown, List.map_map]
    congr 1
    refine List.map_congr_left fun c hc => ?_
    obtain ⟨hc, hne⟩ := hin c hc
    simp only [Function.comp, hcentroid c hc, (hf c (hmem c hc)).2.2.2 hne]
  · rfl

/-! ### The entries -/

omit [Arithmetic K] in
theorem bumps_entries (w : World K) (owners : List String) (o : String) :
    (o ∈ owners → (owners.foldl World.bump w).entries o = none) ∧
      (o ∉ owners → (owners.foldl World.bump w).entries o = w.entries o ∧
        (owners.foldl World.bump w).epoch o = w.epoch o) := by
  induction owners generalizing w with
  | nil => simp
  | cons s owners ih =>
      obtain ⟨hgone, hkept⟩ := ih (w.bump s)
      rw [List.foldl_cons]
      constructor
      · intro ho
        by_cases hlater : o ∈ owners
        · exact hgone hlater
        · obtain rfl : o = s := (List.mem_cons.mp ho).resolve_right hlater
          rw [(hkept hlater).1]
          simp [World.bump]
      · intro ho
        obtain ⟨hne, hlater⟩ := List.ne_and_not_mem_of_not_mem_cons ho
        obtain ⟨hentry, hepoch⟩ := hkept hlater
        rw [hentry, hepoch]
        simp [World.bump, hne]

/-- The entry a read would be answered from now. -/
def Served (oracle : Oracle) (w : World K) (o : String) (e : CacheEntry K) : Prop :=
  w.entries o = some e ∧ e.epoch = w.epoch o ∧ oracle.clock w.calls < e.storedAt + cacheTtl

omit [Arithmetic K] in
theorem cached_eq_some {w : World K} {o : String} {v : SuggestionIndex K} :
    w.cached (oracle.clock w.calls) o = some v ↔ ∃ e, Served oracle w o e ∧ e.value = v := by
  unfold World.cached Served
  cases w.entries o with
  | none => simp
  | some e =>
      constructor
      · intro h
        simp only at h
        split at h
        · rename_i hlive
          exact ⟨e, ⟨rfl, hlive⟩, Option.some.inj h⟩
        · cases h
      · rintro ⟨_, ⟨⟨⟩, hlive⟩, rfl⟩
        simp [hlive]

/-- Every entry that would be served shows what a fresh index shows. -/
def Coherent (pf : Platform K) (oracle : Oracle) (w : World K) : Prop :=
  ∀ o e, Served oracle w o e → (freshIndex pf w.db o).map shown = .ok (shown e.value)

/-- `SUGGESTION_INDEX.get` serves an entry, or builds the index and stores it. -/
theorem suggestionIndex_exec (o : String) (w : World K) :
    (suggestionIndex svc o).exec (answer svc.pf oracle) w =
      match w.cached (oracle.clock w.calls) o with
      | some value => (.ok value, { w with calls := w.calls + 1 })
      | none =>
          match freshIndex svc.pf w.db o with
          | .error e => (.error e, { w with calls := w.calls + 2 })
          | .ok value => (.ok value, { w with
              entries := Function.update w.entries o (some ⟨w.epoch o, oracle.clock (w.calls + 2), value⟩)
              calls := w.calls + 3 }) := by
  have hlookup : (call (K := K) (.cacheLookup o)).exec (answer svc.pf oracle) w =
      (.ok (w.epoch o, w.cached (oracle.clock w.calls) o), { w with calls := w.calls + 1 }) := by
    rw [exec_perform]
    rfl
  unfold suggestionIndex
  rw [exec_bind_ok hlookup]
  cases w.cached (oracle.clock w.calls) o with
  | some value => rfl
  | none =>
      have hquery : (query (K := K) (.getClustersForOwner o)).exec (answer svc.pf oracle)
          { w with calls := w.calls + 1 } = (getClustersForOwner w.db o, { w with calls := w.calls + 2 }) := by
        rw [exec_perform]
        rfl
      unfold freshIndex
      cases hrows : getClustersForOwner w.db o with
      | error e =>
          rw [hrows] at hquery
          exact exec_bind_error hquery
      | ok rows =>
          rw [hrows] at hquery
          rw [ok_bind]
          refine (exec_bind_ok hquery).trans ?_
          cases buildSuggestionIndex svc.pf rows with
          | error e => exact exec_bind_error (exec_lift _ _ _)
          | ok value => exact (exec_bind_ok (exec_lift _ _ _)).trans rfl

/-! ### One request -/

/-- A request to the cache or to the tables. -/
inductive CacheOp (K : Type)
  | write (wr : Write K)
  | read (ownerId : String)

/-- What it leaves. -/
def CacheOp.play (svc : Service K) (oracle : Oracle) (w : World K) : CacheOp K → World K
  | write wr => ((FacesService.write wr).exec (answer svc.pf oracle) w).2
  | read ownerId => ((suggestionIndex svc ownerId).exec (answer svc.pf oracle) w).2

/-- A read shows what an index built now would show. -/
def Faithful (svc : Service K) (oracle : Oracle) (w : World K) : CacheOp K → Prop
  | .write _ => True
  | .read ownerId => ((suggestionIndex svc ownerId).exec (answer svc.pf oracle) w).1.map shown =
      (freshIndex svc.pf w.db ownerId).map shown

/-- A write spares the index cached under the key, or empties it: a crop is set to
what it is, or on a cluster the index does not have, and any other write gives
the owners it is for in the spelling of the key. -/
def Spares (w : World K) (key : String) : Write K → Prop
  | .setClusterCrop clusterId ownerId cropObject =>
      ∀ c ∈ w.db.clusters, castUuid clusterId = .ok c.id → castUuid ownerId = .ok c.ownerId →
        castUuid key = .ok c.ownerId → c.centroid ≠ [] → c.cropObject = cropObject
  | wr => ∀ s ∈ wr.names w.db, castUuid s = castUuid key → s = key

/-- A write that is refused, or leaves the tables as they are, can do nothing. -/
def Changes (pf : Platform K) (oracle : Oracle) (w : World K) (wr : Write K) : Prop :=
  ∃ c, wr.run pf (oracle.fresh w.draws) (oracle.clock w.calls) w.db = .ok c ∧ c.db ≠ w.db

/-- A request that changes the tables spares every index that would be served. -/
def SparesServed (pf : Platform K) (oracle : Oracle) (w : World K) : CacheOp K → Prop
  | .write wr => Changes pf oracle w wr → ∀ key e, Served oracle w key e → Spares w key wr
  | .read _ => True

omit [Arithmetic K] in
theorem Spares.out {w : World K} {key : String} {wr : Write K} (hcrop : wr.isSetCrop = false)
    (h : Spares w key wr) : ∀ s ∈ wr.names w.db, castUuid s = castUuid key → s = key := by
  cases wr with
  | setClusterCrop => cases hcrop
  | _ => exact h

theorem freshIndex_owner {db : Database K} {o : String} {x : List (List K × PublicCluster)}
    (h : (freshIndex pf db o).map shown = .ok x) : ∃ owner, castUuid o = .ok owner := by
  cases hcast : castUuid o with
  | ok owner => exact ⟨owner, rfl⟩
  | error e =>
      rw [freshIndex, getClustersForOwner, hcast] at h
      cases h

/-- A committed write leaves what the index shows, unless it empties the entry. -/
theorem write_spares {w : World K} (hids : (w.db.clusters.map (·.id)).Nodup) {wr : Write K}
    {fresh : Uuid} {now : ℕ} {c : Commit K wr.Answer} (hrun : wr.run pf fresh now w.db = .ok c)
    {key : String} {owner : Uuid} (howner : castUuid key = .ok owner) (hspares : Spares w key wr)
    (hkey : key ∉ c.bumps) :
    (freshIndex pf c.db key).map shown = (freshIndex pf w.db key).map shown := by
  cases hcrop : wr.isSetCrop with
  | false =>
      rw [freshIndex_congr howner (Write.run_ownRows hids hcrop hrun fun s hs hcast => ?_)]
      have heq := hspares.out hcrop s (Write.run_names hrun s hs) (hcast.trans howner.symm)
      exact hkey (heq ▸ hs)
  | true =>
      cases wr with
      | setClusterCrop clusterId ownerId cropObject =>
          obtain ⟨id, owner', hid, howner', rfl⟩ := setClusterCrop_ok hrun
          have hrows := @ownRows_update K w.db (fun r => r.id = id && r.ownerId = owner')
            (fun r => { r with cropObject := cropObject, updatedAt := now }) (fun _ => rfl) owner
          refine freshIndex_map howner hrows fun r hr => ?_
          obtain ⟨hmem, hown⟩ := List.mem_filter.mp hr
          have hown : r.ownerId = owner := by simpa using hown
          by_cases hit : (decide (r.id = id) && decide (r.ownerId = owner')) = true
          · simp only [hit, if_true]
            refine ⟨trivial, trivial, trivial, fun hne => ?_⟩
            simp only [Bool.and_eq_true, decide_eq_true_eq] at hit
            have hsame := hspares r hmem (hit.1 ▸ hid) (hit.2 ▸ howner') (hown ▸ howner) hne
            simp [publicCluster, hsame]
          · simp [hit]
      | _ => cases hcrop

theorem play_write (w : World K) (wr : Write K) :
    (CacheOp.play svc oracle w (.write wr)).calls = w.calls + 1 ∧
      ((CacheOp.play svc oracle w (.write wr)).db = w.db ∧
          (CacheOp.play svc oracle w (.write wr)).entries = w.entries ∧
          (CacheOp.play svc oracle w (.write wr)).epoch = w.epoch ∨
        ∃ c, wr.run svc.pf (oracle.fresh w.draws) (oracle.clock w.calls) w.db = .ok c ∧
          (CacheOp.play svc oracle w (.write wr)).db = c.db ∧
          ∀ o, (o ∈ c.bumps → (CacheOp.play svc oracle w (.write wr)).entries o = none) ∧
            (o ∉ c.bumps → (CacheOp.play svc oracle w (.write wr)).entries o = w.entries o ∧
              (CacheOp.play svc oracle w (.write wr)).epoch o = w.epoch o)) := by
  unfold CacheOp.play
  simp only [exec_perform, answer, Call.effect]
  cases wr.run svc.pf (oracle.fresh w.draws) (oracle.clock w.calls) w.db with
  | error e => exact ⟨rfl, .inl ⟨rfl, rfl, rfl⟩⟩
  | ok c =>
      refine ⟨by simp, .inr ⟨c, rfl, by simp, fun o => ?_⟩⟩
      exact bumps_entries { w with db := c.db } c.bumps o

/-- A read leaves the entries of the other keys. -/
theorem play_read_entries {w : World K} {o key : String} (hkey : key ≠ o) :
    ((CacheOp.read o).play svc oracle w).entries key = w.entries key := by
  simp only [CacheOp.play, suggestionIndex_exec]
  cases w.cached (oracle.clock w.calls) o with
  | some value => rfl
  | none =>
      cases freshIndex svc.pf w.db o with
      | error e => rfl
      | ok value => exact Function.update_of_ne hkey _ _

/-- A read of a coherent cache is faithful. -/
theorem Coherent.faithful {w : World K} (h : Coherent svc.pf oracle w) (op : CacheOp K) :
    Faithful svc oracle w op := by
  cases op with
  | write wr => trivial
  | read o =>
      simp only [Faithful, suggestionIndex_exec]
      cases hcached : w.cached (oracle.clock w.calls) o with
      | some value =>
          obtain ⟨e, hserved, rfl⟩ := cached_eq_some.mp hcached
          exact (h o e hserved).symm
      | none => cases freshIndex svc.pf w.db o <;> rfl

omit [Arithmetic K] in
/-- An entry that is served later is served now, if nothing was done to it. -/
theorem Served.earlier (hclock : Monotone oracle.clock) {w w' : World K} {o : String} {e : CacheEntry K}
    (h : Served oracle w' o e) (hcalls : w.calls ≤ w'.calls) (hentry : w'.entries o = w.entries o)
    (hepoch : w'.epoch o = w.epoch o) : Served oracle w o e :=
  ⟨hentry ▸ h.1, hepoch ▸ h.2.1, (hclock hcalls).trans_lt h.2.2⟩

/-- **One request** that spares what is served keeps the cache coherent. -/
theorem Coherent.play (hclock : Monotone oracle.clock) {w : World K}
    (hids : (w.db.clusters.map (·.id)).Nodup) (h : Coherent svc.pf oracle w) {op : CacheOp K}
    (hspares : SparesServed svc.pf oracle w op) :
    ((op.play svc oracle w).db.clusters.map (·.id)).Nodup ∧ Coherent svc.pf oracle (op.play svc oracle w) := by
  cases op with
  | write wr =>
      obtain ⟨hcalls, ⟨hdb, hentries, hepoch⟩ | ⟨c, hrun, hdb, hkeys⟩⟩ := @play_write K _ svc oracle w wr
      · rw [Coherent, hdb]
        exact ⟨hids, fun o e hserved =>
          h o e (hserved.earlier hclock (by omega) (by rw [hentries]) (by rw [hepoch]))⟩
      · rw [Coherent, hdb]
        refine ⟨Write.run_ids hids hrun, fun o e hserved => ?_⟩
        have hout : o ∉ c.bumps := fun ho => by
          have hnone := hserved.1
          rw [(hkeys o).1 ho] at hnone
          cases hnone
        obtain ⟨hentry, hepoch⟩ := (hkeys o).2 hout
        have hearlier : Served oracle w o e := hserved.earlier hclock (by omega) hentry hepoch
        obtain ⟨owner, howner⟩ := freshIndex_owner (h o e hearlier)
        by_cases hdb : c.db = w.db
        · rw [hdb]
          exact h o e hearlier
        · rw [write_spares hids hrun howner (hspares ⟨c, hrun, hdb⟩ o e hearlier) hout]
          exact h o e hearlier
  | read o =>
      simp only [CacheOp.play, suggestionIndex_exec]
      cases hcached : w.cached (oracle.clock w.calls) o with
      | some value =>
          exact ⟨hids, fun o' e hserved => h o' e (hserved.earlier hclock (Nat.le_succ _) rfl rfl)⟩
      | none =>
          cases hfresh : freshIndex svc.pf w.db o with
          | error e =>
              exact ⟨hids, fun o' e hserved => h o' e (hserved.earlier hclock (Nat.le_add_right _ 2) rfl rfl)⟩
          | ok value =>
              refine ⟨hids, fun o' e hserved => ?_⟩
              by_cases ho : o' = o
              · -- the entry just stored
                subst ho
                obtain ⟨hentry, -, -⟩ := hserved
                simp only [Function.update_self, Option.some.injEq] at hentry
                rw [← hentry]
                simp only [hfresh, Except.map]
              · exact h o' e (hserved.earlier hclock (Nat.le_add_right _ 3)
                  (Function.update_of_ne ho _ _) rfl)

/-! ### Any sequence of requests -/

/-- `P` holds of each request where it comes. -/
def Throughout (svc : Service K) (oracle : Oracle) (P : World K → CacheOp K → Prop) :
    World K → List (CacheOp K) → Prop
  | _, [] => True
  | w, op :: ops => P w op ∧ Throughout svc oracle P (op.play svc oracle w) ops

theorem Coherent.throughout (hclock : Monotone oracle.clock) {w : World K}
    (hids : (w.db.clusters.map (·.id)).Nodup) (h : Coherent svc.pf oracle w) {ops : List (CacheOp K)}
    (hspares : Throughout svc oracle (SparesServed svc.pf oracle) w ops) :
    Throughout svc oracle (Faithful svc oracle) w ops := by
  induction ops generalizing w with
  | nil => trivial
  | cons op ops ih =>
      obtain ⟨hids', hcoherent⟩ := h.play hclock hids hspares.1
      exact ⟨h.faithful op, ih hids' hcoherent hspares.2⟩

/-- **The suggestion index reflects the database** in every sequence of requests
whose writes spare the indexes that are served. -/
theorem index_faithful (hclock : Monotone oracle.clock) {w : World K}
    (hids : (w.db.clusters.map (·.id)).Nodup) (hstart : ∀ o, w.entries o = none) {ops : List (CacheOp K)}
    (hspares : Throughout svc oracle (SparesServed svc.pf oracle) w ops) :
    Throughout svc oracle (Faithful svc oracle) w ops := by
  have hcoherent : Coherent svc.pf oracle w := fun o e hserved => by
    have hnone := hserved.1
    rw [hstart o] at hnone
    cases hnone
  exact hcoherent.throughout hclock hids hspares

/-- The world when the process starts: one cluster without a crop, nothing cached. -/
def oneClusterWorld : World ℚ :=
  { sceneWorld with db := ⟨[Cluster.anonymous (Uuid.fill 3) (Uuid.fill 1) [1] 0], []⟩ }

/-- Two reads, and between them a write that meets the index the first has cached:
it names the owner as the reads do. -/
theorem index_faithful_twoReads :
    (∃ e, Served (sceneOracle 9) ((CacheOp.read (Uuid.fill 1).text).play (sceneService [])
      (sceneOracle 9) oneClusterWorld) (Uuid.fill 1).text e) ∧
    Throughout (sceneService []) (sceneOracle 9) (Faithful (sceneService []) (sceneOracle 9))
      oneClusterWorld [.read (Uuid.fill 1).text,
        .write (.updateClusterCentroid (Uuid.fill 3).text (Uuid.fill 1).text [2]),
        .read (Uuid.fill 1).text] := by
  refine ⟨⟨_, rfl, rfl, by decide⟩, ?_⟩
  refine index_faithful (fun _ _ h => h) (by decide) (fun _ => rfl) ⟨trivial, ?_, trivial, trivial⟩
  intro _ key e hserved s hs _
  have hkey : key = (Uuid.fill 1).text := by
    by_contra hne
    have hnone := hserved.1
    rw [play_read_entries hne] at hnone
    cases hnone
  rw [hkey]
  exact List.mem_singleton.mp hs

/-- `set_cluster_crop` between two reads: the second shows the cluster without its crop. -/
theorem index_misses_crop :
    ¬ ∀ ops : List (CacheOp ℚ), Throughout (sceneService []) (sceneOracle 9)
      (Faithful (sceneService []) (sceneOracle 9)) oneClusterWorld ops := by
  intro h
  let first : CacheOp ℚ := .read (Uuid.fill 1).text
  let crop : CacheOp ℚ := .write (.setClusterCrop (Uuid.fill 3).text (Uuid.fill 1).text (some "crop"))
  have hlast := (h [first, crop, first]).2.2.1
  have hstale : ¬ ((suggestionIndex (sceneService []) (Uuid.fill 1).text).exec
      (answer Platform.exact (sceneOracle 9)) (crop.play (sceneService []) (sceneOracle 9)
        (first.play (sceneService []) (sceneOracle 9) oneClusterWorld))).1.map shown =
      (freshIndex Platform.exact (crop.play (sceneService []) (sceneOracle 9)
        (first.play (sceneService []) (sceneOracle 9) oneClusterWorld)).db (Uuid.fill 1).text).map shown := by
    decide +kernel
  exact hstale hlast

end FacesService.Reader
