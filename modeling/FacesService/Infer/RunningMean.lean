import FacesService.Infer.Persist
import Mathlib.Tactic.FieldSimp
import Mathlib.Tactic.LinearCombination

/-!
The centroid as a running mean, in exact arithmetic. A matched cluster keeps
`count · centroid` equal to the sum of what went into it, so what the run
writes is the mean the README describes. A cluster the run creates does not:
it is entered with its first embedding and the count zero, and at the count
zero `merge_centroid` drops the centroid it is given.
-/

namespace FacesService

open Prog Fallible Database

/-! ### Means -/

section Means

variable {K : Type} [Field K] [LinearOrder K]

/-- No rounding: not to float32 and not in the storage format. -/
structure Platform.Exact {K : Type} (pf : Platform K) : Prop where
  single : pf.single = id
  fmt : pf.fmt = id

/-- `e₁ + … + eₖ`. -/
def sumArrays : List (List K) → Except PyError (List K)
  | [] => .ok []
  | e :: es => es.foldlM addArrays e

/-- `n·m + e₁ + … + eₖ`; without samples there is no `m`. -/
def totalWith (n : ℕ) (m : List K) (es : List (List K)) : Except PyError (List K) :=
  if n = 0 then sumArrays es else es.foldlM addArrays (m.map (· * (n : K)))

/-- `(n·m + e₁ + … + eₖ) / (n + k)`. -/
def meanWith (n : ℕ) (m : List K) (es : List (List K)) : Except PyError (List K) := do
  let total ← totalWith n m es
  .ok (total.map (· / ((n + es.length : ℕ) : K)))

/-- The plain mean. -/
def mean (es : List (List K)) : Except PyError (List K) := meanWith 0 [] es

theorem mean_singleton (e : List K) : mean [e] = .ok e := by
  rw [mean, meanWith, totalWith, if_pos rfl, sumArrays, List.foldlM_nil]
  change Except.ok (e.map (· / ((0 + 1 : ℕ) : K))) = .ok e
  simp

/-- What a cluster stands for: its centroid, as often as it has samples. -/
def Known.weight (k : Known K) : List K := k.centroid.map (· * (k.sampleCount : K))

variable {pf : Platform K} {k k' c : Known K} {e : List K} {es : List (List K)}

omit [Field K] [LinearOrder K] in
theorem asFloat32_exact (h : pf.Exact) (a : List K) : asFloat32 pf a = a := by
  rw [asFloat32, h.single, List.map_id]

omit [Field K] [LinearOrder K] in
theorem toListArray_exact (h : pf.Exact) (a : List K) : Db.toListArray pf a = a := by
  rw [Db.toListArray, h.fmt, List.map_id]

/-- With samples behind it, a cluster adds the embedding to what it stands for. -/
theorem absorb_weight [CharZero K] (hexact : pf.Exact) (hcount : k.sampleCount ≠ 0)
    (h : absorb pf k e = .ok c) : addArrays k.weight e = .ok c.weight := by
  unfold absorb mergeCentroid at h
  simp only [asFloat32_exact hexact] at h
  rw [if_neg hcount] at h
  obtain ⟨merged, hmerged, h⟩ := bind_eq_ok.mp h
  obtain ⟨sum, hsum, hdiv⟩ := bind_eq_ok.mp hmerged
  cases hdiv
  cases h
  have hne : ((k.sampleCount + 1 : ℕ) : K) ≠ 0 := Nat.cast_ne_zero.mpr (Nat.succ_ne_zero _)
  have hback : ((· * ((k.sampleCount + 1 : ℕ) : K)) ∘ fun x => x / ((k.sampleCount + 1 : ℕ) : K)) =
      id := by
    ext x
    exact div_mul_cancel₀ x hne
  simp only [Known.weight, List.map_map, hback, List.map_id]
  exact hsum

/-- Without samples it becomes the embedding. -/
theorem absorb_first (hexact : pf.Exact) (hcount : k.sampleCount = 0) (h : absorb pf k e = .ok c) :
    c.weight = e := by
  unfold absorb mergeCentroid at h
  simp only [asFloat32_exact hexact] at h
  rw [if_pos hcount] at h
  cases h
  rw [Known.weight]
  simp [hcount]

theorem absorbAll_count (h : absorbAll pf k es = .ok k') :
    k'.sampleCount = k.sampleCount + es.length := by
  induction es generalizing k with
  | nil =>
      cases h
      rfl
  | cons e es ih =>
      obtain ⟨c, hc, hrest⟩ := bind_eq_ok.mp h
      rw [ih hrest, (absorb_id hc).2.2, List.length_cons]
      omega

theorem absorbAll_weight [CharZero K] (hexact : pf.Exact) (hcount : k.sampleCount ≠ 0)
    (h : absorbAll pf k es = .ok k') : es.foldlM addArrays k.weight = .ok k'.weight := by
  induction es generalizing k with
  | nil =>
      cases h
      rfl
  | cons e es ih =>
      obtain ⟨c, hc, hrest⟩ := bind_eq_ok.mp h
      rw [List.foldlM_cons, absorb_weight hexact hcount hc, ok_bind]
      refine ih ?_ hrest
      rw [(absorb_id hc).2.2]
      exact Nat.succ_ne_zero _

theorem weight_div [CharZero K] (hcount : k.sampleCount ≠ 0) :
    k.weight.map (· / (k.sampleCount : K)) = k.centroid := by
  have hne : (k.sampleCount : K) ≠ 0 := Nat.cast_ne_zero.mpr hcount
  rw [Known.weight, List.map_map]
  refine (List.map_congr_left fun x _ => ?_).trans (List.map_id _)
  exact mul_div_cancel_right₀ x hne

/-- **The loop invariant of the mean**: a cluster that has absorbed embeddings
is the mean of them and of what it was. -/
theorem absorbAll_mean [CharZero K] (hexact : pf.Exact) (hes : es ≠ [])
    (h : absorbAll pf k es = .ok k') : meanWith k.sampleCount k.centroid es = .ok k'.centroid := by
  have hcount := absorbAll_count h
  have hne : k'.sampleCount ≠ 0 := by
    have hlen := List.length_pos_of_ne_nil hes
    omega
  have htotal : totalWith k.sampleCount k.centroid es = .ok k'.weight := by
    unfold totalWith
    by_cases hzero : k.sampleCount = 0
    · rw [if_pos hzero]
      cases es with
      | nil => exact absurd rfl hes
      | cons e es =>
          obtain ⟨c, hc, hrest⟩ := bind_eq_ok.mp h
          have hcne : c.sampleCount ≠ 0 := by
            rw [(absorb_id hc).2.2]
            exact Nat.succ_ne_zero _
          rw [sumArrays, ← absorb_first hexact hzero hc]
          exact absorbAll_weight hexact hcne hrest
    · rw [if_neg hzero]
      exact absorbAll_weight hexact hzero h
  rw [meanWith, htotal, ok_bind, ← hcount, weight_div hne]

/-! ### Leaving the first one out -/

theorem foldlM_addArrays {d : ℕ} {a : List K} (ha : a.length = d) (hes : ∀ e ∈ es, e.length = d) :
    ∃ total, es.foldlM addArrays a = .ok total ∧ total.length = d := by
  induction es generalizing a with
  | nil => exact ⟨a, rfl, ha⟩
  | cons e es ih =>
      have he := hes e List.mem_cons_self
      have hadd : addArrays a e = .ok (List.zipWith (· + ·) a e) := if_pos (ha.trans he.symm)
      rw [List.foldlM_cons, hadd, ok_bind]
      refine ih ?_ fun e' he' => hes e' (List.mem_cons_of_mem _ he')
      rw [List.length_zipWith, ha, he, min_self]

theorem zipWith_add_assoc (a b c : List K) :
    List.zipWith (· + ·) (List.zipWith (· + ·) a b) c =
      List.zipWith (· + ·) a (List.zipWith (· + ·) b c) := by
  induction a generalizing b c with
  | nil => rfl
  | cons x a ih =>
      cases b with
      | nil => rfl
      | cons y b =>
          cases c with
          | nil => rfl
          | cons z c => simp only [List.zipWith_cons_cons, ih, add_assoc]

theorem foldlM_addArrays_add {d : ℕ} {a b total : List K} (ha : a.length = d) (hb : b.length = d)
    (hes : ∀ e ∈ es, e.length = d) (h : es.foldlM addArrays b = .ok total) :
    es.foldlM addArrays (List.zipWith (· + ·) a b) = .ok (List.zipWith (· + ·) a total) := by
  induction es generalizing b with
  | nil =>
      cases h
      rfl
  | cons e es ih =>
      have he := hes e List.mem_cons_self
      have hlen : ∀ v w : List K, v.length = d → w.length = d →
          (List.zipWith (· + ·) v w).length = d := fun v w hv hw => by
        rw [List.length_zipWith, hv, hw, min_self]
      have hadd : ∀ v : List K, v.length = d →
          addArrays v e = .ok (List.zipWith (· + ·) v e) := fun v hv => if_pos (hv.trans he.symm)
      rw [List.foldlM_cons, hadd _ hb, ok_bind] at h
      rw [List.foldlM_cons, hadd _ (hlen a b ha hb), ok_bind]
      rw [zipWith_add_assoc]
      exact ih (hlen b e hb he) (fun e' he' => hes e' (List.mem_cons_of_mem _ he')) h

theorem div_succ_eq_iff [CharZero K] {n : ℕ} (hn : n ≠ 0) {a total : List K}
    (hlen : a.length = total.length) :
    (List.zipWith (· + ·) a total).map (· / ((n + 1 : ℕ) : K)) = total.map (· / (n : K)) ↔
      total.map (· / (n : K)) = a := by
  have hn₀ : (n : K) ≠ 0 := Nat.cast_ne_zero.mpr hn
  have hn₁ : (n : K) + 1 ≠ 0 := by exact_mod_cast Nat.succ_ne_zero n
  induction a generalizing total with
  | nil =>
      have hnil : total = [] := List.length_eq_zero_iff.mp hlen.symm
      simp [hnil]
  | cons x a ih =>
      cases total with
      | nil => cases hlen
      | cons t total =>
          have hscalar : (x + t) / ((n + 1 : ℕ) : K) = t / n ↔ t / n = x := by
            rw [Nat.cast_add, Nat.cast_one, div_eq_div_iff hn₁ hn₀, div_eq_iff hn₀]
            constructor
            · intro h
              linear_combination -h
            · intro h
              linear_combination -h
          rw [List.zipWith_cons_cons, List.map_cons, List.map_cons, List.cons_eq_cons,
            List.cons_eq_cons]
          exact and_congr hscalar (ih (Nat.succ.inj hlen))

/-- The mean of the rest is the mean of all exactly if it is what was left out. -/
theorem mean_cons_eq_iff [CharZero K] {d : ℕ} (he : e.length = d) (hes : ∀ f ∈ es, f.length = d)
    (hne : es ≠ []) {v : List K} (hv : mean es = .ok v) : mean (e :: es) = .ok v ↔ mean es = .ok e := by
  cases es with
  | nil => exact absurd rfl hne
  | cons f es =>
      have hf := hes f List.mem_cons_self
      have hes' : ∀ g ∈ es, g.length = d := fun g hg => hes g (List.mem_cons_of_mem _ hg)
      obtain ⟨total, htotal, hlen⟩ := foldlM_addArrays hf hes'
      have hrest : mean (f :: es) = .ok (total.map (· / ((es.length + 1 : ℕ) : K))) := by
        rw [mean, meanWith, totalWith, if_pos rfl, sumArrays, htotal, ok_bind, Nat.zero_add, List.length_cons]
      have hall : mean (e :: f :: es) = .ok ((List.zipWith (· + ·) e total).map
          (· / ((es.length + 1 + 1 : ℕ) : K))) := by
        have hadd : addArrays e f = .ok (List.zipWith (· + ·) e f) := if_pos (he.trans hf.symm)
        rw [mean, meanWith, totalWith, if_pos rfl, sumArrays, List.foldlM_cons, hadd, ok_bind,
          foldlM_addArrays_add he hf hes' htotal, ok_bind, Nat.zero_add, List.length_cons,
          List.length_cons]
      rw [hrest, Except.ok.injEq] at hv
      rw [hall, hrest, ← hv, Except.ok.injEq, Except.ok.injEq]
      exact div_succ_eq_iff (Nat.succ_ne_zero _) (he.trans hlen.symm)

end Means

/-! ### What the run writes -/

section Written

variable {K : Type} [Arithmetic K] {svc : Service K} {oracle : Oracle}

/-- Every cluster the run touched ends in the store with the centroid it has in
memory. -/
theorem run_writes_centroids {args : RunArgs} {r : RunResult} {w w' : World K}
    (hids : (w.db.clusters.map (·.id)).Nodup)
    (h : (run svc args).exec (answer svc.pf oracle) w = (.ok r, w')) :
    ∃ placed final, matching svc (drawn oracle w) (startState w.db args.ownerId).known 0
        (runSightings svc args w.objects) = .ok (placed, final) ∧
      (final.map (·.id)).Nodup ∧ (w'.db.clusters.map (·.id)).Nodup ∧
      ∀ k ∈ final, k.id ∈ placed.map (·.1) →
        ∃ row ∈ w'.db.clusters, row.id.text = k.id ∧ row.centroid = Db.toListArray svc.pf k.centroid := by
  obtain ⟨owner, st, n, placed, w₁, howner, -, hplaced, hf, hpersist, -⟩ := run_ok hids h
  obtain ⟨db₁, stream, -, -, -, hclusters, -⟩ := persist_ok howner hf.drift_keys hf.drift_ids hpersist
  have hids' : w'.db.clusters.map (·.id) = w₁.db.clusters.map (·.id) :=
    persisted_column (·.id) (fun _ => rfl) hclusters
  refine ⟨placed, st.known, ?_, hf.nodup, hids' ▸ hf.ids, fun k hk hid => ?_⟩
  · rw [← hplaced]
    exact hf.matching_eq
  · obtain ⟨row, hrow, hrid, hro⟩ := hf.rows k hk
    have hlookup : st.drift.lookup row.id.text = some k.centroid := by
      rw [hrid]
      exact lookup_of_mem hf.drift_keys ((hf.mem_drift k.id k.centroid).mpr ⟨hid, k, hk, rfl, rfl⟩)
    have hmem : (persisted svc.pf owner stream db₁ st.drift row).untimed ∈
        w'.db.clusters.map (·.untimed) := by
      rw [hclusters]
      exact List.mem_map_of_mem hrow
    obtain ⟨row', hrow', heq⟩ := List.mem_map.mp hmem
    refine ⟨row', hrow', ?_, ?_⟩
    · have hid' : row'.id = row.id := congrArg (·.id) heq
      rw [hid', hrid]
    · have hcentroid : row'.centroid =
          (persisted svc.pf owner stream db₁ st.drift row).centroid := congrArg (·.centroid) heq
      rw [hcentroid]
      simp [persisted, drifted, driftOf, recounted, hro, hlookup]

end Written

section Claim

variable {K : Type} [Field K] [LinearOrder K] {svc : Service K} {oracle : Oracle}

/-- The mean of what a cluster was and of the embeddings it received. -/
def meanFrom (known : List (Known K)) (id : String) (es : List (List K)) : Except PyError (List K) :=
  match known.find? fun k => k.id = id with
  | some k => meanWith k.sampleCount k.centroid es
  | none => mean es

/-- Every cluster that received an embedding has the mean as its centroid. -/
def MeansWritten (known : List (Known K)) (placed : List (String × Sighting K)) (db : Database K) :
    Prop :=
  ∀ id ∈ placed.map (·.1), ∃ row ∈ db.clusters, row.id.text = id ∧
    meanFrom known id (received placed id) = .ok row.centroid

/-- Every cluster that is new and received more than one embedding received
the mean of the others first. -/
def FirstIsMean (known : List (Known K)) (placed : List (String × Sighting K)) : Prop :=
  ∀ id ∉ known.map (·.id), ∀ e es, received placed id = e :: es → es ≠ [] → mean es = .ok e

/-- What the run leaves one cluster, against the mean. -/
theorem mean_written_iff [CharZero K] (hexact : svc.pf.Exact) {known final : List (Known K)}
    {ids : ℕ → String} {ss : List (Sighting K)} {placed : List (String × Sighting K)}
    (hmatching : matching svc ids known 0 ss = .ok (placed, final))
    (hnodup : (final.map (·.id)).Nodup) (hdim : ∀ s ∈ ss, s.det.embedding.length = svc.vision.dim)
    {id : String} (hid : id ∈ placed.map (·.1)) :
    ∃ k ∈ final, k.id = id ∧ (meanFrom known id (received placed id) = .ok k.centroid ↔
      (id ∉ known.map (·.id) → ∀ e es, received placed id = e :: es → es ≠ [] → mean es = .ok e)) := by
  have hreceived : ∀ e ∈ received placed id, e.length = svc.vision.dim := by
    intro e he
    obtain ⟨p, hp, rfl⟩ := List.mem_map.mp he
    refine hdim p.2 ?_
    rw [← matching_sightings hmatching]
    exact List.mem_map_of_mem (List.mem_filter.mp hp).1
  by_cases hold : id ∈ known.map (·.id)
  · obtain ⟨k, hk, rfl⟩ := List.mem_map.mp hold
    obtain ⟨k', hk', hid', habs⟩ := matching_known hmatching hnodup hk
    have hfind : known.find? (fun k₀ => k₀.id = k.id) = some k :=
      find_of_mem (hnodup.sublist (matching_ids hmatching).sublist) hk
    refine ⟨k', hk', hid', iff_of_true ?_ fun hnew => absurd hold hnew⟩
    rw [meanFrom, hfind]
    exact absorbAll_mean hexact (received_ne_nil.mpr hid) habs
  · obtain ⟨e, es, k', hes, hk', hid', habs⟩ := matching_created hmatching hnodup hold hid
    have hfind : known.find? (fun k => k.id = id) = none := by
      simpa using hold
    refine ⟨k', hk', hid', ?_⟩
    rw [meanFrom, hfind, hes]
    rw [hes] at hreceived
    by_cases hone : es = []
    · subst hone
      have hk' : k' = Known.created svc.pf id e := by
        cases habs
        rfl
      refine iff_of_true ?_ fun _ e' es' heq hne => ?_
      · rw [hk']
        rw [Known.created, asFloat32_exact hexact, mean_singleton]
      · rw [List.cons.injEq] at heq
        exact absurd heq.2.symm hne
    · have hrest : mean es = .ok k'.centroid := absorbAll_mean hexact hone habs
      have hiff := mean_cons_eq_iff (hreceived e List.mem_cons_self)
        (fun f hf => hreceived f (List.mem_cons_of_mem _ hf)) hone hrest
      rw [hiff]
      constructor
      · rintro h - e' es' heq -
        rw [List.cons.injEq] at heq
        rw [← heq.1, ← heq.2]
        exact h
      · exact fun h => h hold e es rfl hone

/-- **The centroids a run writes.** In a completed run the centroid written for
every cluster that received embeddings is the mean of them and of what the
cluster was, if and only if no cluster was created with an embedding that
differs from the mean of those it received after. -/
theorem means_written_iff [CharZero K] (hexact : svc.pf.Exact) {args : RunArgs} {r : RunResult}
    {w w' : World K} (hids : (w.db.clusters.map (·.id)).Nodup)
    (h : (run svc args).exec (answer svc.pf oracle) w = (.ok r, w')) :
    ∃ placed final, matching svc (drawn oracle w) (startState w.db args.ownerId).known 0
        (runSightings svc args w.objects) = .ok (placed, final) ∧
      (MeansWritten (startState w.db args.ownerId).known placed w'.db ↔
        FirstIsMean (startState w.db args.ownerId).known placed) := by
  obtain ⟨placed, final, hmatching, hnodup, hids', hwritten⟩ := run_writes_centroids hids h
  refine ⟨placed, final, hmatching, ?_⟩
  have hone : ∀ id ∈ placed.map (·.1), (∃ row ∈ w'.db.clusters, row.id.text = id ∧
        meanFrom (startState w.db args.ownerId).known id (received placed id) = .ok row.centroid) ↔
      (id ∉ (startState w.db args.ownerId).known.map (·.id) →
        ∀ e es, received placed id = e :: es → es ≠ [] → mean es = .ok e) := by
    intro id hid
    obtain ⟨k, hk, rfl, hiff⟩ := mean_written_iff hexact hmatching hnodup
      (fun s hs => length_embedding_of_mem hs) hid
    obtain ⟨row, hrow, hrid, hcentroid⟩ := hwritten k hk hid
    rw [toListArray_exact hexact] at hcentroid
    rw [← hiff]
    constructor
    · rintro ⟨row', hrow', hrid', hmean⟩
      have hsame : row' = row := List.inj_on_of_nodup_map hids' hrow' hrow
        (Uuid.text_injective (hrid'.trans hrid.symm))
      rw [← hcentroid, ← hsame]
      exact hmean
    · exact fun hmean => ⟨row, hrow, hrid, hcentroid ▸ hmean⟩
  constructor
  · intro hmeans id hnew e es hes hne
    have hid : id ∈ placed.map (·.1) := received_ne_nil.mp (by rw [hes]; simp)
    exact (hone id hid).mp (hmeans id hid) hnew e es hes hne
  · exact fun hfirst id hid => (hone id hid).mpr fun hnew e es => hfirst id hnew e es

/-- One person on two frames. -/
theorem means_written_iff_scene :
    ∃ placed final, matching (sceneService [[(1, 0)], [(3 / 5, 4 / 5)]]) (drawn (sceneOracle 9) sceneWorld)
        (startState sceneWorld.db sceneArgs.ownerId).known 0
        (runSightings (sceneService [[(1, 0)], [(3 / 5, 4 / 5)]]) sceneArgs sceneWorld.objects) =
          .ok (placed, final) ∧
      (MeansWritten (startState sceneWorld.db sceneArgs.ownerId).known placed
          (sceneAfter [[(1, 0)], [(3 / 5, 4 / 5)]]).db ↔
        FirstIsMean (startState sceneWorld.db sceneArgs.ownerId).known placed) :=
  means_written_iff (r := ⟨2, 2, 0, 0, 2, [(Uuid.fill 3).text], 1⟩) ⟨rfl, rfl⟩ (by decide)
    (scene_run (by decide +kernel))

/-- The person is entered with the first face, which the second one displaces. -/
theorem created_centroid_not_mean :
    ¬ ∀ (svc : Service ℚ) (oracle : Oracle) (args : RunArgs) (r : RunResult) (w w' : World ℚ),
      svc.pf.Exact → (w.db.clusters.map (·.id)).Nodup →
      (run svc args).exec (answer svc.pf oracle) w = (.ok r, w') →
      ∀ placed final, matching svc (drawn oracle w) (startState w.db args.ownerId).known 0
          (runSightings svc args w.objects) = .ok (placed, final) →
        MeansWritten (startState w.db args.ownerId).known placed w'.db := by
  intro h
  let svc := sceneService [[(1, 0)], [(3 / 5, 4 / 5)]]
  have hreceived : (matching svc (drawn (sceneOracle 9) sceneWorld)
      (startState sceneWorld.db sceneArgs.ownerId).known 0
      (runSightings svc sceneArgs sceneWorld.objects)).map
        (fun p => (p.1.map (·.1), received p.1 (Uuid.fill 3).text)) =
      .ok ([(Uuid.fill 3).text, (Uuid.fill 3).text], [[1, 0], [3 / 5, 4 / 5]]) := by
    decide +kernel
  have hcentroid : ∀ row ∈ (sceneAfter [[(1, 0)], [(3 / 5, 4 / 5)]]).db.clusters,
      row.centroid = [3 / 5, 4 / 5] := by
    decide +kernel
  obtain ⟨⟨placed, final⟩, hmatching, hvalue⟩ := map_eq_ok.mp hreceived
  rw [Prod.mk.injEq] at hvalue
  have hmeans := h svc (sceneOracle 9) sceneArgs ⟨2, 2, 0, 0, 2, [(Uuid.fill 3).text], 1⟩ sceneWorld _
    ⟨rfl, rfl⟩ (by decide) (scene_run (by decide +kernel)) placed final hmatching
  obtain ⟨row, hrow, -, hmean⟩ := hmeans (Uuid.fill 3).text (by rw [hvalue.1]; simp)
  rw [hvalue.2, hcentroid row hrow] at hmean
  exact absurd hmean (by decide +kernel)

end Claim

end FacesService
