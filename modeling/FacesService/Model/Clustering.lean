import FacesService.Base.CliqueCover
import FacesService.Model.Schema
import Mathlib.Data.List.MinMax
import Mathlib.Data.Prod.Lex

/-!
`app/clustering.py`, without the cache. Vectors are lists; an operation on two
vectors of different lengths raises where numpy raises.
-/

namespace FacesService

/-- A cluster as `match_cluster` reads it from a dict. -/
structure Known (K : Type) where
  id : String
  isNamed : Bool
  centroid : List K
  sampleCount : ℕ
  deriving DecidableEq

def Known.ofRow {K : Type} (c : Cluster K) : Known K where
  id := c.id.text
  isNamed := c.isNamed
  centroid := c.centroid
  sampleCount := c.sampleCount

variable {K : Type} [Arithmetic K]

/-! ### Vectors -/

/-- `np.asarray(a, dtype=np.float32)`. -/
def asFloat32 (pf : Platform K) (a : List K) : List K := a.map pf.single

def dot (a b : List K) : K := (List.zipWith (· * ·) a b).sum

/-- `np.linalg.norm`. -/
def norm (pf : Platform K) (a : List K) : K := pf.sqrt (dot a a)

/-- `a + b` on arrays of one axis, where an array of length one is broadcast. -/
def addArrays (a b : List K) : Except PyError (List K) :=
  if a.length = b.length then .ok (List.zipWith (· + ·) a b)
  else match a, b with
    | [x], b => .ok (b.map (x + ·))
    | a, [y] => .ok (a.map (· + y))
    | _, _ => .error .valueError

/-- `cosine_similarity`. -/
def cosineSimilarity (pf : Platform K) (a b : List K) : Except PyError K :=
  let n := norm pf a * norm pf b
  if n = 0 then .ok 0
  else if a.length ≠ b.length then .error .valueError
  else .ok (dot a b / n)

/-- A vector over its norm, the zero vector being left as it is. -/
def unitRow (pf : Platform K) (a : List K) : List K :=
  let n := norm pf a
  a.map (· / if n = 0 then 1 else n)

/-! ### Matching -/

/-- One round of the loop of `match_cluster`. -/
def matchStep (pf : Platform K) (embedding : List K) (matchThreshold unknownThreshold : K)
    (best : Option String × K) (c : Known K) : Except PyError (Option String × K) := do
  let sim ← cosineSimilarity pf embedding (asFloat32 pf c.centroid)
  let threshold := if c.isNamed then matchThreshold else unknownThreshold
  if threshold ≤ sim ∧ (best.1 = none ∨ best.2 < sim) then .ok (some c.id, sim) else .ok best

/-- `match_cluster`. -/
def matchCluster (pf : Platform K) (embedding : List K) (clusters : List (Known K))
    (matchThreshold unknownThreshold : K) : Except PyError (Option String × K) :=
  clusters.foldlM (matchStep pf embedding matchThreshold unknownThreshold) (none, matchThreshold)

/-- `merge_centroid`. -/
def mergeCentroid (pf : Platform K) (existing : List K) (count : ℕ) (new : List K) :
    Except PyError (List K) :=
  if count = 0 then .ok (asFloat32 pf new)
  else do
    let sum ← addArrays (existing.map (· * (count : K))) new
    .ok (sum.map (· / ((count + 1 : ℕ) : K)))

/-! ### The suggestion index -/

/-- The rows of the matrix, each next to its entry of `meta`. -/
abbrev SuggestionIndex (K : Type) := List (List K × Cluster K)

/-- `np.stack`: all rows of one length. -/
def Stackable (clusters : List (Cluster K)) : Prop :=
  ∀ c ∈ clusters, ∀ d ∈ clusters, c.centroid.length = d.centroid.length

instance (clusters : List (Cluster K)) : Decidable (Stackable clusters) :=
  inferInstanceAs (Decidable (∀ c ∈ clusters, ∀ d ∈ clusters, _))

/-- `if not centroid: continue`. -/
def withCentroid (clusters : List (Cluster K)) : List (Cluster K) :=
  clusters.filter fun c => c.centroid ≠ []

/-- `build_suggestion_index`. -/
def buildSuggestionIndex (pf : Platform K) (clusters : List (Cluster K)) :
    Except PyError (SuggestionIndex K) :=
  let rows := withCentroid clusters
  if Stackable rows then .ok (rows.map fun c => (unitRow pf (asFloat32 pf c.centroid), c))
  else .error .valueError

/-- `best_match`: the first row of the greatest similarity, if it clears `floor`. -/
def bestMatch (pf : Platform K) (index : SuggestionIndex K) (embedding : List K) (floor : K) :
    Except PyError (Option (Cluster K) × K) :=
  if index = [] then .ok (none, 0)
  else
    let query := asFloat32 pf embedding
    let n := norm pf query
    if n = 0 then .ok (none, 0)
    else if index.any fun row => row.1.length ≠ query.length then .error .valueError
    else
      let sim := fun row : List K × Cluster K => dot row.1 (query.map (· / n))
      match index.argmax sim with
      | none => .error .valueError
      | some row => if sim row < floor then .ok (none, sim row) else .ok (some row.2, sim row)

/-- `iou` of two boxes `[x1, y1, x2, y2]`. -/
def iou (a b : K × K × K × K) : K :=
  let (ax1, ay1, ax2, ay2) := a
  let (bx1, by1, bx2, by2) := b
  let (ix1, iy1) := (max ax1 bx1, max ay1 by1)
  let (ix2, iy2) := (min ax2 bx2, min ay2 by2)
  let (iw, ih) := (max 0 (ix2 - ix1), max 0 (iy2 - iy1))
  let inter := iw * ih
  if inter ≤ 0 then 0
  else
    let areaA := max 0 (ax2 - ax1) * max 0 (ay2 - ay1)
    let areaB := max 0 (bx2 - bx1) * max 0 (by2 - by1)
    let union := areaA + areaB - inter
    if 0 < union then inter / union else 0

/-- `face_is_large_enough`, on a frame of this height. -/
def faceIsLargeEnough (bbox : K × K × K × K) (frameHeight : ℕ) (minRatio : K) : Bool :=
  if minRatio ≤ 0 then true
  else
    let height := bbox.2.2.2 - bbox.2.1
    if height ≤ 0 then false else minRatio * (frameHeight : K) ≤ height

/-! ### Similarity groups -/

/-- `SIMILARITY_THRESHOLD`. -/
def similarityThreshold : K := 1 / 2

/-- `EXACT_DUPLICATE_THRESHOLD`. -/
def exactDuplicateThreshold : K := 995 / 1000

/-- An entry of the matrix `sims`: the cosine of two centroids, clipped. -/
def similarity (pf : Platform K) (a b : Cluster K) : K :=
  min (max (dot (unitRow pf (asFloat32 pf a.centroid)) (unitRow pf (asFloat32 pf b.centroid))) (-1)) 1

theorem similarity_comm (pf : Platform K) (a b : Cluster K) :
    similarity pf a b = similarity pf b a := by
  have hdot : ∀ v w : List K, dot v w = dot w v := fun v w => by
    rw [dot, dot, List.zipWith_comm_of_comm mul_comm]
  rw [similarity, similarity, hdot]

/-- `sorted(l, key=key, reverse=True)`, which keeps equal keys in order. -/
def sortDesc {α β : Type} [LinearOrder β] (key : α → β) (l : List α) : List α :=
  l.insertionSort fun a b => key b ≤ key a

structure Member (K : Type) where
  cluster : Cluster K
  sim : K
  deriving DecidableEq

structure Group (K : Type) where
  rep : Cluster K
  members : List (Member K)
  maxSim : K
  deriving DecidableEq

/-- The representative and the members. -/
def Group.clusters (g : Group K) : List (Cluster K) := g.rep :: g.members.map (·.cluster)

section Greedy

variable (pf : Platform K) (threshold : K) (rows : List (Cluster K))

/-- `degrees[i]`; the diagonal does not count. -/
def degree (i : Fin rows.length) : ℕ :=
  (List.finRange rows.length).countP fun j =>
    threshold ≤ similarity pf (rows.get i) (rows.get j) && i ≠ j

/-- The key the seeds are ordered by. -/
def seedKey (i : Fin rows.length) : ℕ ×ₗ Bool ×ₗ ℕ :=
  toLex (degree pf threshold rows i, toLex ((rows.get i).isNamed, (rows.get i).sampleCount))

/-- The key the representative is chosen by. -/
def repKey (i : Fin rows.length) : Bool ×ₗ ℕ :=
  toLex ((rows.get i).isNamed, (rows.get i).sampleCount)

/-- The greedy loop: cliques of similar rows, at most one of them named, a seed
offering its most similar neighbours first. -/
def similarityCover : CliqueCover (Fin rows.length) where
  items := List.finRange rows.length
  adj i j := threshold ≤ similarity pf (rows.get i) (rows.get j)
  symm i j := by rw [similarity_comm]
  exclusive i := (rows.get i).isNamed
  arrange i l := sortDesc (fun j => similarity pf (rows.get i) (rows.get j)) l
  arrange_perm _ l := List.perm_insertionSort _ l

/-- The group of a clique around its representative. -/
def groupOf (clique : List (Fin rows.length)) (rep : Fin rows.length) : Group K :=
  let members := sortDesc (·.sim) ((clique.filter (· ≠ rep)).map fun k =>
    (⟨rows.get k, similarity pf (rows.get rep) (rows.get k)⟩ : Member K))
  { rep := rows.get rep
    members := members
    maxSim := (members.map (·.sim)).max?.getD 0 }

/-- `groups`, in the order of the seeds. -/
def groupsOf (order : List (Fin rows.length)) : List (Group K) :=
  ((similarityCover pf threshold rows).cover order []).filterMap fun clique =>
    (clique.argmax (repKey rows)).map (groupOf pf rows clique)

end Greedy

/-- `build_similarity_groups`. -/
def buildSimilarityGroups (pf : Platform K) (clusters : List (Cluster K)) (threshold : K) :
    Except PyError (List (Group K)) :=
  let rows := withCentroid clusters
  if rows.length < 2 then .ok []
  else if Stackable rows then
    let order := sortDesc (seedKey pf threshold rows) (List.finRange rows.length)
    .ok (sortDesc (·.maxSim) (groupsOf pf threshold rows order))
  else .error .valueError

/-- `select_exact_duplicate_groups`. -/
def selectExactDuplicateGroups (groups : List (Group K)) (threshold : K) : List (Group K) :=
  groups.filter fun g => g.members ≠ [] && g.members.all fun m => threshold ≤ m.sim

end FacesService
