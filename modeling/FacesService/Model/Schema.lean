import FacesService.Model.Uuid
import Mathlib.Data.List.Sort
import Mathlib.Data.Rat.Sqrt
import Mathlib.Data.Rat.Floor
import Mathlib.Data.List.DropRight
import Mathlib.Data.List.Find
import Mathlib.Algebra.Field.Defs

/-!
The two tables of the `faces` database and the statements `db.py` runs on
them: each function here is one SQL shape (`UPDATE … WHERE p`, `DELETE …
WHERE p`, `INSERT`), with the constraints the schema puts on it. A table is the
list of its rows in the order Postgres happens to return them.
-/

namespace FacesService

/-- A row of `clusters`. Timestamps are counted in microseconds. -/
structure Cluster (K : Type) where
  id : Uuid
  ownerId : Uuid
  name : Option String
  isNamed : Bool
  centroid : List K
  sampleCount : ℕ
  cropObject : Option String
  createdAt : ℕ
  updatedAt : ℕ
  deriving DecidableEq

/-- The row of a nameless cluster without a crop. -/
def Cluster.anonymous {K : Type} (id ownerId : Uuid) (centroid : List K) (sampleCount : ℕ) :
    Cluster K where
  id := id
  ownerId := ownerId
  name := none
  isNamed := false
  centroid := centroid
  sampleCount := sampleCount
  cropObject := none
  createdAt := 0
  updatedAt := 0

/-- A row of `face_occurrences`. The column `cluster_id` is nullable, but
every statement that inserts a row casts a cluster id into it. -/
structure Occurrence (K : Type) where
  ownerId : Uuid
  streamId : Uuid
  clusterId : Uuid
  embedding : List K
  tSeconds : K
  confidence : K
  createdAt : ℕ
  deriving DecidableEq

/-- The unique key of `face_occurrences`. -/
def Occurrence.key {K : Type} (o : Occurrence K) : Uuid × Uuid × K :=
  (o.streamId, o.clusterId, o.tSeconds)

structure Database (K : Type) where
  clusters : List (Cluster K)
  occurrences : List (Occurrence K)
  deriving DecidableEq

/-- The numbers of the service: ordered, with operations that may round. Of
the laws of arithmetic only the one IEEE multiplication keeps is asked for. -/
class Arithmetic (K : Type) extends
  Add K, Sub K, Neg K, CommMagma K, Div K, Zero K, One K, NatCast K, LinearOrder K

/-- The numerals of the thresholds and of the sampling interval. -/
instance atLeastTwo_two : Nat.AtLeastTwo 2 := ⟨by decide⟩

instance atLeastTwo_five : Nat.AtLeastTwo 5 := ⟨by decide⟩

/-- Exact arithmetic. -/
instance (priority := low) Arithmetic.ofField {K : Type} [Field K] [LinearOrder K] :
    Arithmetic K where

/-- What the code takes from outside `src/`: the binary64 and numpy
operations that are not field operations, the locale of Postgres, and the
order in which Postgres returns rows to a query that asks for none. -/
structure Platform (K : Type) where
  /-- `t + 1e-4` -/
  nudge : K → K
  /-- `float(f"{v:f}")` -/
  fmt : K → K
  /-- rounding to float32 -/
  single : K → K
  sqrt : K → K
  /-- `int(x)` -/
  trunc : K → ℤ
  /-- `round(x)`, which rounds a half to the even neighbour -/
  round : K → ℤ
  /-- `round(x, 4)` -/
  round4 : K → K
  /-- `float(s)`; what is no number at all and what is `nan` are not told apart -/
  parseFloat : String → Option K
  lower : String → String
  /-- the case folding of `ILIKE` -/
  foldCase : Char → Char
  /-- the collation of `ORDER BY name` -/
  collate : String → String → Bool
  scan : Uuid → List (Occurrence K) → List (Occurrence K)
  scan_perm : ∀ id rows, (scan id rows).Perm rows

/-- The nearest integer, of two the even one. -/
def roundHalfEven (x : ℚ) : ℤ :=
  let below := ⌊x⌋
  if x - below < 1 / 2 then below
  else if 1 / 2 < x - below then below + 1
  else if below % 2 = 0 then below else below + 1

/-- Exact rational arithmetic: no rounding anywhere, rows in table order. The
square root is exact on the squares of rationals; only integers are parsed. -/
def Platform.exact : Platform ℚ where
  nudge t := t + 1 / 10000
  fmt := id
  single := id
  sqrt := Rat.sqrt
  trunc x := if 0 ≤ x then ⌊x⌋ else ⌈x⌉
  round := roundHalfEven
  round4 x := roundHalfEven (x * 10000) / 10000
  parseFloat s := s.toInt?.map fun n => (n : ℚ)
  lower := String.toLower
  foldCase := Char.toLower
  collate a b := a ≤ b
  scan _ rows := rows
  scan_perm _ _ := .refl _

/-- The characters `str.strip()` removes. -/
def isSpace (c : Char) : Bool :=
  let n := c.toNat
  (0x09 ≤ n && n ≤ 0x0D) || (0x1C ≤ n && n ≤ 0x20) || n = 0x85 || n = 0xA0 || n = 0x1680 ||
    (0x2000 ≤ n && n ≤ 0x200A) || n = 0x2028 || n = 0x2029 || n = 0x202F || n = 0x205F || n = 0x3000

/-- `str.strip()`. -/
def pyStrip (s : String) : String :=
  String.ofList ((s.toList.dropWhile isSpace).rdropWhile isSpace)

/-- No whitespace at either end. -/
def Trimmed (s : String) : Prop :=
  (∀ c ∈ s.toList.head?, isSpace c = false) ∧ ∀ c ∈ s.toList.getLast?, isSpace c = false

theorem head?_of_prefix {α : Type} {l l' : List α} {a : α} (h : l <+: l')
    (ha : l.head? = some a) : l'.head? = some a := by
  obtain ⟨tail, rfl⟩ := h
  cases l with
  | nil => cases ha
  | cons b l => exact ha

theorem pyStrip_trimmed (s : String) : Trimmed (pyStrip s) := by
  constructor
  · intro c hc
    simp only [pyStrip, String.toList_ofList] at hc
    have hfront : (s.toList.dropWhile isSpace).head? = some c :=
      head?_of_prefix (List.rdropWhile_prefix _ _) hc
    simpa [hfront] using List.head?_dropWhile_not isSpace s.toList
  · intro c hc
    simp only [pyStrip, String.toList_ofList] at hc
    have hne : (s.toList.dropWhile isSpace).rdropWhile isSpace ≠ [] := by
      intro hnil
      simp [hnil] at hc
    have hlast := List.rdropWhile_last_not isSpace (s.toList.dropWhile isSpace) hne
    rw [List.getLast?_eq_some_getLast hne, Option.mem_def, Option.some.injEq] at hc
    simpa [hc] using hlast

namespace Database

variable {K : Type}

/-! ### Queries -/

/-- `SELECT … FROM clusters WHERE id = …`. -/
def clusterById (db : Database K) (id : Uuid) : Option (Cluster K) :=
  db.clusters.find? fun c => c.id = id

/-- `SELECT count(*) FROM face_occurrences WHERE cluster_id = …`. -/
def countFor (db : Database K) (id : Uuid) : ℕ :=
  db.occurrences.countP fun o => o.clusterId = id

/-! ### Statements -/

/-- `UPDATE clusters SET … WHERE p`. -/
def updateClusters (db : Database K) (p : Cluster K → Bool) (f : Cluster K → Cluster K) :
    Database K :=
  { db with clusters := db.clusters.map fun c => if p c then f c else c }

/-- `UPDATE clusters SET sample_count = (SELECT count(*) FROM face_occurrences
WHERE cluster_id = clusters.id), updated_at = now() WHERE p`. -/
def recount (db : Database K) (now : ℕ) (p : Cluster K → Bool) : Database K :=
  db.updateClusters p fun c => { c with sampleCount := db.countFor c.id, updatedAt := now }

/-- `DELETE FROM face_occurrences WHERE p`. -/
def deleteOccurrences (db : Database K) (p : Occurrence K → Bool) : Database K :=
  { db with occurrences := db.occurrences.filter fun o => !p o }

/-- `DELETE FROM clusters WHERE p`; the foreign key is `ON DELETE CASCADE`. -/
def deleteClusters (db : Database K) (p : Cluster K → Bool) : Database K where
  clusters := db.clusters.filter fun c => !p c
  occurrences := db.occurrences.filter fun o =>
    !db.clusters.any fun c => p c && c.id = o.clusterId

/-- `INSERT INTO clusters`, under the primary key. -/
def insertCluster (db : Database K) (c : Cluster K) : Except PyError (Database K) :=
  match db.clusterById c.id with
  | some _ => .error .integrity
  | none => .ok { db with clusters := db.clusters ++ [c] }

variable [DecidableEq K]

/-- `INSERT INTO face_occurrences`, under the foreign key and the unique key. -/
def insertOccurrence (db : Database K) (o : Occurrence K) : Except PyError (Database K) :=
  if db.occurrences.any fun o' => o'.key = o.key then .error .integrity
  else match db.clusterById o.clusterId with
    | none => .error .integrity
    | some _ => .ok { db with occurrences := db.occurrences ++ [o] }

/-- `INSERT INTO face_occurrences … ON CONFLICT (stream_id, cluster_id,
t_seconds) DO NOTHING`, with its row count. -/
def insertOccurrenceIfNew (db : Database K) (o : Occurrence K) :
    Except PyError (ℕ × Database K) :=
  if db.occurrences.any fun o' => o'.key = o.key then .ok (0, db)
  else match db.clusterById o.clusterId with
    | none => .error .integrity
    | some _ => .ok (1, { db with occurrences := db.occurrences ++ [o] })

end Database

end FacesService
