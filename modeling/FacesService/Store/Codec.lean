import FacesService.Base.Decimal
import FacesService.Base.HalfEven
import FacesService.Store.MergeOrder
import Mathlib.Data.List.Forall2

/-!
The text form of a vector. `_tolist_array` writes six decimals of each component,
`_from_list_array` reads them back, and what comes back is the component rounded
to a multiple of `1e-6`. To round it again changes nothing, so an embedding that
has been written once is copied by every later merge as it is.
-/

namespace FacesService

open Database Fallible Db

/-! ### The codec -/

namespace Codec

/-- `f"{v:f}"`. -/
def formatted (v : ℚ) : List Char :=
  Decimal.numeral (decide (v < 0)) 6 (roundHalfEven (v * 10 ^ 6)).natAbs

/-- `_tolist_array`. -/
def tolistArray (a : List ℚ) : List Char :=
  '{' :: [','].intercalate (a.map formatted) ++ ['}']

/-- `s.strip(chars)`. -/
def strip (chars : Char → Bool) (s : List Char) : List Char :=
  (s.dropWhile chars).rdropWhile chars

/-- `float(s)`; underscores, `inf` and `nan` are not read. -/
def float (s : List Char) : Option ℚ := Decimal.value (strip isSpace s)

def isBrace (c : Char) : Bool := c = '{' || c = '}'

/-- What the driver has for a column of type `float8[]`. -/
inductive Column
  | null
  | list (a : List ℚ)
  | text (s : List Char)

/-- `_from_list_array`; `none` is a `ValueError`. -/
def fromListArray : Column → Option (List ℚ)
  | .null => some []
  | .list a => some a
  | .text s =>
      let body := strip isBrace s
      if body = [] then some [] else (body.splitOn ',').mapM float

/-- Rounded to six decimals. -/
def sixDecimals (v : ℚ) : ℚ := roundHalfEven (v * 10 ^ 6) / 10 ^ 6

/-! ### One component -/

theorem roundHalfEven_eq (x : ℚ) : roundHalfEven x = HalfEven.nearest x := rfl

theorem abs_sub_sixDecimals_le (v : ℚ) : |v - sixDecimals v| ≤ 5 / 10 ^ 7 := by
  have hnear := abs_le.mp (HalfEven.abs_sub_nearest_le (v * 10 ^ 6))
  rw [sixDecimals, roundHalfEven_eq, abs_le]
  constructor <;> linarith [hnear.1, hnear.2]

theorem sixDecimals_sixDecimals (v : ℚ) : sixDecimals (sixDecimals v) = sixDecimals v := by
  have hscale : sixDecimals v * 10 ^ 6 = (roundHalfEven (v * 10 ^ 6) : ℚ) :=
    div_mul_cancel₀ _ (by norm_num)
  rw [sixDecimals, hscale, roundHalfEven_eq, HalfEven.nearest_intCast]
  rfl

/-- The sign that is written is the sign of what is written. -/
theorem sign_mul_natAbs (v : ℚ) :
    (if decide (v < 0) then -1 else 1) * (((roundHalfEven (v * 10 ^ 6)).natAbs : ℕ) : ℚ) =
      roundHalfEven (v * 10 ^ 6) := by
  have hnear := abs_le.mp (HalfEven.abs_sub_nearest_le (v * 10 ^ 6))
  rw [← roundHalfEven_eq] at hnear
  generalize roundHalfEven (v * 10 ^ 6) = n at hnear
  rw [Nat.cast_natAbs, Int.cast_abs]
  by_cases hv : v < 0
  · have hn : (n : ℚ) < 1 := by linarith [hnear.1]
    have hn' : n ≤ 0 := by
      have : n < 1 := by exact_mod_cast hn
      omega
    have hneg : (n : ℚ) ≤ 0 := by exact_mod_cast hn'
    rw [decide_eq_true hv, if_pos rfl, abs_of_nonpos hneg]
    ring
  · have hn : (-1 : ℚ) < n := by linarith [hnear.2]
    have hn' : 0 ≤ n := by
      have : -1 < n := by exact_mod_cast hn
      omega
    have hpos : (0 : ℚ) ≤ n := by exact_mod_cast hn'
    rw [decide_eq_false hv, if_neg Bool.false_ne_true, abs_of_nonneg hpos, one_mul]

theorem strip_eq_self {chars : Char → Bool} {s : List Char} (h : ∀ c ∈ s, chars c = false) :
    strip chars s = s := by
  have hfront : s.dropWhile chars = s := by
    cases s with
    | nil => rfl
    | cons c s => exact List.dropWhile_cons_of_neg (by simp [h c List.mem_cons_self])
  rw [strip, hfront]
  rcases List.eq_nil_or_concat' s with rfl | ⟨s', c, rfl⟩
  · rfl
  · have hc : chars c = false := h c (List.mem_append_right _ List.mem_cons_self)
    exact List.rdropWhile_concat_neg _ _ _ (by simp [hc])

/-- A numeral has no character of another kind. -/
theorem avoids {chars : Char → Bool} (hdigit : ∀ c, chars c = true → ¬c.isDigit)
    (hminus : chars '-' = false) (hdot : chars '.' = false) {v : ℚ} {c : Char}
    (hc : c ∈ formatted v) : chars c = false := by
  rcases Decimal.mem_numeral hc with h | rfl | rfl
  · by_contra hchars
    exact hdigit c (by simpa using hchars) h
  · exact hminus
  · exact hdot

theorem not_isDigit_of_isSpace {c : Char} (h : isSpace c = true) : ¬c.isDigit := by
  intro hdigit
  simp only [Char.isDigit, Bool.and_eq_true, decide_eq_true_eq, UInt32.le_iff_toNat_le] at hdigit
  have hlow : 48 ≤ c.toNat := hdigit.1
  have hhigh : c.toNat ≤ 57 := hdigit.2
  simp only [isSpace, Bool.or_eq_true, Bool.and_eq_true, decide_eq_true_eq] at h
  omega

/-- A component is read back rounded to six decimals. -/
theorem float_formatted (v : ℚ) : float (formatted v) = some (sixDecimals v) := by
  have hspace : ∀ c ∈ formatted v, isSpace c = false := fun c hc =>
    avoids (fun c => not_isDigit_of_isSpace) (by decide) (by decide) hc
  rw [float, strip_eq_self hspace, formatted, Decimal.value_numeral, ← mul_div_assoc, sign_mul_natAbs]
  rfl

/-! ### The whole vector -/

theorem mem_intercalate {sep : List Char} {ls : List (List Char)} {c : Char}
    (h : c ∈ sep.intercalate ls) : c ∈ sep ∨ ∃ l ∈ ls, c ∈ l := by
  induction ls with
  | nil => simp at h
  | cons l ls ih =>
      cases ls with
      | nil => exact .inr ⟨l, List.mem_cons_self, by simpa using h⟩
      | cons l' ls =>
          rw [List.intercalate_cons_cons] at h
          rcases List.mem_append.mp h with h | h
          · rcases List.mem_append.mp h with h | h
            · exact .inr ⟨l, List.mem_cons_self, h⟩
            · exact .inl h
          · rcases ih h with h | ⟨l'', hl'', h⟩
            · exact .inl h
            · exact .inr ⟨l'', List.mem_cons_of_mem _ hl'', h⟩

theorem strip_braces {body : List Char} (h : ∀ c ∈ body, isBrace c = false) :
    strip isBrace ('{' :: body ++ ['}']) = body := by
  rw [strip, List.cons_append, List.dropWhile_cons_of_pos (by decide)]
  cases body with
  | nil => rfl
  | cons c body =>
      rw [List.cons_append, List.dropWhile_cons_of_neg (by simp [h c List.mem_cons_self]),
        ← List.cons_append, List.rdropWhile_concat_pos _ _ _ (by decide)]
      have hself := strip_eq_self h
      rwa [strip, List.dropWhile_cons_of_neg (by simp [h c List.mem_cons_self])] at hself

theorem not_isDigit_of_isBrace {c : Char} (h : isBrace c = true) : ¬c.isDigit := by
  simp only [isBrace, Bool.or_eq_true, decide_eq_true_eq] at h
  rcases h with rfl | rfl <;> decide

theorem mapM_float (a : List ℚ) : (a.map formatted).mapM float = some (a.map sixDecimals) := by
  induction a with
  | nil => rfl
  | cons v a ih =>
      rw [List.map_cons, List.mapM_cons, float_formatted, ih]
      rfl

/-- The components of a vector are read back rounded to six decimals, and there
are as many of them. -/
theorem fromListArray_tolistArray (a : List ℚ) :
    fromListArray (.text (tolistArray a)) = some (a.map sixDecimals) := by
  let body := [','].intercalate (a.map formatted)
  have hbraces : ∀ c ∈ body, isBrace c = false := by
    intro c hc
    rcases mem_intercalate hc with hc | ⟨l, hl, hc⟩
    · rw [List.mem_singleton.mp hc]
      decide
    · obtain ⟨v, -, rfl⟩ := List.mem_map.mp hl
      exact avoids (fun c => not_isDigit_of_isBrace) (by decide) (by decide) hc
  show (if strip isBrace ('{' :: body ++ ['}']) = [] then some [] else
    ((strip isBrace ('{' :: body ++ ['}'])).splitOn ',').mapM float) = _
  rw [strip_braces hbraces]
  cases a with
  | nil => rfl
  | cons v a =>
      have hcomma : ∀ l ∈ (v :: a).map formatted, ',' ∉ l := by
        intro l hl hc
        obtain ⟨v', -, rfl⟩ := List.mem_map.mp hl
        rcases Decimal.mem_numeral hc with h | h | h
        · cases h
        · cases h
        · cases h
      have hbody : body ≠ [] := by
        intro hnil
        cases a with
        | nil => exact Decimal.numeral_ne_nil _ _ _ (show formatted v = [] by simpa [body] using hnil)
        | cons v' a =>
            simp only [body, List.map_cons, List.intercalate_cons_cons, List.append_eq_nil_iff] at hnil
            cases hnil.1.2
      rw [if_neg hbody, List.splitOn_intercalate ',' hcomma (by simp), mapM_float]

end Codec

/-! ### Copies -/

open Codec

/-- The embedding of a row has been through the codec. -/
def Written (o : Occurrence ℚ) : Prop :=
  ∃ a, fromListArray (.text (tolistArray a)) = some o.embedding

/-- The same sighting at some time. -/
structure Copy (r o : Occurrence ℚ) : Prop where
  stream : o.streamId = r.streamId
  confidence : o.confidence = r.confidence
  embedding : Written r → o.embedding = r.embedding

theorem Copy.refl (r : Occurrence ℚ) : Copy r r := ⟨rfl, rfl, fun _ => rfl⟩

theorem Copy.trans {r o o' : Occurrence ℚ} (h : Copy r o) (h' : Copy o o') : Copy r o' where
  stream := h'.stream.trans h.stream
  confidence := h'.confidence.trans h.confidence
  embedding := by
    intro hr
    have ho : Written o := by
      unfold Written
      rw [h.embedding hr]
      exact hr
    exact (h'.embedding ho).trans (h.embedding hr)

theorem copies_trans {l l' l'' : List (Occurrence ℚ)} (h : List.Forall₂ Copy l l')
    (h' : List.Forall₂ Copy l' l'') : List.Forall₂ Copy l l'' := by
  induction h generalizing l'' with
  | nil => exact h'
  | cons hro _ ih =>
      cases h' with
      | cons hoo' h' => exact .cons (hro.trans hoo') (ih h')

/-- Every row of `db'` is the copy of a row of `db`, different rows of different
ones; and if `whole` holds, every row of `db` has a copy. -/
def Carried (whole : Prop) (db db' : Database ℚ) : Prop :=
  ∃ kept lost, (kept ++ lost).Perm db.occurrences ∧ List.Forall₂ Copy kept db'.occurrences ∧
    (whole → lost = [])

theorem Carried.of_same {whole : Prop} {db db' : Database ℚ}
    (h : db'.occurrences = db.occurrences) : Carried whole db db' := by
  refine ⟨db.occurrences, [], by rw [List.append_nil], ?_, fun _ => rfl⟩
  rw [h]
  exact List.forall₂_same.mpr fun o _ => Copy.refl o

theorem Carried.trans {whole whole' : Prop} {db db₁ db' : Database ℚ} (h : Carried whole db db₁)
    (h' : Carried whole' db₁ db') : Carried (whole ∧ whole') db db' := by
  obtain ⟨kept, lost, hperm, hcopies, hwhole⟩ := h
  obtain ⟨kept', lost', hperm', hcopies', hwhole'⟩ := h'
  -- the rows that are kept, in the order in which the second step splits their copies
  obtain ⟨rows, hrows, hrows'⟩ : (Relation.Comp List.Perm (List.Forall₂ Copy)) kept (kept' ++ lost') := by
    rw [← List.forall₂_comp_perm_eq_perm_comp_forall₂]
    exact ⟨db₁.occurrences, hcopies, hperm'.symm⟩
  have hkept := List.forall₂_take_append rows kept' lost' hrows'
  have hlost := List.forall₂_drop_append rows kept' lost' hrows'
  refine ⟨rows.take kept'.length, rows.drop kept'.length ++ lost, ?_, ?_, ?_⟩
  · rw [← List.append_assoc, List.take_append_drop]
    exact (hrows.symm.append_right lost).trans hperm
  · exact copies_trans hkept hcopies'
  · rintro ⟨hw, hw'⟩
    rw [hwhole' hw', List.forall₂_nil_right_iff] at hlost
    rw [hlost, hwhole hw, List.append_nil]

/-- A platform that writes and reads decimals as they are. -/
def Decimals (pf : Platform ℚ) : Prop := ∀ v, Codec.float (formatted v) = some (pf.fmt v)

theorem Decimals.fmt_eq {pf : Platform ℚ} (h : Decimals pf) (v : ℚ) : pf.fmt v = sixDecimals v :=
  Option.some.inj ((h v).symm.trans (float_formatted v))

theorem Decimals.toListArray_eq {pf : Platform ℚ} (h : Decimals pf) (a : List ℚ) :
    toListArray pf a = a.map sixDecimals :=
  List.map_congr_left fun v _ => h.fmt_eq v

section Merging

variable {pf : Platform ℚ} {now : ℕ} {owner target : Uuid}

theorem Decimals.copy (h : Decimals pf) (r : Occurrence ℚ) (t : ℚ) :
    Copy r (movedRow pf now owner target r t) where
  stream := rfl
  confidence := rfl
  embedding := by
    rintro ⟨a, ha⟩
    rw [fromListArray_tolistArray, Option.some.injEq] at ha
    show toListArray pf r.embedding = r.embedding
    rw [h.toListArray_eq, ← ha, List.map_map]
    exact List.map_congr_left fun v _ => sixDecimals_sixDecimals v

/-- A source that is not the target loses no row; the target as its own source
loses all it has. -/
theorem mergeSource_carried (hfmt : Decimals pf) {st st' : MergeState ℚ} {cid : String} {id : Uuid}
    (hid : castUuid cid = .ok id) (h : mergeSource pf now owner target st cid = .ok st') :
    Carried (target ≠ id) st.db st'.db := by
  obtain ⟨id', st₁, hid', hrows, rfl⟩ := mergeSource_ok h
  cases hid.symm.trans hid'
  obtain ⟨added, hdb, hcopies⟩ := moveRows_ok hrows
  have hmoved := moved_of_copies hcopies
  have hcopies : List.Forall₂ Copy _ added := hcopies.imp fun r o ⟨t, ho⟩ => ho ▸ hfmt.copy r t
  have hperm := pf.scan_perm id (st.db.occurrences.filter fun o => o.clusterId = id)
  set rows := pf.scan id (st.db.occurrences.filter fun o => o.clusterId = id)
  have hall : ((st.db.occurrences.filter fun o => o.clusterId ≠ id) ++ rows).Perm st.db.occurrences := by
    refine (hperm.append_left _).trans (List.perm_append_comm.trans ?_)
    simpa using List.filter_append_perm (fun o : Occurrence ℚ => decide (o.clusterId = id)) st.db.occurrences
  have hrest : List.Forall₂ Copy (st.db.occurrences.filter fun o => o.clusterId ≠ id)
      (st.db.occurrences.filter fun o => o.clusterId ≠ id) :=
    List.forall₂_same.mpr fun o _ => Copy.refl o
  unfold Carried
  rw [occurrences_drop, hdb, List.filter_append]
  by_cases hne : target = id
  · have hnone : (added.filter fun o => o.clusterId ≠ id) = [] :=
      List.filter_eq_nil_iff.mpr fun o ho => by simp [(hmoved o ho).1, hne]
    rw [hnone, List.append_nil]
    exact ⟨_, rows, hall, hrest, fun h => absurd hne h⟩
  · have hsome : (added.filter fun o => o.clusterId ≠ id) = added :=
      List.filter_eq_self.mpr fun o ho => by simp [(hmoved o ho).1, hne]
    rw [hsome]
    exact ⟨_, [], by rw [List.append_nil]; exact hall, List.rel_append hrest hcopies, fun _ => rfl⟩

theorem Carried.mono {whole whole' : Prop} {db db' : Database ℚ} (h : Carried whole db db')
    (himp : whole' → whole) : Carried whole' db db' := by
  obtain ⟨kept, lost, hperm, hcopies, hwhole⟩ := h
  exact ⟨kept, lost, hperm, hcopies, fun h => hwhole (himp h)⟩

theorem mergeSources_carried (hfmt : Decimals pf) {sources : List String} {st st' : MergeState ℚ}
    (h : sources.foldlM (mergeSource pf now owner target) st = .ok st') :
    Carried (target ∉ denoted sources) st.db st'.db := by
  induction sources generalizing st with
  | nil =>
      cases h
      exact .of_same rfl
  | cons cid sources ih =>
      rw [List.foldlM_cons, bind_eq_ok] at h
      obtain ⟨st₁, hone, hrest⟩ := h
      obtain ⟨id, _, hid, -, -⟩ := mergeSource_ok hone
      refine ((mergeSource_carried hfmt hid hone).trans (ih hrest)).mono fun hne => ?_
      rw [denoted_cons hid, List.mem_cons, not_or] at hne
      exact hne

end Merging

/-- One merge of a history. -/
structure Merging extends MergeCall where
  ownerId : String
  targetId : String

def Merging.commit (db : Database ℚ) (m : Merging) : Database ℚ :=
  m.toMergeCall.commit m.ownerId m.targetId db

/-- The target is not one of the sources. -/
def Merging.Apart (m : Merging) : Prop :=
  ∀ target, castUuid m.targetId = .ok target → target ∉ denoted m.sourceIds

theorem Merging.carried {m : Merging} (hfmt : Decimals m.pf) (db : Database ℚ) :
    Carried m.Apart db (m.commit db) := by
  unfold Merging.commit MergeCall.commit Write.commit
  split
  · rename_i c hrun
    rcases mergeClusters_ok hrun with rfl | ⟨target, row, affected, st, hown, -, hst, rfl⟩
    · exact .of_same rfl
    · exact (mergeSources_carried hfmt hst).mono fun hapart => hapart target hown.cast
  · exact .of_same rfl

theorem merges_carried {merges : List Merging} (hfmt : ∀ m ∈ merges, Decimals m.pf)
    (db : Database ℚ) :
    Carried (∀ m ∈ merges, m.Apart) db (merges.foldl Merging.commit db) := by
  induction merges generalizing db with
  | nil => exact .of_same rfl
  | cons m merges ih =>
      obtain ⟨hm, hrest⟩ := List.forall_mem_cons.mp hfmt
      refine ((Merging.carried hm db).trans (ih hrest (m.commit db))).mono fun hapart => ?_
      exact List.forall_mem_cons.mp hapart

/-- The codec keeps the length, is off by half a unit of the sixth decimal at
most, and is stable; and no number of merges changes an embedding that has been
through it. -/
theorem vector_codec_stable {merges : List Merging} (hfmt : ∀ m ∈ merges, Decimals m.pf) :
    (∀ a : List ℚ, ∃ b, fromListArray (.text (tolistArray a)) = some b ∧ b.length = a.length ∧
      List.Forall₂ (fun v v' => |v - v'| ≤ 5 / 10 ^ 7) a b ∧
      fromListArray (.text (tolistArray b)) = some b) ∧
    (∀ m ∈ merges, ∀ a, fromListArray (.text (tolistArray a)) = some (toListArray m.pf a)) ∧
    ∀ db, Carried (∀ m ∈ merges, m.Apart) db (merges.foldl Merging.commit db) := by
  refine ⟨fun a => ⟨a.map sixDecimals, fromListArray_tolistArray a, List.length_map _, ?_, ?_⟩,
    fun m hm a => ?_, merges_carried hfmt⟩
  · rw [List.forall₂_map_right_iff]
    exact List.forall₂_same.mpr fun v _ => abs_sub_sixDecimals_le v
  · rw [fromListArray_tolistArray, List.map_map]
    exact congrArg some (List.map_congr_left fun v _ => sixDecimals_sixDecimals v)
  · rw [fromListArray_tolistArray, (hfmt m hm).toListArray_eq]

/-- Exact arithmetic, but for the six decimals of the text form. -/
def Platform.decimal : Platform ℚ := { Platform.exact with fmt := sixDecimals }

/-- The second cluster of `sameInstant` into the first, and the first into the
second, which is no longer there. -/
def backAndForth : List Merging :=
  [⟨⟨.decimal, .fill 5, 3, [(Uuid.fill 4).text]⟩, (Uuid.fill 1).text, (Uuid.fill 3).text⟩,
    ⟨⟨.decimal, .fill 6, 4, [(Uuid.fill 3).text]⟩, (Uuid.fill 1).text, (Uuid.fill 4).text⟩]

theorem vector_codec_stable_backAndForth :
    fromListArray (.text (tolistArray [1 / 3, -2, 1 / 10 ^ 7])) = some [333333 / 10 ^ 6, -2, 0] ∧
      (∀ m ∈ backAndForth, m.Apart) ∧
      Carried (∀ m ∈ backAndForth, m.Apart) sameInstant
        (backAndForth.foldl Merging.commit sameInstant) := by
  have hfmt : ∀ m ∈ backAndForth, Decimals m.pf :=
    List.forall_mem_cons.mpr ⟨float_formatted, List.forall_mem_cons.mpr ⟨float_formatted, by simp⟩⟩
  refine ⟨by decide +kernel, ?_, (vector_codec_stable hfmt).2.2 sameInstant⟩
  refine List.forall_mem_cons.mpr ⟨fun target htarget => ?_, List.forall_mem_cons.mpr
    ⟨fun target htarget => ?_, by simp⟩⟩
  · cases (Uuid.castUuid_text _).symm.trans htarget
    decide
  · cases (Uuid.castUuid_text _).symm.trans htarget
    decide

end FacesService
