import FacesService.Model.Db

/-!
The search for names. The three replacements of `_escape_like` come to one pass
over the prefix, since none of them writes a character a later one looks for
other than behind a backslash that the first pass has dealt with. The pattern is
then a run of literal characters with one wildcard at its end.
-/

namespace FacesService.Db

/-! ### The escaper -/

/-- `s.replace(old, new)` for a single character `old`. -/
def replaceChar (old : Char) (new s : List Char) : List Char :=
  s.flatMap fun c => if c = old then new else [c]

/-- The characters a pattern does not take literally. -/
def LikeSpecial (c : Char) : Prop :=
  c = '\\' ∨ c = '%' ∨ c = '_'

theorem escapeLike_special {c : Char} (hc : LikeSpecial c) (p : List Char) :
    escapeLike (c :: p) = '\\' :: c :: escapeLike p := by
  obtain rfl | rfl | rfl := hc <;> rfl

theorem escapeLike_plain {c : Char} (hc : ¬LikeSpecial c) (p : List Char) :
    escapeLike (c :: p) = c :: escapeLike p := by
  obtain ⟨hback, hpercent, hunder⟩ : c ≠ '\\' ∧ c ≠ '%' ∧ c ≠ '_' := by
    simpa [LikeSpecial] using hc
  simp [escapeLike, hback, hpercent, hunder]

theorem replaceChar_append (old : Char) (new s t : List Char) :
    replaceChar old new (s ++ t) = replaceChar old new s ++ replaceChar old new t :=
  List.flatMap_append

theorem replaceChar_cons (old : Char) (new : List Char) (c : Char) (s : List Char) :
    replaceChar old new (c :: s) = (if c = old then new else [c]) ++ replaceChar old new s :=
  List.flatMap_cons

/-- The replacements one after the other are one pass. -/
theorem escapeLike_eq (p : List Char) :
    replaceChar '_' ['\\', '_'] (replaceChar '%' ['\\', '%'] (replaceChar '\\' ['\\', '\\'] p)) =
      escapeLike p := by
  induction p with
  | nil => rfl
  | cons c p ih =>
      rw [replaceChar_cons, replaceChar_append, replaceChar_append, ih]
      by_cases hc : LikeSpecial c
      · rw [escapeLike_special hc]
        obtain rfl | rfl | rfl := hc <;> rfl
      · rw [escapeLike_plain hc]
        obtain ⟨hback, hpercent, hunder⟩ : c ≠ '\\' ∧ c ≠ '%' ∧ c ≠ '_' := by
          simpa [LikeSpecial] using hc
        simp [replaceChar, hback, hpercent, hunder]

theorem likeTokens_escaped (c : Char) (p : List Char) :
    likeTokens ('\\' :: c :: p) = (likeTokens p).map (.lit c :: ·) :=
  rfl

theorem likeTokens_plain {c : Char} (hc : ¬LikeSpecial c) (p : List Char) :
    likeTokens (c :: p) = (likeTokens p).map (.lit c :: ·) := by
  rw [likeTokens] <;> simp_all [LikeSpecial]

/-- The escaped prefix is read as its characters. -/
theorem likeTokens_escapeLike (p : List Char) :
    likeTokens (escapeLike p ++ ['%']) = some (p.map .lit ++ [.anyString]) := by
  induction p with
  | nil => rfl
  | cons c p ih =>
      by_cases hc : LikeSpecial c
      · rw [escapeLike_special hc, List.cons_append, List.cons_append, likeTokens_escaped, ih]
        rfl
      · rw [escapeLike_plain hc, List.cons_append, likeTokens_plain hc, ih]
        rfl

/-! ### The matcher on a literal prefix -/

/-- `%` at the end matches whatever is left. -/
theorem likeMatch_anyString (fold : Char → Char) (s : List Char) :
    likeMatch fold [.anyString] s = true := by
  rw [likeMatch, List.any_eq_true]
  exact ⟨[], by simp, rfl⟩

theorem likeMatch_prefix (fold : Char → Char) (p s : List Char) :
    likeMatch fold (p.map .lit ++ [.anyString]) s = true ↔
      ∃ q rest, s = q ++ rest ∧ q.map fold = p.map fold := by
  induction p generalizing s with
  | nil =>
      refine iff_of_true (likeMatch_anyString fold s) ?_
      exact ⟨[], s, rfl, rfl⟩
  | cons c p ih =>
      rw [List.map_cons, List.cons_append]
      cases s with
      | nil =>
          refine iff_of_false (by simp [likeMatch]) ?_
          rintro ⟨q, rest, hs, hq⟩
          obtain ⟨rfl, -⟩ := List.append_eq_nil_iff.mp hs.symm
          simp at hq
      | cons d s =>
          rw [likeMatch, Bool.and_eq_true, decide_eq_true_iff, ih]
          constructor
          · rintro ⟨hd, q, rest, rfl, hq⟩
            exact ⟨d :: q, rest, rfl, by rw [List.map_cons, List.map_cons, hd, hq]⟩
          · rintro ⟨q, rest, hs, hq⟩
            cases q with
            | nil => simp at hq
            | cons e q =>
                obtain ⟨rfl, rfl⟩ := List.cons.inj hs
                obtain ⟨hd, hq⟩ := List.cons.inj hq
                exact ⟨hd.symm, q, rest, rfl, hq⟩

/-- A search for a prefix is literal, whatever is in it. -/
theorem prefix_search_literal (fold : Char → Char) (p s : List Char) :
    replaceChar '_' ['\\', '_']
        (replaceChar '%' ['\\', '%'] (replaceChar '\\' ['\\', '\\'] p)) = escapeLike p ∧
      ∃ pattern, likeTokens (escapeLike p ++ ['%']) = some pattern ∧
        (likeMatch fold pattern s = true ↔
          ∃ q rest, s = q ++ rest ∧ q.map fold = p.map fold) :=
  ⟨escapeLike_eq p, _, likeTokens_escapeLike p, likeMatch_prefix fold p s⟩

end FacesService.Db
