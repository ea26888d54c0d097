import FacesService.Model.Service

/-!
The keys of the bucket. A crop lies under the owner and the cluster it was put
for, a frame under the prefix of its stream, and no key is both.
-/

namespace FacesService

/-- What follows the last slash of a key is determined by the key. -/
theorem append_cons_inj {α : Type} {a : α} {l₁ l₂ t₁ t₂ : List α} (h₁ : a ∉ t₁) (h₂ : a ∉ t₂)
    (h : l₁ ++ a :: t₁ = l₂ ++ a :: t₂) : l₁ = l₂ ∧ t₁ = t₂ := by
  induction l₁ generalizing l₂ with
  | nil =>
      cases l₂ with
      | nil => exact ⟨rfl, (List.cons.inj h).2⟩
      | cons b l₂ =>
          have ht : t₁ = l₂ ++ a :: t₂ := (List.cons.inj h).2
          exact absurd (by rw [ht]; simp) h₁
  | cons b l₁ ih =>
      cases l₂ with
      | nil =>
          have ht : l₁ ++ a :: t₁ = t₂ := (List.cons.inj h).2
          exact absurd (by rw [← ht]; simp) h₂
      | cons b' l₂ =>
          obtain ⟨hl, ht⟩ := ih (List.cons.inj h).2
          exact ⟨by rw [(List.cons.inj h).1, hl], ht⟩

/-- A string the database takes for a uuid holds no slash. -/
theorem slash_not_mem {s : String} {u : Uuid} (h : castUuid s = .ok u) : '/' ∉ s.toList :=
  fun hmem => absurd (Uuid.spells_of_castUuid h _ hmem) (by decide)

theorem slash_not_mem_text (u : Uuid) : '/' ∉ u.text.toList :=
  slash_not_mem (Uuid.castUuid_text u)

theorem cropKey_toList (owner cluster : String) : (cropKey owner cluster).toList =
    ("faces/crops/".toList ++ owner.toList) ++ '/' :: (cluster.toList ++ ".jpg".toList) := by
  simp [cropKey]

theorem frameKey_toList (pre : String) (idx : ℕ) : (frameKey pre idx).toList =
    pre.toList.rdropWhile (· = '/') ++
      '/' :: ("frame_".toList ++ (List.replicate (5 - (Nat.toDigits 10 idx).length) '0' ++
        Nat.toDigits 10 idx ++ ".jpg".toList)) := by
  simp [frameKey]

theorem slash_not_mem_append {l : List Char} (h : '/' ∉ l) : '/' ∉ l ++ ".jpg".toList := by
  simp [h]

/-- The owner and the cluster of a crop can be read off its key. -/
theorem cropKey_inj {owner owner' cluster cluster' : String} (h : '/' ∉ cluster.toList)
    (h' : '/' ∉ cluster'.toList) (hkey : cropKey owner cluster = cropKey owner' cluster') :
    owner = owner' ∧ cluster = cluster' := by
  have hlist := congrArg String.toList hkey
  rw [cropKey_toList, cropKey_toList] at hlist
  obtain ⟨hl, ht⟩ := append_cons_inj (slash_not_mem_append h) (slash_not_mem_append h') hlist
  exact ⟨String.toList_inj.mp (List.append_cancel_left hl),
    String.toList_inj.mp (List.append_cancel_right ht)⟩

/-- A frame is named `frame_…`, which is no uuid. -/
theorem cropKey_ne_frameKey {owner cluster : String} {u : Uuid} (h : castUuid cluster = .ok u)
    (pre : String) (idx : ℕ) : cropKey owner cluster ≠ frameKey pre idx := by
  intro hkey
  have hlist := congrArg String.toList hkey
  rw [cropKey_toList, frameKey_toList] at hlist
  have hdigits : '/' ∉ Nat.toDigits 10 idx := fun hmem =>
    absurd (Nat.isDigit_of_mem_toDigits (by decide) (by decide) hmem) (by decide)
  have hname : '/' ∉ "frame_".toList ++ (List.replicate (5 - (Nat.toDigits 10 idx).length) '0' ++
      Nat.toDigits 10 idx ++ ".jpg".toList) := by
    simp [hdigits]
  obtain ⟨-, ht⟩ := append_cons_inj (slash_not_mem_append (slash_not_mem h)) hname hlist
  have hm : 'm' ∈ cluster.toList := by
    have hmem : 'm' ∈ cluster.toList ++ ".jpg".toList := by
      rw [ht]
      simp
    simpa using hmem
  exact absurd (Uuid.spells_of_castUuid h _ hm) (by decide)

end FacesService
