import FacesService.Model.Cascade
import FacesService.Store.Cascade
import FacesService.Store.Keys

/-!
Repeating the cascade request until it succeeds. Every attempt lists the frames
of the stream afresh, but only the first finds clusters to remove, and only it
knows which crops were theirs: a crop it does not get to is never purged.
-/

namespace FacesService

open Prog Database Fallible Db

variable {K : Type} {weather : Weather} {w : Shelves K}

/-! ### The store -/

/-- No call from the `a`-th up to the `b`-th fails. -/
def Calm (weather : Weather) (a b : ℕ) : Prop := ∀ n, a ≤ n → n < b → weather.faults n = none

/-- Every failure is one the route minds. -/
def Loud (weather : Weather) : Prop := ∀ n fault, weather.faults n = some fault → isMissing fault.code = false

/-- A removal with this number takes the object away. -/
def Removes (weather : Weather) (n : ℕ) : Prop := ∀ fault, weather.faults n = some fault → fault.done = true

theorem calm_self (a : ℕ) : Calm weather a a := fun n ha hb => by omega

theorem calm_succ_iff {a b : ℕ} (h : a < b) :
    Calm weather a b ↔ weather.faults a = none ∧ Calm weather (a + 1) b := by
  constructor
  · exact fun hcalm => ⟨hcalm a (le_refl a) h, fun n ha hb => hcalm n (by omega) hb⟩
  · rintro ⟨ha, hcalm⟩ n hn hb
    rcases Nat.eq_or_lt_of_le hn with rfl | hn
    · exact ha
    · exact hcalm n hn hb

theorem calm_append_iff {a b c : ℕ} (hab : a ≤ b) (hbc : b ≤ c) :
    Calm weather a c ↔ Calm weather a b ∧ Calm weather b c := by
  constructor
  · exact fun h => ⟨fun n ha hb => h n ha (by omega), fun n hb hc => h n (by omega) hc⟩
  · rintro ⟨h, h'⟩ n ha hc
    by_cases hn : n < b
    · exact h n ha hn
    · exact h' n (by omega) hc

/-- The tables are the same, and the only names gone are in `q`. -/
structure Thinned (q : String → Prop) (w w' : Shelves K) : Prop where
  db : w'.db = w.db
  fewer : ∀ name, name ∈ w'.names → name ∈ w.names
  kept : ∀ name, ¬ q name → name ∈ w.names → name ∈ w'.names

theorem Thinned.refl (q : String → Prop) (w : Shelves K) : Thinned q w w :=
  ⟨rfl, fun _ => id, fun _ _ => id⟩

theorem Thinned.trans {q q' : String → Prop} {w w₁ w' : Shelves K} (h : Thinned q w w₁)
    (h' : Thinned q' w₁ w') : Thinned (fun name => q name ∨ q' name) w w' :=
  ⟨h'.db.trans h.db, fun name hmem => h.fewer name (h'.fewer name hmem), fun name hq hmem =>
    h'.kept name (fun hq' => hq (.inr hq')) (h.kept name (fun hq' => hq (.inl hq')) hmem)⟩

theorem Thinned.mono {q q' : String → Prop} {w w' : Shelves K} (h : Thinned q w w')
    (hq : ∀ name, q name → q' name) : Thinned q' w w' :=
  ⟨h.db, h.fewer, fun name hq' => h.kept name fun hmem => hq' (hq name hmem)⟩

theorem thinned_filter (p : String → Bool) (w : Shelves K) (calls : ℕ) :
    Thinned (fun name => p name = false) w { w with names := w.names.filter p, calls := calls } :=
  ⟨rfl, fun _ hmem => List.mem_of_mem_filter hmem, fun name hq hmem =>
    List.mem_filter.mpr ⟨hmem, by simpa using hq⟩⟩

theorem Thinned.ask {q : String → Prop} {effect : Shelves K → Shelves K}
    (heffect : Thinned q w (effect w)) : Thinned q w (w.ask weather effect).2 := by
  unfold Shelves.ask
  cases weather.faults w.calls with
  | none => exact ⟨heffect.db, heffect.fewer, heffect.kept⟩
  | some fault =>
      have hcase : Thinned q w (if fault.done then effect w else w) := by
        split
        · exact heffect
        · exact .refl q w
      exact ⟨hcase.db, hcase.fewer, hcase.kept⟩

theorem thinned_ask_remove (name : String) (w : Shelves K) :
    Thinned (· = name) w (w.ask weather (·.remove name)).2 := by
  have hremove : Thinned (· = name) w (w.remove name) :=
    (thinned_filter (fun name' => name' ≠ name) w w.calls).mono fun name' hq => by simpa using hq
  exact hremove.ask

theorem ask_of_calm {effect : Shelves K → Shelves K} (h : weather.faults w.calls = none) :
    w.ask weather effect = (.ok (), (effect w).tick) := by
  rw [Shelves.ask, h]

theorem ask_of_fault {effect : Shelves K → Shelves K} {fault : Fault}
    (h : weather.faults w.calls = some fault) :
    ∃ e w', w.ask weather effect = (.error e, w') := by
  rw [Shelves.ask, h]
  exact ⟨_, _, rfl⟩

theorem removeQuietly_exec (hloud : Loud weather) (name : String) (w : Shelves K) :
    (removeQuietly name).exec (shelve weather) w = w.ask weather (·.remove name) := by
  rw [removeQuietly, exec_tryCatch, exec_perform, shelve, Shelves.ask]
  cases hfault : weather.faults w.calls with
  | none => rfl
  | some fault => simp [ignoreMissing, hloud _ _ hfault]

/-! ### The frames of the stream -/

/-- One name of the loop of `delete_prefix`: two calls. -/
theorem removeNext_exec (hloud : Loud weather) (name : String) (w : Shelves K) :
    let p : RouteProgram Unit := do
      routeCall .nextObject
      removeQuietly name
    (Calm weather w.calls (w.calls + 2) ∧ p.exec (shelve weather) w =
        (.ok (), { w with names := w.names.filter (· ≠ name), calls := w.calls + 2 })) ∨
      ¬ Calm weather w.calls (w.calls + 2) ∧
        ∃ e w', p.exec (shelve weather) w = (.error e, w') ∧ Thinned (· = name) w w' := by
  intro p
  have hcalm : Calm weather w.calls (w.calls + 2) ↔
      weather.faults w.calls = none ∧ weather.faults (w.calls + 1) = none := by
    rw [calm_succ_iff (by omega), calm_succ_iff (by omega)]
    simp [calm_self]
  have hnext : (routeCall .nextObject).exec (shelve weather) w = w.ask weather id := exec_perform _ _ _
  cases hfirst : weather.faults w.calls with
  | some fault =>
      obtain ⟨e, w', hask⟩ : ∃ e w', w.ask weather id = (.error e, w') := ask_of_fault hfirst
      refine .inr ⟨by simp [hcalm, hfirst], e, w', exec_bind_error (hnext.trans hask), ?_⟩
      have hsame : Thinned (· = name) w (w.ask weather id).2 := (Thinned.refl _ w).ask
      rw [hask] at hsame
      exact hsame
  | none =>
      have hp : p.exec (shelve weather) w = w.tick.ask weather (·.remove name) :=
        (exec_bind_ok (hnext.trans (ask_of_calm hfirst))).trans (removeQuietly_exec hloud name w.tick)
      cases hsecond : weather.faults (w.calls + 1) with
      | none =>
          refine .inl ⟨hcalm.mpr ⟨hfirst, hsecond⟩, ?_⟩
          rw [hp, ask_of_calm hsecond]
          rfl
      | some fault =>
          obtain ⟨e, w', hask⟩ : ∃ e w', w.tick.ask weather (·.remove name) = (.error e, w') :=
            ask_of_fault hsecond
          refine .inr ⟨by simp [hcalm, hsecond], e, w', hp.trans hask, ?_⟩
          have hsame := @thinned_ask_remove K weather name w.tick
          rw [hask] at hsame
          exact ⟨hsame.db, hsame.fewer, hsame.kept⟩

/-- The loop of `delete_prefix`. -/
theorem removeNames_exec (hloud : Loud weather) (names : List String) (w : Shelves K) :
    let p : RouteProgram Unit := names.forM fun name => do
      routeCall .nextObject
      removeQuietly name
    (Calm weather w.calls (w.calls + 2 * names.length) ∧ p.exec (shelve weather) w = (.ok (),
        { w with names := w.names.filter (· ∉ names), calls := w.calls + 2 * names.length })) ∨
      ¬ Calm weather w.calls (w.calls + 2 * names.length) ∧
        ∃ e w', p.exec (shelve weather) w = (.error e, w') ∧ Thinned (· ∈ names) w w' := by
  induction names generalizing w with
  | nil => exact .inl ⟨calm_self _, by simp⟩
  | cons name names ih =>
      intro p
      have hsplit : Calm weather w.calls (w.calls + 2 * (name :: names).length) ↔
          Calm weather w.calls (w.calls + 2) ∧
            Calm weather (w.calls + 2) (w.calls + 2 + 2 * names.length) := by
        rw [List.length_cons, show w.calls + 2 * (names.length + 1) = w.calls + 2 + 2 * names.length by ring]
        exact calm_append_iff (by omega) (by omega)
      rcases removeNext_exec hloud name w with ⟨hcalm, hone⟩ | ⟨hnot, e, w', hone, hsame⟩
      · let w₁ : Shelves K := { w with names := w.names.filter (· ≠ name), calls := w.calls + 2 }
        have hmore : Thinned (· = name) w w₁ :=
          (thinned_filter (fun name' => name' ≠ name) w (w.calls + 2)).mono fun name' hq => by simpa using hq
        rcases ih w₁ with ⟨hcalm', hrest⟩ | ⟨hnot', e, w', hrest, hsame⟩
        · refine .inl ⟨hsplit.mpr ⟨hcalm, hcalm'⟩, (exec_bind_ok hone).trans (hrest.trans ?_)⟩
          simp only [w₁, List.filter_filter, List.length_cons]
          congr 2
          · refine List.filter_congr fun name' _ => ?_
            by_cases hname : name' = name <;> simp [hname]
          · ring
        · refine .inr ⟨fun hcalm' => hnot' (hsplit.mp hcalm').2, e, w', (exec_bind_ok hone).trans hrest,
            (hmore.trans hsame).mono fun name' hq => List.mem_cons.mpr hq⟩
      · exact .inr ⟨fun hcalm => hnot (hsplit.mp hcalm).1, e, w', exec_bind_error hone,
          hsame.mono fun name' hq => hq ▸ List.mem_cons_self⟩

/-- The names in the bucket that lie under the prefix. -/
def listed (pre : String) (w : Shelves K) : List String := w.names.filter (inFolder (folder pre))

theorem deletePrefix_exec (hloud : Loud weather) (pre : String) (w : Shelves K) :
    (Calm weather w.calls (w.calls + 2 * (listed pre w).length + 1) ∧
      (deletePrefix pre).exec (shelve weather) w = (.ok (),
        { w with names := w.names.filter fun name => !inFolder (folder pre) name
                 calls := w.calls + 2 * (listed pre w).length + 1 })) ∨
      ¬ Calm weather w.calls (w.calls + 2 * (listed pre w).length + 1) ∧
        ∃ e w', (deletePrefix pre).exec (shelve weather) w = (.error e, w') ∧
          Thinned (fun name => inFolder (folder pre) name = true) w w' := by
  have hsplit : Calm weather w.calls (w.calls + 2 * (listed pre w).length + 1) ↔
      Calm weather w.calls (w.calls + 2 * (listed pre w).length) ∧
        weather.faults (w.calls + 2 * (listed pre w).length) = none := by
    rw [calm_append_iff (by omega) (Nat.le_succ (w.calls + 2 * (listed pre w).length)),
      calm_succ_iff (Nat.lt_succ_self _)]
    simp [calm_self]
  have hlisted : ∀ name, name ∈ listed pre w → inFolder (folder pre) name = true := fun name hname =>
    (List.mem_filter.mp hname).2
  have hbody : (deletePrefix pre).exec (shelve weather) w =
      ((listed pre w).forM (fun name => do
          routeCall .nextObject
          removeQuietly name) >>= fun _ => routeCall .nextObject : RouteProgram Unit).exec
        (shelve weather) w := rfl
  rw [hbody]
  rcases removeNames_exec hloud (listed pre w) w with ⟨hcalm, hloop⟩ | ⟨hnot, e, w', hloop, hsame⟩
  · let w₁ : Shelves K :=
      { w with names := w.names.filter (· ∉ listed pre w), calls := w.calls + 2 * (listed pre w).length }
    have hnames : w₁.names = w.names.filter fun name => !inFolder (folder pre) name := by
      refine List.filter_congr fun name hname => ?_
      simp [listed, hname]
    have hlast : (routeCall .nextObject).exec (shelve weather) w₁ = w₁.ask weather id := exec_perform _ _ _
    cases hfault : weather.faults (w.calls + 2 * (listed pre w).length) with
    | none =>
        refine .inl ⟨hsplit.mpr ⟨hcalm, hfault⟩, (exec_bind_ok hloop).trans (hlast.trans ?_)⟩
        rw [ask_of_calm hfault, ← hnames]
        rfl
    | some fault =>
        obtain ⟨e, w', hask⟩ : ∃ e w', w₁.ask weather id = (.error e, w') := ask_of_fault hfault
        refine .inr ⟨by simp [hsplit, hfault], e, w', (exec_bind_ok hloop).trans (hlast.trans hask), ?_⟩
        have hsame : Thinned (fun name => inFolder (folder pre) name = true) w (w₁.ask weather id).2 := by
          have hloop : Thinned (fun name => inFolder (folder pre) name = true) w w₁ :=
            (thinned_filter (· ∉ listed pre w) w _).mono fun name hq => hlisted name (by simpa using hq)
          exact (hloop.trans (Thinned.refl _ w₁).ask).mono fun name hq => hq.elim id id
        rw [hask] at hsame
        exact hsame
  · exact .inr ⟨fun hcalm => hnot (hsplit.mp hcalm).1, e, w', exec_bind_error hloop,
      hsame.mono hlisted⟩

/-! ### The crops -/

/-- The removals of some names, one call each: a name that was there is gone
exactly if every call before its own went well and its own took it away. -/
theorem removeKeys_exec (hloud : Loud weather) {keys : List String} (hnodup : keys.Nodup)
    (w : Shelves K) :
    let p : RouteProgram Unit := keys.forM removeQuietly
    ∃ r w', p.exec (shelve weather) w = (r, w') ∧ Thinned (· ∈ keys) w w' ∧
      ∀ j key, keys[j]? = some key → key ∈ w.names →
        (key ∉ w'.names ↔ Calm weather w.calls (w.calls + j) ∧ Removes weather (w.calls + j)) := by
  induction keys generalizing w with
  | nil => exact ⟨.ok (), w, rfl, .refl _ w, fun j key hj => by simp at hj⟩
  | cons key keys ih =>
      intro p
      obtain ⟨hkey, hnodup⟩ := List.nodup_cons.mp hnodup
      have hone : (removeQuietly key).exec (shelve weather) w = w.ask weather (·.remove key) :=
        removeQuietly_exec hloud key w
      have hsame := @thinned_ask_remove K weather key w
      cases hfault : weather.faults w.calls with
      | some fault =>
          -- the loop ends here, with the first name gone or not
          have hask : w.ask weather (·.remove key) =
              (.error (.store fault.code), (if fault.done then w.remove key else w).tick) := by
            rw [Shelves.ask, hfault]
          rw [hask] at hone hsame
          refine ⟨_, _, exec_bind_error hone, hsame.mono fun name hq => hq ▸ List.mem_cons_self,
            fun j key' hj hmem => ?_⟩
          cases j with
          | zero =>
              cases hj
              have hremoves : Removes weather w.calls ↔ fault.done = true := by simp [Removes, hfault]
              rw [Nat.add_zero, hremoves]
              cases hdone : fault.done with
              | true => simp [Shelves.remove, Shelves.tick, calm_self]
              | false => simpa [Shelves.tick] using hmem
          | succ j =>
              have hne : key' ≠ key := fun heq => hkey (heq ▸ List.mem_of_getElem? hj)
              have hloud' : ¬ Calm weather w.calls (w.calls + (j + 1)) := fun hcalm => by
                simp [hcalm w.calls (le_refl _) (by omega)] at hfault
              have hstay : key' ∈ (if fault.done then w.remove key else w).tick.names := by
                cases fault.done <;> simp [Shelves.remove, Shelves.tick, hmem, hne]
              simp [hstay, hloud']
      | none =>
          rw [ask_of_calm hfault] at hone hsame
          obtain ⟨r, w', hrest, hsame', hgone⟩ := ih hnodup (w.remove key).tick
          refine ⟨r, w', (exec_bind_ok hone).trans hrest,
            (hsame.trans hsame').mono fun name hq => List.mem_cons.mpr hq, fun j key' hj hmem => ?_⟩
          cases j with
          | zero =>
              cases hj
              have hnot : key ∉ w'.names := fun hmem => by
                simpa [Shelves.remove, Shelves.tick] using hsame'.fewer key hmem
              simp [hnot, calm_self, Removes, hfault]
          | succ j =>
              have hne : key' ≠ key := fun heq => hkey (heq ▸ List.mem_of_getElem? hj)
              have hmem' : key' ∈ (w.remove key).tick.names := by
                simp [Shelves.remove, Shelves.tick, hmem, hne]
              rw [hgone j key' hj hmem', calm_succ_iff (show w.calls < w.calls + (j + 1) by omega)]
              have hcalls : (w.remove key).tick.calls + j = w.calls + (j + 1) := by
                simp only [Shelves.remove, Shelves.tick]
                omega
              rw [hcalls]
              simp [hfault, Shelves.remove, Shelves.tick]

/-! ### One request -/

/-- The crop of a removed cluster. -/
def cropOf (c : String × Uuid) : String := cropKey c.1 c.2.text

def framesOf (streamId : String) : String := "faces/" ++ streamId

/-- The number of the call that removes the first crop, if all goes well before. -/
def firstCrop (streamId : String) (w : Shelves K) : ℕ :=
  w.calls + 2 * (listed (framesOf streamId) w).length + 1

theorem cropOf_injective {c c' : String × Uuid} (h : cropOf c = cropOf c') : c = c' := by
  obtain ⟨howner, hid⟩ := cropKey_inj (slash_not_mem_text _) (slash_not_mem_text _) h
  exact Prod.ext howner (Uuid.text_injective hid)

theorem orphaned_nodup (db : Database K) (stream : Uuid) :
    ((orphaned db stream).map cropOf).Nodup := by
  refine List.Nodup.map (fun c c' => cropOf_injective) ?_
  refine List.Nodup.filterMap ?_ (List.nodup_dedup _)
  intro id id' c hc hc'
  simp only [Option.mem_def] at hc hc'
  have hlast : ∀ {id : Uuid} {c : String × Uuid},
      (if (db.deleteOccurrences (inStream stream)).countFor id = 0 then
      ((db.deleteOccurrences (inStream stream)).clusterById id).map fun r => (r.ownerId.text, id)
      else none) = some c → c.2 = id := by
    intro id c h
    split at h
    · obtain ⟨r, -, rfl⟩ := Option.map_eq_some_iff.mp h
      rfl
    · cases h
  exact (hlast hc).symm.trans (hlast hc')

/-- The folder of a stream, under the name the database takes it by. -/
theorem folder_framesOf {streamId : String} {stream : Uuid} (h : castUuid streamId = .ok stream) :
    folder (framesOf streamId) = "faces/" ++ streamId ++ "/" := by
  have hne : streamId.toList ≠ [] := by
    intro hnil
    have hempty : castUuid "" = .error .invalidUuid := by decide
    rw [String.toList_eq_nil_iff.mp hnil, hempty] at h
    cases h
  have hlast : (framesOf streamId).toList.rdropWhile (· = '/') = (framesOf streamId).toList := by
    rw [List.rdropWhile_eq_self_iff]
    intro hl
    have hmem : (framesOf streamId).toList.getLast hl ∈ streamId.toList := by
      simp only [framesOf, String.toList_append]
      rw [List.getLast_append_of_ne_nil _ hne]
      exact List.getLast_mem hne
    have hslash : (framesOf streamId).toList.getLast hl ≠ '/' := fun heq =>
      slash_not_mem h (heq ▸ hmem)
    simpa using hslash
  rw [folder, hlast, String.ofList_toList]
  rfl

/-- No crop lies in the folder of a stream. -/
theorem crop_not_inFolder {streamId : String} {stream : Uuid} (h : castUuid streamId = .ok stream)
    (c : String × Uuid) : inFolder (folder (framesOf streamId)) (cropOf c) = false := by
  rw [folder_framesOf h, Bool.eq_false_iff]
  intro hin
  obtain ⟨rest, hrest⟩ := List.isPrefixOf_iff_prefix.mp hin
  have hlist : streamId.toList ++ '/' :: rest =
      "crops".toList ++ '/' :: (c.1.toList ++ '/' :: (c.2.text.toList ++ ".jpg".toList)) := by
    have hboth : "faces/".toList ++ (streamId.toList ++ '/' :: rest) = "faces/".toList ++
        ("crops".toList ++ '/' :: (c.1.toList ++ '/' :: (c.2.text.toList ++ ".jpg".toList))) := by
      have hkey := cropKey_toList c.1 c.2.text
      rw [cropOf, hkey] at hrest
      simpa using hrest
    exact List.append_cancel_left hboth
  -- what stands before the first slash
  have hfirst := congrArg (List.takeWhile (· ≠ '/')) hlist
  have hcrops : ∀ ch ∈ "crops".toList, decide (ch ≠ '/') = true :=
    List.all_eq_true.mp (by decide)
  rw [List.takeWhile_append_of_pos, List.takeWhile_append_of_pos hcrops] at hfirst
  · simp only [ne_eq, not_true_eq_false, decide_false, Bool.false_eq_true, not_false_eq_true,
      List.takeWhile_cons_of_neg, List.append_nil] at hfirst
    have hcrops : castUuid "crops" = .error .invalidUuid := by decide +kernel
    rw [String.toList_inj.mp hfirst, hcrops] at h
    cases h
  · intro ch hch
    have hne : ch ≠ '/' := fun heq => slash_not_mem h (heq ▸ hch)
    simpa using hne

theorem purgeObjects_exec (hloud : Loud weather) {streamId : String} {stream : Uuid}
    (hstream : castUuid streamId = .ok stream) {deleted : List (String × Uuid)}
    (hnodup : (deleted.map cropOf).Nodup) (w : Shelves K) :
    ∃ r w', (purgeObjects streamId deleted).exec (shelve weather) w = (r, w') ∧
      Thinned (fun name => inFolder (folder (framesOf streamId)) name = true ∨ name ∈ deleted.map cropOf)
        w w' ∧
      (r = .ok () → ∀ name ∈ w'.names, inFolder (folder (framesOf streamId)) name = false) ∧
      ∀ j c, deleted[j]? = some c → cropOf c ∈ w.names →
        (cropOf c ∉ w'.names ↔ Calm weather w.calls (firstCrop streamId w + j) ∧
          Removes weather (firstCrop streamId w + j)) := by
  have hloop : (deleted.forM fun c => deleteCrop c.1 c.2.text) =
      (deleted.map cropOf).forM removeQuietly := by
    induction deleted with
    | nil => rfl
    | cons c deleted ih =>
        exact congrArg (fun p : RouteProgram Unit => removeQuietly (cropOf c) >>= fun _ => p)
          (ih (List.nodup_cons.mp hnodup).2)
  have hsplit : ∀ j, Calm weather w.calls (firstCrop streamId w + j) ↔
      Calm weather w.calls (firstCrop streamId w) ∧
        Calm weather (firstCrop streamId w) (firstCrop streamId w + j) := fun j =>
    calm_append_iff (by unfold firstCrop; omega) (by omega)
  rcases deletePrefix_exec hloud (framesOf streamId) w with
    ⟨hcalm, hframes⟩ | ⟨hnot, e, w₁, hframes, hthin⟩
  · let w₁ : Shelves K :=
      { w with names := w.names.filter fun name => !inFolder (folder (framesOf streamId)) name
               calls := firstCrop streamId w }
    obtain ⟨r, w', hcrops, hthin, hgone⟩ := removeKeys_exec hloud hnodup w₁
    have hfirst : Thinned (fun name => inFolder (folder (framesOf streamId)) name = true) w w₁ :=
      (thinned_filter _ w _).mono fun name hq => by simpa using hq
    refine ⟨r, w', ?_, hfirst.trans hthin, fun _ name hname => ?_, fun j c hj hmem => ?_⟩
    · rw [purgeObjects, hloop]
      exact (exec_bind_ok hframes).trans hcrops
    · have hmem := (List.mem_filter.mp (hthin.fewer name hname)).2
      simpa using hmem
    · have hmem' : cropOf c ∈ w₁.names :=
        List.mem_filter.mpr ⟨hmem, by simp [crop_not_inFolder hstream]⟩
      have hkey : (deleted.map cropOf)[j]? = some (cropOf c) := by simp [hj]
      rw [hgone j _ hkey hmem', hsplit]
      exact ⟨fun h => ⟨⟨hcalm, h.1⟩, h.2⟩, fun h => ⟨h.1.2, h.2⟩⟩
  · refine ⟨.error e, w₁, ?_, hthin.mono fun name hq => .inl hq, fun h => absurd h (by simp),
      fun j c hj hmem => ?_⟩
    · exact exec_bind_error hframes
    · have hstay : cropOf c ∈ w₁.names :=
        hthin.kept _ (by simp [crop_not_inFolder hstream]) hmem
      exact ⟨fun h => absurd hstay h, fun h => absurd ((hsplit j).mp h.1).1 hnot⟩

variable {args : RouteArgs}

/-- The caller has the internal token. -/
def Authorised (args : RouteArgs) : Prop := args.expected ≠ "" ∧ args.token = some args.expected

theorem internalToken_of_authorised (h : Authorised args) :
    internalToken args.expected args.token = pure () := by
  rw [internalToken, if_neg h.1, if_neg (not_not.mpr h.2)]

/-- A request without the token, or for something that is no uuid, does nothing. -/
theorem attempt_refused (w : Shelves K)
    (h : ¬ (Authorised args ∧ ∃ stream, castUuid args.streamId = .ok stream)) :
    statusOf (attempt weather args w).1 ≠ 200 ∧ (attempt weather args w).2 = w := by
  by_cases hauth : Authorised args
  · cases hcast : castUuid args.streamId with
    | ok stream => exact absurd ⟨hauth, stream, hcast⟩ h
    | error e =>
        have hrun : attempt weather args w = (.error (.http 500 "cascade delete failed"), w) := by
          have hcascade : (routeCall (.cascadeStream args.streamId)).exec (shelve weather) w =
              (.error (.db e), w) := by
            rw [exec_perform, shelve, cascadeStream, hcast]
            rfl
          unfold attempt cascadeStreamRoute
          rw [internalToken_of_authorised hauth]
          refine (exec_bind_ok (exec_pure _ _ _)).trans (exec_bind_error ?_)
          rw [exec_tryCatch, hcascade]
          rfl
        rw [hrun]
        exact ⟨(by decide : 500 ≠ 200), rfl⟩
  · unfold attempt cascadeStreamRoute internalToken
    by_cases hexpected : args.expected = ""
    · rw [if_pos hexpected]
      exact ⟨(by decide : 503 ≠ 200), rfl⟩
    · rw [if_neg hexpected, if_pos fun htoken => hauth ⟨hexpected, htoken⟩]
      exact ⟨(by decide : 401 ≠ 200), rfl⟩

theorem Retried.accepted {w w' : Shelves K} (h : Retried weather args w w') :
    Authorised args ∧ ∃ stream, castUuid args.streamId = .ok stream := by
  induction h with
  | @done w h =>
      by_contra hnot
      exact (attempt_refused w hnot).1 h
  | again _ _ ih => exact ih

/-- A request that gets past its transaction. -/
theorem attempt_exec (hstore : args.storeReady = true) (hauth : Authorised args)
    {stream : Uuid} (hstream : castUuid args.streamId = .ok stream) (w : Shelves K)
    (hids : (w.db.clusters.map (·.id)).Nodup) :
    ∃ now r, (purgeObjects args.streamId (orphaned w.db stream)).exec (shelve weather)
        { w with db := purge now (inStream stream) w.db } = (r, (attempt weather args w).2) ∧
      (statusOf (attempt weather args w).1 = 200 ↔ r = .ok ()) := by
  obtain ⟨c, hrun, hdb, -, hdeleted, -⟩ := cascadeStream_purges hids hstream (weather.clock w.calls)
  let w₁ : Shelves K := { w with db := c.db }
  have hcascade : ((routeCall (.cascadeStream args.streamId)).tryCatch
      fun _ => raise (.http 500 "cascade delete failed")).exec (shelve weather) w = (.ok c.result, w₁) := by
    rw [exec_tryCatch, exec_perform, shelve, hrun]
  obtain ⟨r, w', hpurge⟩ : ∃ r w', (purgeObjects args.streamId (orphaned w.db stream)).exec
      (shelve weather) w₁ = (r, w') := ⟨_, _, rfl⟩
  have hattempt : attempt weather args w =
      match r with
      | .ok () => (.ok ⟨args.streamId, c.result⟩, w')
      | .error _ => (.error (.http 500 "cascade storage delete failed"), w') := by
    unfold attempt cascadeStreamRoute
    rw [internalToken_of_authorised hauth]
    refine (exec_bind_ok (exec_pure _ _ _)).trans ((exec_bind_ok hcascade).trans ?_)
    rw [hdeleted, if_pos hstore]
    cases r with
    | ok u =>
        have hcaught : ((purgeObjects args.streamId (orphaned w.db stream)).tryCatch
            fun _ => raise (.http 500 "cascade storage delete failed")).exec (shelve weather) w₁ =
              (.ok u, w') := by
          rw [exec_tryCatch, hpurge]
        exact exec_bind_ok hcaught
    | error e =>
        have hcaught : ((purgeObjects args.streamId (orphaned w.db stream)).tryCatch
            fun _ => raise (.http 500 "cascade storage delete failed")).exec (shelve weather) w₁ =
              (.error (.http 500 "cascade storage delete failed"), w') := by
          rw [exec_tryCatch, hpurge]
          rfl
        exact exec_bind_error hcaught
  refine ⟨weather.clock w.calls, r, ?_, ?_⟩
  · rw [← hdb, hattempt]
    cases r <;> exact hpurge
  · rw [hattempt]
    cases r with
    | ok u => simp [statusOf]
    | error e => simp [statusOf]

/-! ### All requests -/

/-- What one request does to the names, whatever it answers. -/
theorem attempt_purges (hloud : Loud weather) (hstore : args.storeReady = true) (hauth : Authorised args)
    {stream : Uuid} (hstream : castUuid args.streamId = .ok stream) (w : Shelves K)
    (hids : (w.db.clusters.map (·.id)).Nodup) :
    (∃ now, (attempt weather args w).2.db = purge now (inStream stream) w.db) ∧
      (∀ name ∈ (attempt weather args w).2.names, name ∈ w.names) ∧
      (∀ name ∈ w.names, inFolder (folder (framesOf args.streamId)) name = false →
        name ∉ (orphaned w.db stream).map cropOf → name ∈ (attempt weather args w).2.names) ∧
      (statusOf (attempt weather args w).1 = 200 →
        ∀ name ∈ (attempt weather args w).2.names,
          inFolder (folder (framesOf args.streamId)) name = false) ∧
      ∀ j c, (orphaned w.db stream)[j]? = some c → cropOf c ∈ w.names →
        (cropOf c ∉ (attempt weather args w).2.names ↔
          Calm weather w.calls (firstCrop args.streamId w + j) ∧
            Removes weather (firstCrop args.streamId w + j)) := by
  obtain ⟨now, r, hrun, hstatus⟩ := attempt_exec hstore hauth hstream w hids
  obtain ⟨r', w', hpurge, hthin, hclean, hcrops⟩ := purgeObjects_exec hloud hstream
    (orphaned_nodup w.db stream) { w with db := purge now (inStream stream) w.db }
  rw [hrun, Prod.mk.injEq] at hpurge
  obtain ⟨rfl, hw'⟩ := hpurge
  rw [hw']
  exact ⟨⟨now, hthin.db⟩, hthin.fewer,
    fun name hname hin hnot => hthin.kept name (by simp [hin, hnot]) hname,
    fun h => hclean (hstatus.mp h), hcrops⟩

/-- After a first request the stream has no rows, so that later ones only see to
the frames. -/
theorem Retried.later (hloud : Loud weather) (hstore : args.storeReady = true) (hauth : Authorised args)
    {stream : Uuid} (hstream : castUuid args.streamId = .ok stream) {w w' : Shelves K}
    (h : Retried weather args w w') (hids : (w.db.clusters.map (·.id)).Nodup)
    (hrows : ∀ o ∈ w.db.occurrences, inStream stream o = false) :
    w'.db = w.db ∧ (∀ name ∈ w'.names, name ∈ w.names) ∧
      ∀ name ∈ w.names, inFolder (folder (framesOf args.streamId)) name = false → name ∈ w'.names := by
  have hone : ∀ w : Shelves K, (w.db.clusters.map (·.id)).Nodup →
      (∀ o ∈ w.db.occurrences, inStream stream o = false) →
      (attempt weather args w).2.db = w.db ∧ (∀ name ∈ (attempt weather args w).2.names, name ∈ w.names) ∧
        ∀ name ∈ w.names, inFolder (folder (framesOf args.streamId)) name = false →
          name ∈ (attempt weather args w).2.names := by
    intro w hids hrows
    obtain ⟨⟨now, hdb⟩, hfewer, hkept, -, -⟩ := attempt_purges hloud hstore hauth hstream w hids
    have hnone : orphaned w.db stream = [] := by
      have hclusters : clustersIn w.db stream = [] := by
        rw [clustersIn, List.filter_eq_nil_iff.mpr fun o ho => by simpa [inStream] using hrows o ho]
        rfl
      rw [orphaned, hclusters]
      rfl
    rw [purge_none hrows] at hdb
    exact ⟨hdb, hfewer, fun name hname hin => hkept name hname hin (by simp [hnone])⟩
  induction h with
  | @done w h => exact hone w hids hrows
  | @again w w' h hrest ih =>
      obtain ⟨hdb, hfewer, hkept⟩ := hone w hids hrows
      obtain ⟨hdb', hfewer', hkept'⟩ := ih (hdb ▸ hids) (hdb ▸ hrows)
      exact ⟨hdb'.trans hdb, fun name hname => hfewer name (hfewer' name hname),
        fun name hname hin => hkept' name (hkept name hname hin) hin⟩

/-- The last request leaves no frame. -/
theorem Retried.clean (hloud : Loud weather) (hstore : args.storeReady = true) (hauth : Authorised args)
    {stream : Uuid} (hstream : castUuid args.streamId = .ok stream) {w w' : Shelves K}
    (h : Retried weather args w w') (hids : (w.db.clusters.map (·.id)).Nodup) :
    ∀ name ∈ w'.names, inFolder (folder (framesOf args.streamId)) name = false := by
  induction h with
  | @done w h => exact (attempt_purges hloud hstore hauth hstream w hids).2.2.2.1 h
  | @again w w' h hrest ih =>
      obtain ⟨⟨now, hdb⟩, -⟩ := attempt_purges hloud hstore hauth hstream w hids
      exact ih (hdb ▸ hids.sublist (settle_ids_sublist now _ _))

/-- An object that is a crop of the cluster: the one its row names, or one under
its ids, whatever the spelling that the upload put into the key. -/
def Cluster.IsCrop (c : Cluster K) (name : String) : Prop :=
  c.cropObject = some name ∨ ∃ ownerId clusterId,
    castUuid ownerId = .ok c.ownerId ∧ castUuid clusterId = .ok c.id ∧ cropKey ownerId clusterId = name

/-- What the caller is promised: no frame of the stream is left, and no crop of a
cluster that is gone. -/
def Purged (streamId : String) (w w' : Shelves K) : Prop :=
  (∀ name ∈ w'.names, inFolder ("faces/" ++ streamId ++ "/") name = false) ∧
    ∀ c ∈ w.db.clusters, c.id ∉ w'.db.clusters.map (·.id) →
      ∀ name, c.IsCrop name → name ∉ w'.names

/-- The first request gets to an object: it stands under the canonical key of a
cluster that the request removes, no call fails up to its removal, and that takes
it away. -/
def Reaches (weather : Weather) (streamId : String) (stream : Uuid) (w : Shelves K) (name : String) :
    Prop :=
  ∃ j c, (orphaned w.db stream)[j]? = some c ∧ cropOf c = name ∧
    Calm weather w.calls (firstCrop streamId w + j) ∧ Removes weather (firstCrop streamId w + j)

/-- The first request gets to every crop of the clusters it removes, save those
that lie among the frames of the stream. -/
def FirstGetsThrough (weather : Weather) (streamId : String) (w : Shelves K) : Prop :=
  ∀ stream, castUuid streamId = .ok stream → ∀ c ∈ w.db.clusters,
    (c.ownerId.text, c.id) ∈ orphaned w.db stream → ∀ name ∈ w.names, c.IsCrop name →
      inFolder ("faces/" ++ streamId ++ "/") name = true ∨ Reaches weather streamId stream w name

/-- The clusters that are gone are those that have lost their last row. -/
theorem gone_iff {db : Database K} (hids : (db.clusters.map (·.id)).Nodup) {now : ℕ} {stream : Uuid}
    {c : Cluster K} (hc : c ∈ db.clusters) :
    c.id ∉ (purge now (inStream stream) db).clusters.map (·.id) ↔
      (c.ownerId.text, c.id) ∈ orphaned db stream := by
  have hsettle : c.id ∉ (purge now (inStream stream) db).clusters.map (·.id) ↔
      settleCluster now (db.deleteOccurrences (inStream stream)) (hit (inStream stream) db) c = none := by
    constructor
    · intro hnot
      cases hs : settleCluster now (db.deleteOccurrences (inStream stream)) (hit (inStream stream) db) c with
      | none => rfl
      | some c' =>
          refine absurd (List.mem_map.mpr ⟨c', List.mem_filterMap.mpr ⟨c, hc, hs⟩, ?_⟩) hnot
          exact (settleCluster_keeps hs).1
    · intro hnone hmem
      obtain ⟨c', hc', hid⟩ := List.mem_map.mp hmem
      obtain ⟨c₀, hc₀, hs⟩ := List.mem_filterMap.mp hc'
      rw [List.inj_on_of_nodup_map hids hc hc₀ (hid.symm.trans (settleCluster_keeps hs).1), hs] at hnone
      cases hnone
  rw [hsettle, settleCluster_eq_none, mem_orphaned hids, mem_hit, countFor_deleteOccurrences_eq_zero]
  simp only [inStream, decide_eq_true_eq]
  constructor
  · rintro ⟨⟨o, ho, -, hid⟩, hall⟩
    exact ⟨c, hc, rfl, rfl, ⟨o, ho, hid⟩, hall⟩
  · rintro ⟨c', -, -, -, ⟨o, ho, hid⟩, hall⟩
    exact ⟨⟨o, ho, hall o ho hid, hid⟩, hall⟩

/-- Repeating the request until it answers 200 purges everything exactly if the
first request gets to its crops. -/
theorem retry_purges_iff (hloud : Loud weather) (hstore : args.storeReady = true) {w w' : Shelves K}
    (hids : (w.db.clusters.map (·.id)).Nodup) (h : Retried weather args w w') :
    Purged args.streamId w w' ↔ FirstGetsThrough weather args.streamId w := by
  obtain ⟨hauth, stream, hstream⟩ := h.accepted
  have hfolder := folder_framesOf hstream
  have hclean := h.clean hloud hstore hauth hstream hids
  obtain ⟨⟨now, hdb⟩, hfewer, hkept, -, hcrops⟩ := attempt_purges hloud hstore hauth hstream w hids
  obtain ⟨w₁, hw₁⟩ : ∃ w₁, (attempt weather args w).2 = w₁ := ⟨_, rfl⟩
  simp only [hw₁, hfolder] at hdb hfewer hkept hcrops
  rw [hfolder] at hclean
  -- after the first request neither the clusters nor what lies outside the folder change
  have hlater : w'.db = w₁.db ∧ ∀ name, inFolder ("faces/" ++ args.streamId ++ "/") name = false →
      (name ∈ w'.names ↔ name ∈ w₁.names) := by
    have hids₁ : (w₁.db.clusters.map (·.id)).Nodup := by
      rw [hdb]
      exact hids.sublist (settle_ids_sublist now _ _)
    have hrows₁ : ∀ o ∈ w₁.db.occurrences, inStream stream o = false := by
      rw [hdb]
      exact fun o ho => by simpa using (List.mem_filter.mp ho).2
    cases h with
    | done h =>
        rw [hw₁]
        exact ⟨rfl, fun _ _ => .rfl⟩
    | again h hrest =>
        rw [hw₁] at hrest
        obtain ⟨hdb', hfewer', hkept'⟩ := hrest.later hloud hstore hauth hstream hids₁ hrows₁
        rw [hfolder] at hkept'
        exact ⟨hdb', fun name hin => ⟨hfewer' name, fun hname => hkept' name hname hin⟩⟩
  have hgone : ∀ c ∈ w.db.clusters, c.id ∉ w'.db.clusters.map (·.id) ↔
      (c.ownerId.text, c.id) ∈ orphaned w.db stream := by
    intro c hc
    rw [hlater.1, hdb]
    exact gone_iff hids hc
  constructor
  · rintro ⟨-, hpurged⟩ stream' hstream' c hc hin name hname hcrop
    cases hstream.symm.trans hstream'
    cases hfold : inFolder ("faces/" ++ args.streamId ++ "/") name with
    | true => exact .inl rfl
    | false =>
        have hleft : name ∉ w₁.names := fun hmem =>
          hpurged c hc ((hgone c hc).mpr hin) name hcrop ((hlater.2 name hfold).mpr hmem)
        -- what the first request took away it took by a canonical key
        obtain ⟨c', hc', rfl⟩ : ∃ c' ∈ orphaned w.db stream, cropOf c' = name := by
          by_contra hnot
          exact hleft (hkept name hname hfold fun hmem => hnot (List.mem_map.mp hmem))
        obtain ⟨j, hj⟩ := List.getElem?_of_mem hc'
        obtain ⟨hcalm, hremoves⟩ := (hcrops j c' hj hname).mp hleft
        exact .inr ⟨j, c', hj, rfl, hcalm, hremoves⟩
  · refine fun hthrough => ⟨hclean, fun c hc hnot name hcrop hleft => ?_⟩
    have hfold := hclean name hleft
    have hleft₁ := (hlater.2 name hfold).mp hleft
    have hname := hfewer name hleft₁
    rcases hthrough stream hstream c hc ((hgone c hc).mp hnot) name hname hcrop with
      hin | ⟨j, c', hj, rfl, hcalm, hremoves⟩
    · rw [hfold] at hin
      cases hin
    · exact (hcrops j c' hj hname).mpr ⟨hcalm, hremoves⟩ hleft₁

/-- One cluster, seen in one stream only, with a crop that was uploaded under the
given spelling of its id. -/
def lastSighting (clusterId : String) : Shelves ℚ where
  db := { clusters := [{ Cluster.anonymous (.fill 3) (.fill 1) [1] 1 with
                           cropObject := some (cropKey (Uuid.fill 1).text clusterId) }]
          occurrences := [⟨.fill 1, .fill 8, .fill 3, [1], 5 / 2, 1, 0⟩] }
  names := [cropKey (Uuid.fill 1).text clusterId]
  calls := 0

def requestFor (streamId : String) : RouteArgs := ⟨true, "secret", some "secret", streamId⟩

/-- A store that never fails. -/
def fairWeather : Weather := ⟨fun _ => none, fun n => n⟩

theorem fairWeather_loud : Loud fairWeather := fun n fault h => by cases h

theorem retry_purges_iff_fair :
    Purged (Uuid.fill 8).text (lastSighting (Uuid.fill 3).text)
      (attempt fairWeather (requestFor (Uuid.fill 8).text) (lastSighting (Uuid.fill 3).text)).2 := by
  have hdone : Retried fairWeather (requestFor (Uuid.fill 8).text) (lastSighting (Uuid.fill 3).text)
      (attempt fairWeather (requestFor (Uuid.fill 8).text) (lastSighting (Uuid.fill 3).text)).2 :=
    .done (by decide +kernel)
  refine (retry_purges_iff fairWeather_loud rfl (by decide) hdone).mpr ?_
  intro stream hstream c _ _ name hname _
  obtain rfl : .fill 8 = stream := Except.ok.inj ((Uuid.castUuid_text _).symm.trans hstream)
  obtain rfl := List.mem_singleton.mp hname
  have hfirst : (orphaned (lastSighting (Uuid.fill 3).text).db (.fill 8))[0]? =
      some ((Uuid.fill 1).text, .fill 3) := by decide +kernel
  exact .inr ⟨0, _, hfirst, rfl, fun _ _ _ => rfl, fun fault h => by cases h⟩

/-- An upload for the id without its hyphens leaves an object that even a request
without a failure does not get to. -/
example : let w := lastSighting "33333333333333333333333333333333"
    statusOf (attempt fairWeather (requestFor (Uuid.fill 8).text) w).1 = 200 ∧
      (attempt fairWeather (requestFor (Uuid.fill 8).text) w).2.db.clusters = [] ∧
      (attempt fairWeather (requestFor (Uuid.fill 8).text) w).2.names = w.names := by
  decide +kernel

/-- The listing of the frames fails at the first request, and only there. -/
def oneFault : Weather := ⟨fun n => if n = 0 then some ⟨none, false⟩ else none, fun n => n⟩

/-- The second request finds no cluster to remove, and the crop stays. -/
theorem retry_leaves_crop :
    ¬ ∀ (weather : Weather) (args : RouteArgs) (w w' : Shelves ℚ), Loud weather →
      args.storeReady = true → (w.db.clusters.map (·.id)).Nodup → Retried weather args w w' →
      Purged args.streamId w w' := by
  intro h
  have hloud : Loud oneFault := by
    intro n fault hfault
    unfold oneFault at hfault
    simp only at hfault
    split at hfault
    · cases hfault
      rfl
    · cases hfault
  obtain ⟨-, hcrops⟩ := h oneFault (requestFor (Uuid.fill 8).text) (lastSighting (Uuid.fill 3).text) _
    hloud rfl (by decide) (.again (by decide +kernel) (.done (by decide +kernel)))
  refine hcrops _ List.mem_cons_self ?_ (cropKey (Uuid.fill 1).text (Uuid.fill 3).text) (.inl rfl) ?_
  · decide +kernel
  · decide +kernel

end FacesService
