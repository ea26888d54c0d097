import FacesService.System.Rules

/-!
How a property is proved of the whole service. A regime gives rules for the calls of
both kinds of programs, under which every call keeps one invariant. If each request
that is accepted keeps to the rules, the invariant holds at every moment of every run
(`Running.keeps`), whatever way the threads come between each other.
-/

namespace FacesService

open Prog

variable {K : Type} [Arithmetic K] {pf : Platform K} {supply : Supply}

/-- Rules for all the calls there are, on one invariant. -/
structure Regime (pf : Platform K) (supply : Supply) where
  keeps : World K → Prop
  calls : Discipline (Call K) Call.Answer PyError (World K)
  route : Discipline RouteCall RouteCall.Answer RouteError (World K)
  answers : ∀ {op : Call K} {w : World K} {r : Except PyError op.Answer} {w' : World K},
    Outcome pf supply.oracle op w r w' → w'.draws ≤ supply.limit → calls.answers op w r w'
  routeAnswers : ∀ {op : RouteCall} {w : World K} {r : Except RouteError op.Answer} {w' : World K},
    RouteOutcome pf supply.oracle op w r w' → w'.draws ≤ supply.limit → route.answers op w r w'
  /-- Both rely on the same. -/
  common : route.rely = calls.rely
  kept : ∀ {w w' : World K}, calls.rely w w' → keeps w → keeps w'
  /-- Frames come and go. -/
  frame : ∀ (w : World K) (pre : String) (index : ℕ) (blob : Option Blob),
    calls.rely w (w.setObject (frameKey pre index) blob)

/-- What every thread holds on to. -/
def Thread.Holds (g : Regime pf supply) : Thread K → World K → Prop
  | .program p, w => g.keeps w ∧ g.calls.Upholds (fun _ => g.keeps) g.keeps p w
  | .route p, w => g.keeps w ∧ g.route.Upholds (fun _ => g.keeps) g.keeps p w

variable {g : Regime pf supply}

theorem Thread.Holds.keeps {t : Thread K} {w : World K} (h : t.Holds g w) : g.keeps w := by
  cases t with
  | program p => exact h.1
  | route p => exact h.1

/-- A program that keeps to the rules makes a thread that holds on to them. -/
theorem Thread.holds_program {α : Type} {p : Program K α} {Q : α → World K → Prop}
    (h : g.calls.Maintains g.keeps (fun _ => True) p Q) {w : World K} (hw : g.keeps w) :
    (Thread.program (p >>= fun _ => pure ())).Holds g w := by
  have hrest : g.calls.Maintains g.keeps (fun _ => True) (p >>= fun _ => pure ()) fun _ _ => True :=
    .bind h fun _ => .ret fun _ _ => trivial
  exact ⟨hw, (hrest w ⟨hw, trivial⟩).mono (fun _ _ h => h.1) fun _ h => h⟩

theorem Thread.holds_route {α : Type} {p : RouteProgram α} {Q : α → World K → Prop}
    (h : g.route.Maintains g.keeps (fun _ => True) p Q) {w : World K} (hw : g.keeps w) :
    (Thread.route (p >>= fun _ => pure ()) : Thread K).Holds g w := by
  have hrest : g.route.Maintains g.keeps (fun _ => True) (p >>= fun _ => pure ()) fun _ _ => True :=
    .bind h fun _ => .ret fun _ _ => trivial
  exact ⟨hw, (hrest w ⟨hw, trivial⟩).mono (fun _ _ h => h.1) fun _ h => h⟩

/-- A step of the others takes nothing from a thread. -/
theorem Thread.Holds.stable {t : Thread K} {w w' : World K} (h : t.Holds g w)
    (hrely : g.calls.rely w w') : t.Holds g w' := by
  have hw' := g.kept hrely h.keeps
  cases t with
  | program p =>
      have hstable : g.calls.Stable g.keeps := fun _ _ hrely hw => g.kept hrely hw
      exact ⟨hw', h.2.stable (fun _ => hstable) hstable hrely⟩
  | route p =>
      rw [← g.common] at hrely
      have hstable : g.route.Stable g.keeps := fun _ _ hrely hw => g.kept (g.common ▸ hrely) hw
      exact ⟨hw', h.2.stable (fun _ => hstable) hstable hrely⟩

theorem RouteOutcome.draws_le {oracle : Oracle} {op : RouteCall} {r : Except RouteError op.Answer}
    {w w' : World K} (h : RouteOutcome pf oracle op w r w') : w.draws ≤ w'.draws := by
  cases h with
  | cascaded streamId h => exact h.effect.draws_le
  | _ => exact le_refl _

theorem Thread.Move.draws_le {app : App K} {oracle : Oracle} {accepts : Incoming K → Prop}
    {t t' : Thread K} {w w' : World K} (h : t.Move app oracle accepts w t' w') : w.draws ≤ w'.draws := by
  cases h with
  | call hout => exact hout.effect.draws_le
  | route hout => exact hout.draws_le
  | _ => exact le_refl _

section

variable {app : App K} {accepts : Incoming K → Prop} {g : Regime app.service.pf supply}

/-- A move within the supply of ids. -/
abbrev Thread.Drawn (app : App K) (supply : Supply) (accepts : Incoming K → Prop)
    (t : Thread K) (w : World K) (t' : Thread K) (w' : World K) : Prop :=
  t.Move app supply.oracle accepts w t' w' ∧ w'.draws ≤ supply.limit

/-- **The step lemma**: a move keeps what its thread holds on to, and is one the others rely on. -/
theorem Thread.Move.holds
    (hstart : ∀ request, accepts request → ∀ w, g.keeps w → (request.start app).Holds g w)
    {t t' : Thread K} {w w' : World K} (h : t.Holds g w)
    (hmove : Thread.Drawn app supply accepts t w t' w') : t'.Holds g w' ∧ g.calls.rely w w' := by
  obtain ⟨hmove, hlimit⟩ := hmove
  cases hmove with
  | @accept _ _ request ht hrequest =>
      exact ⟨hstart request hrequest w h.keeps, g.calls.refl w⟩
  | call hout =>
      obtain ⟨hrest, hrely⟩ := h.2.move (g.answers hout hlimit)
      exact ⟨⟨g.kept hrely h.1, hrest⟩, hrely⟩
  | route hout =>
      obtain ⟨hrest, hrely⟩ := h.2.move (g.routeAnswers hout hlimit)
      rw [g.common] at hrely
      exact ⟨⟨g.kept hrely h.1, hrest⟩, hrely⟩
  | frame pre index blob =>
      have hrely := g.frame w pre index blob
      exact ⟨h.stable hrely, hrely⟩

variable {ι : Type} [DecidableEq ι] {w₀ : World K} {c : Running ι K}

/-- **The run lemma.** Whatever the threads do, the invariant of the start is kept. -/
theorem Running.keeps (g : Regime app.service.pf supply)
    (hstart : ∀ request, accepts request → ∀ w, g.keeps w → (request.start app).Holds g w)
    (hw₀ : g.keeps w₀) (h : Running.Leads app supply.oracle accepts (.start ι w₀) c)
    (hlimit : c.state.draws ≤ supply.limit) : g.keeps c.state := by
  have hdrawn := Crew.bounded (fun _ _ _ _ hmove => hmove.draws_le) h hlimit
  have hholds : ∀ i, ((Running.start ι w₀).threads i).Holds g w₀ := fun i => ⟨hw₀, hw₀⟩
  have hmove : ∀ t w t' w', Thread.Holds g t w → Thread.Drawn app supply accepts t w t' w' →
      t'.Holds g w' ∧ g.calls.rely w w' :=
    fun t w t' w' hholds hmove => Thread.Move.holds hstart hholds hmove
  obtain ⟨-, hrely⟩ := Crew.preserves hmove (fun t w w' hholds hrely => hholds.stable hrely) hdrawn hholds
  clear h hdrawn hlimit
  generalize c.state = w at hrely
  induction hrely with
  | refl => exact hw₀
  | tail _ hstep ih => exact g.kept hstep ih

end

end FacesService
