import Mathlib.Data.List.Infix
import Mathlib.Tactic.Common

/-! Runs of an event-driven machine, and the rule that turns one exact condition on
steps into an exact condition on runs. -/
namespace NestStorageExample.Runs
variable {S E : Type} (step : S → E → Option S)

/-- The state after a list of events; `none` when one of them was not enabled. -/
def run (s : S) : List E → Option S
  | [] => some s
  | e :: events => (step s e).bind (fun s' => run s' events)

/-- `safe` holds in every state the run reaches. -/
def AlwaysSafe (safe : S → Prop) (s : S) (events : List E) : Prop :=
  ∀ before s', before <+: events → run step s before = some s' → safe s'

/-- Every step of the run is taken under its guard. -/
def AlwaysGuarded (guard : S → E → Prop) (s : S) (events : List E) : Prop :=
  ∀ before e s' s'', before ++ [e] <+: events → run step s before = some s' → step s' e = some s'' → guard s' e

variable {step} in
/-- What every step keeps, a run keeps. -/
theorem run_invariant {inv : S → Prop} (hinv : ∀ s e s', inv s → step s e = some s' → inv s')
    {s s' : S} {events : List E} (hs : inv s) (h : run step s events = some s') : inv s' := by
  induction events generalizing s with
  | nil =>
    cases h
    exact hs
  | cons e events ih =>
    obtain ⟨s1, h1, hrun⟩ := Option.bind_eq_some_iff.mp h
    exact ih (hinv s e s1 hs h1) hrun

theorem alwaysSafe_nil (safe : S → Prop) (s : S) : AlwaysSafe step safe s [] ↔ safe s := by
  constructor
  · exact fun h => h [] s List.nil_prefix rfl
  · intro hs before s' hbefore h
    rw [List.prefix_nil.mp hbefore] at h
    cases h
    exact hs

theorem alwaysSafe_cons (safe : S → Prop) (s : S) (e : E) (events : List E) :
    AlwaysSafe step safe s (e :: events) ↔ safe s ∧ ∀ s', step s e = some s' → AlwaysSafe step safe s' events := by
  constructor
  · intro h
    refine ⟨h [] s List.nil_prefix rfl, fun s1 h1 before s' hbefore hrun => ?_⟩
    exact h (e :: before) s' (List.cons_prefix_cons.mpr ⟨rfl, hbefore⟩) (Option.bind_eq_some_iff.mpr ⟨s1, h1, hrun⟩)
  · rintro ⟨hs, htail⟩ before s' hbefore hrun
    cases before with
    | nil =>
      cases hrun
      exact hs
    | cons e' before =>
      obtain ⟨rfl, hrest⟩ := List.cons_prefix_cons.mp hbefore
      obtain ⟨s1, h1, hrun⟩ := Option.bind_eq_some_iff.mp hrun
      exact htail s1 h1 before s' hrest hrun

theorem alwaysGuarded_nil (guard : S → E → Prop) (s : S) : AlwaysGuarded step guard s [] := by
  intro before e s' s'' hbefore
  exact absurd (List.prefix_nil.mp hbefore) (by simp)

theorem alwaysGuarded_cons (guard : S → E → Prop) (s : S) (e : E) (events : List E) :
    AlwaysGuarded step guard s (e :: events) ↔
      ∀ s', step s e = some s' → guard s e ∧ AlwaysGuarded step guard s' events := by
  constructor
  · intro h s1 h1
    refine ⟨h [] e s s1 (List.cons_prefix_cons.mpr ⟨rfl, List.nil_prefix⟩) rfl h1, ?_⟩
    intro before e' s' s'' hbefore hrun
    exact h (e :: before) e' s' s'' (List.cons_prefix_cons.mpr ⟨rfl, hbefore⟩)
      (Option.bind_eq_some_iff.mpr ⟨s1, h1, hrun⟩)
  · intro h before e' s' s'' hbefore hrun hstep
    cases before with
    | nil =>
      cases hrun
      obtain ⟨rfl, -⟩ := List.cons_prefix_cons.mp hbefore
      exact (h s'' hstep).1
    | cons e1 before =>
      obtain ⟨rfl, hrest⟩ := List.cons_prefix_cons.mp hbefore
      obtain ⟨s1, h1, hrun⟩ := Option.bind_eq_some_iff.mp hrun
      exact (h s1 h1).2 before e' s' s'' hrest hrun hstep

/-- Where a step from a safe state leads to a safe one exactly under its guard, a run
stays safe exactly when all its steps are guarded. -/
theorem alwaysSafe_iff_alwaysGuarded {inv safe : S → Prop} {guard : S → E → Prop}
    (hinv : ∀ s e s', inv s → step s e = some s' → inv s')
    (hexact : ∀ s e s', inv s → safe s → step s e = some s' → (safe s' ↔ guard s e))
    {s : S} (hs : inv s) (hsafe : safe s) (events : List E) :
    AlwaysSafe step safe s events ↔ AlwaysGuarded step guard s events := by
  induction events generalizing s with
  | nil => exact iff_of_true ((alwaysSafe_nil step safe s).mpr hsafe) (alwaysGuarded_nil step guard s)
  | cons e events ih =>
    rw [alwaysSafe_cons, alwaysGuarded_cons, and_iff_right hsafe]
    refine forall₂_congr fun s1 h1 => ?_
    constructor
    · intro h
      have hsafe1 : safe s1 := h [] s1 List.nil_prefix rfl
      exact ⟨(hexact s e s1 hs hsafe h1).mp hsafe1, (ih (hinv s e s1 hs h1) hsafe1).mp h⟩
    · rintro ⟨hguard, h⟩
      have hsafe1 := (hexact s e s1 hs hsafe h1).mpr hguard
      exact (ih (hinv s e s1 hs h1) hsafe1).mpr h

end NestStorageExample.Runs
