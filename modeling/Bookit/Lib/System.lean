import Mathlib.Logic.Function.Basic
import Mathlib.Data.List.Basic

/-!
# System — labelled transition systems and invariants of guarded runs

A system is given by its initial states and by the partial effect of each action; all the
nondeterminism of an execution sits in the choice of the action.  Beside plain reachability we keep
*guarded* reachability, `ReachableUnder G`: the states reached by runs each of whose steps satisfies
the guard `G` in the state before the step.  A guard is how a hypothesis about a run is stated.

The module provides:

* `System.invariant` — the one induction on runs; every safety theorem is an instance of it;
* `System.run` and `System.runUnder` — executable runs, with their soundness lemmas, so that a
  concrete execution can be evaluated;
* `System.withHistory` — a system paired with a history variable, and its projection.
-/

namespace Bookit
namespace Lib

/-- A transition system: initial states, and the effect of an action where it is enabled. -/
structure System (σ α : Type) where
  init : σ → Prop
  step : σ → α → Option σ

namespace System

variable {σ α : Type} (sys : System σ α)

/-! ## Reachability -/

/-- States reached by the runs all of whose steps satisfy `G`. -/
inductive ReachableUnder (G : σ → α → Prop) : σ → Prop where
  | init {s : σ} : sys.init s → ReachableUnder G s
  | step {s t : σ} {a : α} :
      ReachableUnder G s → G s a → sys.step s a = some t → ReachableUnder G t

/-- States reached by any run. -/
def Reachable (s : σ) : Prop :=
  sys.ReachableUnder (fun _ _ => True) s

variable {sys}

theorem ReachableUnder.mono {G H : σ → α → Prop} {s : σ}
    (hGH : ∀ s a, G s a → H s a) (h : sys.ReachableUnder G s) : sys.ReachableUnder H s := by
  induction h with
  | init h0 => exact .init h0
  | step _ hG hstep ih => exact .step ih (hGH _ _ hG) hstep

theorem ReachableUnder.reachable {G : σ → α → Prop} {s : σ}
    (h : sys.ReachableUnder G s) : sys.Reachable s :=
  h.mono (fun _ _ _ => trivial)

/-- The system with one state to start from. -/
def startingAt (sys : System σ α) (s : σ) : System σ α :=
  { sys with init := fun t => t = s }

/-- What a run reaches from a state that a run has reached. -/
theorem ReachableUnder.of_startingAt {G : σ → α → Prop} {s t : σ} (hs : sys.ReachableUnder G s)
    (h : (sys.startingAt s).ReachableUnder G t) : sys.ReachableUnder G t := by
  induction h with
  | init h0 => exact h0 ▸ hs
  | step _ hG hst ih => exact .step ih hG hst

/-- The induction rule: what holds initially and is kept by every guarded step holds throughout. -/
theorem invariant {G : σ → α → Prop} {I : σ → Prop}
    (hinit : ∀ s, sys.init s → I s)
    (hstep : ∀ s a t, I s → G s a → sys.step s a = some t → I t)
    {s : σ} (h : sys.ReachableUnder G s) : I s := by
  induction h with
  | init h0 => exact hinit _ h0
  | step _ hG hst ih => exact hstep _ _ _ ih hG hst

/-! ## Executable runs -/

variable (sys)

/-- The state after a list of actions, if each is enabled in turn. -/
def run (s : σ) : List α → Option σ
  | [] => some s
  | a :: as =>
      match sys.step s a with
      | some t => run t as
      | none => none

/-- As `run`, but stuck at the first action whose guard fails. -/
def runUnder (G : σ → α → Prop) [∀ s a, Decidable (G s a)] (s : σ) : List α → Option σ
  | [] => some s
  | a :: as =>
      if G s a then
        match sys.step s a with
        | some t => runUnder G t as
        | none => none
      else
        none

section Runs

variable {sys}

theorem ReachableUnder.runUnder {G : σ → α → Prop} [∀ s a, Decidable (G s a)]
    {as : List α} {s t : σ} (hs : sys.ReachableUnder G s)
    (h : sys.runUnder G s as = some t) : sys.ReachableUnder G t := by
  induction as generalizing s with
  | nil =>
      have : s = t := by simpa [System.runUnder] using h
      exact this ▸ hs
  | cons a as ih =>
      simp only [System.runUnder] at h
      split_ifs at h with hG
      cases hst : sys.step s a with
      | none => simp [hst] at h
      | some u =>
          rw [hst] at h
          exact ih (.step hs hG hst) h

theorem Reachable.run {as : List α} {s t : σ} (hs : sys.Reachable s)
    (h : sys.run s as = some t) : sys.Reachable t := by
  induction as generalizing s with
  | nil =>
      have : s = t := by simpa [System.run] using h
      exact this ▸ hs
  | cons a as ih =>
      simp only [System.run] at h
      cases hst : sys.step s a with
      | none => simp [hst] at h
      | some u =>
          rw [hst] at h
          exact ih (.step hs trivial hst) h

end Runs

/-- A run that ends in a state passing the test `p` exhibits a reachable state that passes it. -/
theorem exists_reachable_of_run (p : σ → Bool) {s : σ} (hs : sys.init s) (as : List α)
    (h : (sys.run s as).any p = true) : ∃ t, sys.Reachable t ∧ p t = true := by
  cases hr : sys.run s as with
  | none => simp [hr] at h
  | some t => exact ⟨t, Reachable.run (.init hs) hr, by simpa [hr] using h⟩

/-- The same for a guarded run. -/
theorem exists_reachable_of_runUnder (G : σ → α → Prop) [∀ s a, Decidable (G s a)]
    (p : σ → Bool) {s : σ} (hs : sys.init s) (as : List α)
    (h : (sys.runUnder G s as).any p = true) : ∃ t, sys.ReachableUnder G t ∧ p t = true := by
  cases hr : sys.runUnder G s as with
  | none => simp [hr] at h
  | some t => exact ⟨t, ReachableUnder.runUnder (.init hs) hr, by simpa [hr] using h⟩

/-- The system runs from another state as it did before. -/
theorem runUnder_startingAt (G : σ → α → Prop) [∀ s a, Decidable (G s a)] (s t : σ) (as : List α) :
    (sys.startingAt s).runUnder G t as = sys.runUnder G t as := by
  induction as generalizing t with
  | nil => rfl
  | cons a as ih =>
      simp only [runUnder, startingAt] at ih ⊢
      simp only [ih]

/-- A run from a state that a run has reached: two reachable states that pass the test `p`. -/
theorem exists_reachable_pair_of_runUnder (G : σ → α → Prop) [∀ s a, Decidable (G s a)]
    (p : σ → σ → Bool) {s : σ} (hs : sys.init s) (as bs : List α)
    (h : (sys.runUnder G s as).any (fun t => (sys.runUnder G t bs).any (p t)) = true) :
    ∃ t u, sys.ReachableUnder G t ∧ (sys.startingAt t).ReachableUnder G u ∧ p t u = true := by
  obtain ⟨t, ht, h⟩ := (Option.any_eq_true _ _).1 h
  obtain ⟨u, hu, h⟩ := (Option.any_eq_true _ _).1 h
  rw [← sys.runUnder_startingAt G t t bs] at hu
  exact ⟨t, u, .runUnder (.init hs) ht, .runUnder (.init rfl) hu, h⟩

/-! ## History variables -/

/-- The system paired with a history variable, which the steps read nothing from. -/
def withHistory {η : Type} (start : η) (record : σ → α → σ → η → η) : System (σ × η) α where
  init p := sys.init p.1 ∧ p.2 = start
  step p a := (sys.step p.1 a).map fun t => (t, record p.1 a t p.2)

variable {sys}

theorem withHistory_step {η : Type} {start : η} {record : σ → α → σ → η → η}
    {p q : σ × η} {a : α} :
    (sys.withHistory start record).step p a = some q ↔
      sys.step p.1 a = some q.1 ∧ q.2 = record p.1 a q.1 p.2 := by
  obtain ⟨t, h⟩ := q
  simp only [withHistory, Option.map_eq_some_iff, Prod.mk.injEq]
  constructor
  · rintro ⟨u, hu, rfl, rfl⟩
    exact ⟨hu, rfl⟩
  · rintro ⟨hu, rfl⟩
    exact ⟨t, hu, rfl, rfl⟩

/-- A history variable does not restrict the runs. -/
theorem withHistory_reachable {η : Type} {start : η} {record : σ → α → σ → η → η}
    {p : σ × η} (h : (sys.withHistory start record).Reachable p) : sys.Reachable p.1 := by
  induction h with
  | init h0 => exact .init h0.1
  | step _ _ hst ih => exact .step ih trivial (withHistory_step.1 hst).1

end System

end Lib
end Bookit
