import Bookit.Lib.System
import Mathlib.Algebra.BigOperators.Group.List.Basic
import Mathlib.Algebra.Ring.Int.Defs

/-!
# Tasks — operations in progress over a shared store

A task is what is left of an operation: the command it issues next, with what it remembers.  A step of
a task has an outcome chosen by the run, changes the store and leaves the next task, or none.  Any
number of tasks take their steps in any order.

* `Handlers.system` — the transition system of the tasks;
* `Handlers.invariant` — the induction rule, with what each task knows of the store;
* `total` — the sum of a number over the tasks, and what a step adds to it.
-/

namespace Bookit
namespace Lib

/-- A store, and the tasks working on it, each at its place for good (`none` when it has ended). -/
structure Crew (σ T : Type) where
  store : σ
  tasks : List (Option T)

/-- The steps of a crew: the environment changes the store, a task starts, takes a step, or stops for
good. -/
inductive CrewAct (E X R : Type) where
  | environ (x : X)
  | start (r : R)
  | run (i : ℕ) (e : E)
  | crash (i : ℕ)

/-- What the tasks of a system do: the first task of a request, and the step of a task. -/
structure Handlers (σ T E X R : Type) where
  init : σ → Prop
  environ : X → σ → σ
  first : R → Option T
  exec : E → T → σ → σ × Option T

namespace Handlers

variable {σ T E X R : Type} (H : Handlers σ T E X R)

def step (p : Crew σ T) : CrewAct E X R → Option (Crew σ T)
  | .environ x => some { p with store := H.environ x p.store }
  | .start r => some { p with tasks := p.tasks ++ [H.first r] }
  | .run i e =>
      match p.tasks[i]? with
      | some (some t) => some ⟨(H.exec e t p.store).1, p.tasks.set i (H.exec e t p.store).2⟩
      | _ => none
  | .crash i =>
      match p.tasks[i]? with
      | some (some _) => some { p with tasks := p.tasks.set i none }
      | _ => none

def system : System (Crew σ T) (CrewAct E X R) where
  init p := H.init p.store ∧ p.tasks = []
  step := H.step

variable {H}

theorem step_run {p q : Crew σ T} {i : ℕ} {e : E} (h : H.step p (.run i e) = some q) :
    ∃ t, p.tasks[i]? = some (some t) ∧
      q = ⟨(H.exec e t p.store).1, p.tasks.set i (H.exec e t p.store).2⟩ := by
  simp only [step] at h
  split at h
  · next t ht => exact ⟨t, ht, (Option.some.inj h).symm⟩
  · cases h

theorem step_crash {p q : Crew σ T} {i : ℕ} (h : H.step p (.crash i) = some q) :
    ∃ t, p.tasks[i]? = some (some t) ∧ q = { p with tasks := p.tasks.set i none } := by
  simp only [step] at h
  split at h
  · next t ht => exact ⟨t, ht, (Option.some.inj h).symm⟩
  · cases h

/-- The induction rule: what the store keeps, and what it lets every task know, holds throughout.
Steps of one task must leave the others what they know. -/
theorem invariant {G : Crew σ T → CrewAct E X R → Prop} {I : σ → Prop} {K : σ → T → Prop}
    (hinit : ∀ s, H.init s → I s)
    (henv : ∀ x s, I s → I (H.environ x s) ∧ ∀ t, K s t → K (H.environ x s) t)
    (hfirst : ∀ r s t, I s → H.first r = some t → K s t)
    (hexec : ∀ p i e t, G p (.run i e) → p.tasks[i]? = some (some t) → I p.store → K p.store t →
      I (H.exec e t p.store).1 ∧ (∀ u, (H.exec e t p.store).2 = some u → K (H.exec e t p.store).1 u) ∧
        ∀ u, K p.store u → K (H.exec e t p.store).1 u)
    {p : Crew σ T} (h : H.system.ReachableUnder G p) :
    I p.store ∧ ∀ t, some t ∈ p.tasks → K p.store t := by
  refine System.invariant (I := fun p => I p.store ∧ ∀ t, some t ∈ p.tasks → K p.store t) ?_ ?_ h
  · rintro p ⟨hp, hnone⟩
    refine ⟨hinit _ hp, fun t ht => ?_⟩
    rw [hnone] at ht
    cases ht
  · rintro p a q ⟨hI, hK⟩ hG hst
    cases a with
    | environ x =>
        obtain rfl := Option.some.inj hst
        obtain ⟨hI', hkeep⟩ := henv x p.store hI
        exact ⟨hI', fun t ht => hkeep t (hK t ht)⟩
    | start r =>
        obtain rfl := Option.some.inj hst
        refine ⟨hI, fun t ht => ?_⟩
        rcases List.mem_append.1 ht with ht | ht
        · exact hK t ht
        · exact hfirst r _ t hI (List.mem_singleton.1 ht).symm
    | run i e =>
        obtain ⟨t, ht, rfl⟩ := step_run (H := H) hst
        obtain ⟨hI', hnext, hkeep⟩ := hexec p i e t hG ht hI (hK t (List.mem_of_getElem? ht))
        refine ⟨hI', fun u hu => ?_⟩
        rcases List.mem_or_eq_of_mem_set hu with hu | hu
        · exact hkeep u (hK u hu)
        · exact hnext u hu.symm
    | crash i =>
        obtain ⟨t, -, rfl⟩ := step_crash (H := H) hst
        refine ⟨hI, fun u hu => ?_⟩
        rcases List.mem_or_eq_of_mem_set hu with hu | hu
        · exact hK u hu
        · cases hu

end Handlers

/-! ## Sums over the tasks -/

section Total

variable {T : Type} {f : T → ℤ} {tasks : List (Option T)} {i : ℕ} {t : T}

/-- The sum of `f` over the tasks that have not ended. -/
def total (f : T → ℤ) (tasks : List (Option T)) : ℤ :=
  (tasks.map fun t => t.elim 0 f).sum

@[simp] theorem total_nil : total f [] = 0 := rfl

theorem total_append (t : Option T) : total f (tasks ++ [t]) = total f tasks + t.elim 0 f := by
  unfold total
  rw [List.map_append, List.sum_append, List.map_singleton, List.sum_singleton]

/-- A step changes the sum by what it changes in its task. -/
theorem total_set (h : tasks[i]? = some (some t)) (u : Option T) :
    total f (tasks.set i u) = total f tasks - f t + u.elim 0 f := by
  induction tasks generalizing i with
  | nil => cases h
  | cons a tasks ih =>
      cases i with
      | zero =>
          obtain rfl : a = some t := Option.some.inj h
          show u.elim 0 f + total f tasks = f t + total f tasks - f t + u.elim 0 f
          omega
      | succ i =>
          have hrest := ih (i := i) h
          show a.elim 0 f + total f (tasks.set i u) = a.elim 0 f + total f tasks - f t + u.elim 0 f
          omega

/-- A sum of which every task contributes nothing. -/
theorem total_eq_zero (h : ∀ t, some t ∈ tasks → f t = 0) : total f tasks = 0 := by
  induction tasks with
  | nil => rfl
  | cons a tasks ih =>
      have hrest := ih fun t ht => h t (List.mem_cons_of_mem _ ht)
      show a.elim 0 f + total f tasks = 0
      rw [hrest]
      cases a with
      | none => rfl
      | some t => exact (Int.add_zero _).trans (h t List.mem_cons_self)

end Total

end Lib
end Bookit
