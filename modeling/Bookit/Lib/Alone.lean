import Bookit.Lib.Prog
import Mathlib.Data.List.Basic

/-!
# Alone — one program run by itself, and the points it passes

`evalAlone` runs a program to its end against a store that nobody else touches.  `Visits` are the
points of such a run: the store so far and the rest of the program.  A crash leaves the store of one
of these points.  Where the effect of a command is a relation, `Ends` are the ends a program can come
to, and `Passes` the stores on the way there.
-/

namespace Bookit
namespace Lib

namespace Prog

variable {C σ : Type} {Rep : C → Type} {α β : Type} (exec : (c : C) → σ → Option (σ × Rep c))

/-- The last store and the value of a program, unless a command is stuck. -/
def evalAlone : Prog Rep β → σ → Option (σ × β)
  | ret b, s => some (s, b)
  | call c k, s =>
      match exec c s with
      | some (t, r) => evalAlone (k r) t
      | none => none

/-- The store and the rest of the program after at most `n` commands. -/
def after : ℕ → Prog Rep β → σ → Prog Rep β × σ
  | 0, p, s => (p, s)
  | _ + 1, ret b, s => (ret b, s)
  | n + 1, call c k, s =>
      match exec c s with
      | some (t, r) => after n (k r) t
      | none => (call c k, s)

/-- The run of `p` from `s` passes the point where `q` is left and the store is `t`. -/
inductive Visits : Prog Rep β → σ → Prog Rep β → σ → Prop where
  | here {p : Prog Rep β} {s : σ} : Visits p s p s
  | step {c : C} {k : Rep c → Prog Rep β} {s u : σ} {r : Rep c} {q : Prog Rep β} {t : σ} :
      exec c s = some (u, r) → Visits (k r) u q t → Visits (call c k) s q t

variable {exec}

theorem visits_after (n : ℕ) (p : Prog Rep β) (s : σ) :
    Visits exec p s (after exec n p s).1 (after exec n p s).2 := by
  induction n generalizing p s with
  | zero => exact .here
  | succ n ih =>
      cases p with
      | ret b => exact .here
      | call c k =>
          simp only [after]
          cases hex : exec c s with
          | none => exact .here
          | some v => exact .step hex (ih _ _)

theorem evalAlone_call {c : C} {k : Rep c → Prog Rep β} {s t : σ} {r : Rep c}
    (h : exec c s = some (t, r)) : evalAlone exec (call c k) s = evalAlone exec (k r) t := by
  simp only [evalAlone, h]

theorem evalAlone_bind (p : Prog Rep α) (f : α → Prog Rep β) (s : σ) :
    evalAlone exec (p >>= f) s =
      (evalAlone exec p s).bind fun x => evalAlone exec (f x.2) x.1 := by
  induction p generalizing s with
  | ret a => rfl
  | call c k ih =>
      simp only [call_bind, evalAlone]
      cases exec c s with
      | none => rfl
      | some v => exact ih _ _

/-- A bind that runs to its end does so in two stages. -/
theorem evalAlone_bind_eq_some {p : Prog Rep α} {f : α → Prog Rep β} {s u : σ} {b : β}
    (h : evalAlone exec (p >>= f) s = some (u, b)) :
    ∃ t a, evalAlone exec p s = some (t, a) ∧ evalAlone exec (f a) t = some (u, b) := by
  rw [evalAlone_bind] at h
  obtain ⟨⟨t, a⟩, hp, hf⟩ := Option.bind_eq_some_iff.1 h
  exact ⟨t, a, hp, hf⟩

/-- From any point of a run the rest of the program leads to the same end. -/
theorem Visits.evalAlone_eq {p q : Prog Rep β} {s t : σ} (h : Visits exec p s q t) :
    evalAlone exec q t = evalAlone exec p s := by
  induction h with
  | here => rfl
  | step hex _ ih => rw [evalAlone_call hex, ih]

/-- A point of a bind is a point of its first stage, or of the second after the end of the first. -/
theorem Visits.bind_cases {p : Prog Rep α} {f : α → Prog Rep β} {s t : σ} {q : Prog Rep β}
    (h : Visits exec (p >>= f) s q t) :
    (∃ p', Visits exec p s p' t ∧ q = p' >>= f) ∨
      ∃ u a, evalAlone exec p s = some (u, a) ∧ Visits exec (f a) u q t := by
  induction p generalizing s with
  | ret a => exact .inr ⟨s, a, rfl, h⟩
  | call c k ih =>
      cases h with
      | here => exact .inl ⟨call c k, .here, rfl⟩
      | step hex hrest =>
          rcases ih _ hrest with ⟨p', hp', rfl⟩ | ⟨u, a, hu, hf⟩
          · exact .inl ⟨p', .step hex hp', rfl⟩
          · exact .inr ⟨u, a, (evalAlone_call hex).trans hu, hf⟩

/-- What the commands of a program keep holds at every point of its run. -/
theorem Visits.keeps {φ : C → Prop} {I : σ → Prop}
    (hφ : ∀ c, φ c → ∀ s t r, I s → exec c s = some (t, r) → I t) {p q : Prog Rep β} {s t : σ}
    (h : Visits exec p s q t) (hp : p.Issues φ) (hs : I s) : I t := by
  induction h with
  | here => exact hs
  | step hex _ ih => exact ih (hp.2 _) (hφ _ hp.1 _ _ _ hs hex)

/-- What the commands of a program keep holds at its end. -/
theorem evalAlone_keeps {φ : C → Prop} {I : σ → Prop}
    (hφ : ∀ c, φ c → ∀ s t r, I s → exec c s = some (t, r) → I t) {p : Prog Rep β} {s t : σ}
    {b : β} (h : evalAlone exec p s = some (t, b)) (hp : p.Issues φ) (hs : I s) : I t := by
  induction p generalizing s with
  | ret b' =>
      obtain ⟨rfl, -⟩ := Prod.mk.inj (Option.some.inj h)
      exact hs
  | call c k ih =>
      simp only [evalAlone] at h
      cases hex : exec c s with
      | none => simp [hex] at h
      | some v =>
          rw [hex] at h
          exact ih _ h (hp.2 _) (hφ _ hp.1 _ _ _ hs hex)

/-! ## Commands with more than one effect -/

section Related

variable {step : (c : C) → σ → σ → Rep c → Prop}

variable (step) in
/-- The program can run from `s` to its end in `t`, where it returns `b`. -/
inductive Ends : Prog Rep β → σ → σ → β → Prop where
  | ret {b : β} {s : σ} : Ends (.ret b) s s b
  | call {c : C} {k : Rep c → Prog Rep β} {s u t : σ} {r : Rep c} {b : β} :
      step c s u r → Ends (k r) u t b → Ends (.call c k) s t b

variable (step) in
/-- The program can come from `s` to `t`, which need not be its end. -/
inductive Passes : Prog Rep β → σ → σ → Prop where
  | here {p : Prog Rep β} {s : σ} : Passes p s s
  | call {c : C} {k : Rep c → Prog Rep β} {s u t : σ} {r : Rep c} :
      step c s u r → Passes (k r) u t → Passes (.call c k) s t

theorem Ends.bind {p : Prog Rep α} {f : α → Prog Rep β} {s t u : σ} {a : α} {b : β} :
    Ends step p s t a → Ends step (f a) t u b → Ends step (p >>= f) s u b := by
  intro hp hf
  induction hp with
  | ret => exact hf
  | call hstep _ ih => exact .call hstep (ih hf)

/-- The end of a bind is reached through the end of its first part. -/
theorem Ends.of_bind {p : Prog Rep α} {f : α → Prog Rep β} {s u : σ} {b : β} :
    Ends step (p >>= f) s u b → ∃ t a, Ends step p s t a ∧ Ends step (f a) t u b := by
  intro h
  induction p generalizing s with
  | ret a => exact ⟨s, a, .ret, h⟩
  | call c k ih =>
      cases h with
      | call hstep hrest =>
          obtain ⟨t, a, hp, hf⟩ := ih _ hrest
          exact ⟨t, a, .call hstep hp, hf⟩

theorem Ends.of_ret {a b : β} {s t : σ} : Ends step (.ret a) s t b → t = s ∧ b = a := by
  intro h
  cases h with
  | ret => exact ⟨rfl, rfl⟩

theorem Ends.of_call {c : C} {k : Rep c → Prog Rep β} {s t : σ} {b : β} :
    Ends step (.call c k) s t b → ∃ u r, step c s u r ∧ Ends step (k r) u t b := by
  intro h
  cases h with
  | call hstep hrest => exact ⟨_, _, hstep, hrest⟩

/-- What every command of a program keeps holds at its end. -/
theorem Ends.keeps {φ : C → Prop} {I : σ → Prop}
    (hφ : ∀ c, φ c → ∀ s t r, I s → step c s t r → I t) {p : Prog Rep β} {s t : σ} {b : β} :
    Ends step p s t b → p.Issues φ → I s → I t := by
  intro h hp hs
  induction h with
  | ret => exact hs
  | call hstep _ ih => exact ih (hp.2 _) (hφ _ hp.1 _ _ _ hs hstep)

/-- What every command of a program keeps holds on the way. -/
theorem Passes.keeps {φ : C → Prop} {I : σ → Prop}
    (hφ : ∀ c, φ c → ∀ s t r, I s → step c s t r → I t) {p : Prog Rep β} {s t : σ} :
    Passes step p s t → p.Issues φ → I s → I t := by
  intro h hp hs
  induction h with
  | here => exact hs
  | call hstep _ ih => exact ih (hp.2 _) (hφ _ hp.1 _ _ _ hs hstep)

end Related

end Prog

end Lib
end Bookit
