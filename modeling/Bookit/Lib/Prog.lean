import Mathlib.Logic.Function.Basic

/-!
# Prog — programs as trees of commands

A program either returns a value or issues one command and continues with the reply.  The commands
and their reply types are parameters, so that a program fixes which commands it issues and in which
order, and says nothing about their effect.  Loops are recursive functions into `Prog`.
-/

namespace Bookit
namespace Lib

/-- Programs that issue commands in `C`, a command `c` being answered in `Rep c`. -/
inductive Prog {C : Type} (Rep : C → Type) (β : Type) : Type where
  | ret (b : β)
  | call (c : C) (k : Rep c → Prog Rep β)

namespace Prog

variable {C : Type} {Rep : C → Type} {α β γ : Type}

def bind : Prog Rep α → (α → Prog Rep β) → Prog Rep β
  | ret a, f => f a
  | call c k, f => call c fun r => (k r).bind f

instance : Monad (Prog Rep) where
  pure := ret
  bind := bind

/-- Issue one command and return its reply. -/
def perform (c : C) : Prog Rep (Rep c) :=
  call c ret

@[simp] theorem pure_eq (a : α) : (pure a : Prog Rep α) = ret a := rfl

@[simp] theorem ret_bind (a : α) (f : α → Prog Rep β) : (ret a >>= f) = f a := rfl

@[simp] theorem call_bind (c : C) (k : Rep c → Prog Rep α) (f : α → Prog Rep β) :
    (call c k >>= f) = call c fun r => k r >>= f := rfl

@[simp] theorem perform_bind (c : C) (f : Rep c → Prog Rep β) :
    (perform c >>= f) = call c f := rfl

theorem bind_assoc (p : Prog Rep α) (f : α → Prog Rep β) (g : β → Prog Rep γ) :
    (p >>= f >>= g) = (p >>= fun a => f a >>= g) := by
  induction p with
  | ret a => rfl
  | call c k ih =>
      simp only [call_bind]
      exact congrArg (call c) (funext fun r => ih r)

/-- The program is at its end. -/
def returned : Prog Rep β → Bool
  | ret _ => true
  | call _ _ => false

/-! ## The commands of a program -/

/-- Every command the program can issue satisfies `φ`. -/
def Issues (φ : C → Prop) : Prog Rep β → Prop
  | ret _ => True
  | call c k => φ c ∧ ∀ r, Issues φ (k r)

section Issues

variable {φ ψ : C → Prop}

@[simp] theorem issues_ret (b : β) : Issues φ (ret b : Prog Rep β) := trivial

@[simp] theorem issues_call {c : C} {k : Rep c → Prog Rep β} :
    Issues φ (call c k) ↔ φ c ∧ ∀ r, Issues φ (k r) := Iff.rfl

theorem Issues.bind {p : Prog Rep α} {f : α → Prog Rep β} (hp : Issues φ p)
    (hf : ∀ a, Issues φ (f a)) : Issues φ (p >>= f) := by
  induction p with
  | ret a => exact hf a
  | call c k ih => exact ⟨hp.1, fun r => ih r (hp.2 r)⟩

theorem Issues.mono {p : Prog Rep β} (h : Issues φ p) (hφ : ∀ c, φ c → ψ c) : Issues ψ p := by
  induction p with
  | ret b => trivial
  | call c k ih => exact ⟨hφ c h.1, fun r => ih r (h.2 r)⟩

theorem issues_of_forall (p : Prog Rep β) (h : ∀ c, φ c) : Issues φ p := by
  induction p with
  | ret b => trivial
  | call c k ih => exact ⟨h c, ih⟩

end Issues

/-! ## Programs over a larger command set -/

/-- Run a program over one command set as a program over another, command by command. -/
def hoist {D : Type} {Rep' : D → Type} (f : (c : C) → Prog Rep' (Rep c)) :
    Prog Rep β → Prog Rep' β
  | ret b => ret b
  | call c k => f c >>= fun r => hoist f (k r)

section Hoist

variable {D : Type} {Rep' : D → Type} (f : (c : C) → Prog Rep' (Rep c))

/-- The commands of a program over the larger set are those of the images of its commands. -/
theorem Issues.hoist {φ : D → Prop} {p : Prog Rep β} (h : p.Issues fun c => (f c).Issues φ) :
    (hoist f p).Issues φ := by
  induction p with
  | ret b => trivial
  | call c k ih => exact h.1.bind fun r => ih r (h.2 r)

@[simp] theorem hoist_ret (b : β) : hoist f (ret b : Prog Rep β) = ret b := rfl

@[simp] theorem hoist_call (c : C) (k : Rep c → Prog Rep β) :
    hoist f (call c k) = f c >>= fun r => hoist f (k r) := rfl

theorem hoist_bind (p : Prog Rep α) (g : α → Prog Rep β) :
    hoist f (p >>= g) = hoist f p >>= fun a => hoist f (g a) := by
  induction p with
  | ret a => rfl
  | call c k ih =>
      simp only [call_bind, hoist_call, bind_assoc]
      exact congrArg (f c >>= ·) (funext fun r => ih r)

end Hoist

end Prog

end Lib
end Bookit
