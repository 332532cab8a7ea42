import Mathlib.Logic.Basic

/-!
# Lockstep — two implementations of one interface

An implementation answers each input and changes its state.  Two implementations are given the same
inputs one after the other.  Where a relation of their states is kept by every input that meets a
guard, and related states answer alike, all the answers of a guarded run are the same.
-/

namespace Bookit
namespace Lib

/-- What an input does to the state, and the answer to it. -/
abbrev Implementation (σ ι α : Type) := σ → ι → σ × α

namespace Implementation

variable {σ τ ι α : Type}

/-- The answers to a list of inputs. -/
def answers (f : Implementation σ ι α) : σ → List ι → List α
  | _, [] => []
  | s, i :: is => (f s i).2 :: f.answers (f s i).1 is

/-- Every input of a run meets `G` in the states of both implementations before it. -/
def Guarded (G : σ → τ → ι → Prop) (f : Implementation σ ι α) (g : Implementation τ ι α) :
    σ → τ → List ι → Prop
  | _, _, [] => True
  | s, t, i :: is => G s t i ∧ Guarded G f g (f s i).1 (g t i).1 is

instance {G : σ → τ → ι → Prop} [∀ s t i, Decidable (G s t i)] {f : Implementation σ ι α}
    {g : Implementation τ ι α} (s : σ) (t : τ) (is : List ι) : Decidable (Guarded G f g s t is) :=
  match is with
  | [] => .isTrue trivial
  | i :: is =>
      @instDecidableAnd _ _ _ (instDecidableGuarded (f s i).1 (g t i).1 is)

/-- Related states answer a guarded input alike and stay related. -/
def Simulates (G : σ → τ → ι → Prop) (R : σ → τ → Prop) (f : Implementation σ ι α)
    (g : Implementation τ ι α) : Prop :=
  ∀ s t i, R s t → G s t i → (f s i).2 = (g t i).2 ∧ R (f s i).1 (g t i).1

variable {G : σ → τ → ι → Prop} {R : σ → τ → Prop} {f : Implementation σ ι α}
variable {g : Implementation τ ι α} {s : σ} {t : τ} {is : List ι}

theorem Simulates.answers_eq (h : Simulates G R f g) (hR : R s t) (hG : Guarded G f g s t is) :
    f.answers s is = g.answers t is := by
  induction is generalizing s t with
  | nil => rfl
  | cons i is ih =>
      obtain ⟨hanswer, hnext⟩ := h s t i hR hG.1
      exact congrArg₂ List.cons hanswer (ih hnext hG.2)

end Implementation

end Lib
end Bookit
