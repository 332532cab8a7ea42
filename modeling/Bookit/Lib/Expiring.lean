import Mathlib.Data.Option.Basic
import Mathlib.Order.Basic

/-!
# Expiring — key–value stores whose entries have a deadline

An entry is live up to and including its deadline; a read of a key whose entry is not live finds
nothing.  The clock is an argument of the reads, so that the passage of time is not an operation of
the store.
-/

namespace Bookit
namespace Lib

/-- For each key at most one value, with the last time at which it is live. -/
abbrev Expiring (K V : Type) := K → Option (V × ℕ)

namespace Expiring

variable {K V : Type}

def empty : Expiring K V := fun _ => none

/-- The live value of a key. -/
def lookup (m : Expiring K V) (now : ℕ) (k : K) : Option V :=
  match m k with
  | some (v, deadline) => if now ≤ deadline then some v else none
  | none => none

/-- The live value of a key, with its deadline. -/
def entry (m : Expiring K V) (now : ℕ) (k : K) : Option (V × ℕ) :=
  match m k with
  | some (v, deadline) => if now ≤ deadline then some (v, deadline) else none
  | none => none

variable [DecidableEq K]

def put (m : Expiring K V) (k : K) (v : V) (deadline : ℕ) : Expiring K V :=
  fun k' => if k' = k then some (v, deadline) else m k'

def del (m : Expiring K V) (k : K) : Expiring K V :=
  fun k' => if k' = k then none else m k'

/-- Move the deadline of a live entry. -/
def touch (m : Expiring K V) (now : ℕ) (k : K) (deadline : ℕ) : Expiring K V :=
  match m.lookup now k with
  | some v => m.put k v deadline
  | none => m

variable {m : Expiring K V} {now now' deadline : ℕ} {k k' : K} {v w : V}

omit [DecidableEq K] in
@[simp] theorem lookup_empty : (empty : Expiring K V).lookup now k = none := rfl

omit [DecidableEq K] in
theorem lookup_eq_some_iff :
    m.lookup now k = some v ↔ ∃ d, m k = some (v, d) ∧ now ≤ d := by
  unfold lookup
  cases hm : m k with
  | none => simp
  | some e =>
      obtain ⟨w, d⟩ := e
      by_cases hd : now ≤ d
      · simp only [hd, if_true, Option.some.injEq, Prod.mk.injEq]
        exact ⟨fun h => ⟨d, ⟨h, rfl⟩, hd⟩, fun ⟨_, h, _⟩ => h.1⟩
      · simp only [hd, if_false, Option.some.injEq, Prod.mk.injEq]
        constructor
        · intro h
          cases h
        · rintro ⟨_, ⟨-, rfl⟩, hle⟩
          exact absurd hle hd

omit [DecidableEq K] in
theorem entry_eq_some_iff :
    m.entry now k = some (v, deadline) ↔ m k = some (v, deadline) ∧ now ≤ deadline := by
  unfold entry
  cases hm : m k with
  | none => simp
  | some e =>
      obtain ⟨w, d⟩ := e
      by_cases hd : now ≤ d
      · simp only [hd, if_true, Option.some.injEq, Prod.mk.injEq]
        exact ⟨fun h => ⟨h, h.2 ▸ hd⟩, fun h => h.1⟩
      · simp only [hd, if_false, Option.some.injEq, Prod.mk.injEq]
        constructor
        · intro h
          cases h
        · rintro ⟨⟨-, rfl⟩, hle⟩
          exact absurd hle hd

omit [DecidableEq K] in
theorem lookup_eq_entry : m.lookup now k = (m.entry now k).map Prod.fst := by
  unfold lookup entry
  cases m k with
  | none => rfl
  | some e =>
      dsimp only
      split_ifs <;> rfl

@[simp] theorem put_self : m.put k v deadline k = some (v, deadline) := by
  simp [put]

theorem put_ne (h : k' ≠ k) : m.put k v deadline k' = m k' := by
  simp [put, h]

@[simp] theorem del_self : m.del k k = none := by
  simp [del]

theorem del_ne (h : k' ≠ k) : m.del k k' = m k' := by
  simp [del, h]

@[simp] theorem lookup_put_self (h : now ≤ deadline) :
    (m.put k v deadline).lookup now k = some v := by
  simp [lookup, h]

theorem lookup_put_ne (h : k' ≠ k) : (m.put k v deadline).lookup now k' = m.lookup now k' := by
  simp [lookup, put_ne h]

@[simp] theorem lookup_del_self : (m.del k).lookup now k = none := by
  simp [lookup]

theorem lookup_del_ne (h : k' ≠ k) : (m.del k).lookup now k' = m.lookup now k' := by
  simp [lookup, del_ne h]

theorem touch_ne (h : k' ≠ k) : m.touch now k deadline k' = m k' := by
  unfold touch
  cases m.lookup now k with
  | none => rfl
  | some v => exact put_ne h

theorem touch_of_live (h : m.lookup now k = some v) : m.touch now k deadline = m.put k v deadline := by
  simp [touch, h]

/-- Moving a deadline introduces no value: what is live after it was live before. -/
theorem lookup_of_touch (h : (m.touch now k deadline).lookup now k' = some v) :
    m.lookup now k' = some v := by
  cases hm : m.lookup now k with
  | none => simpa [touch, hm] using h
  | some w =>
      rw [touch_of_live hm] at h
      rcases eq_or_ne k' k with rfl | hne
      · obtain ⟨d, hd, _⟩ := lookup_eq_some_iff.1 h
        rw [put_self] at hd
        cases hd
        exact hm
      · rwa [lookup_put_ne hne] at h

omit [DecidableEq K] in
/-- Time only takes values away. -/
theorem lookup_of_later (hle : now ≤ now') (h : m.lookup now' k = some v) :
    m.lookup now k = some v := by
  obtain ⟨d, hd, hle'⟩ := lookup_eq_some_iff.1 h
  exact lookup_eq_some_iff.2 ⟨d, hd, Nat.le_trans hle hle'⟩

end Expiring

end Lib
end Bookit
