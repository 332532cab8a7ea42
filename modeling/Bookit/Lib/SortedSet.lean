import Mathlib.Data.List.Nodup
import Mathlib.Data.Int.Order.Basic

/-!
# SortedSet — members with a score

A sorted set holds each member at most once; adding a member that is present changes its score.
-/

namespace Bookit
namespace Lib

structure SortedSet (α : Type) where
  entries : List (α × ℤ)
  nodup : (entries.map Prod.fst).Nodup

namespace SortedSet

variable {α : Type}

def empty : SortedSet α := ⟨[], List.nodup_nil⟩

variable [DecidableEq α]

def rem (s : SortedSet α) (a : α) : SortedSet α :=
  ⟨s.entries.filter fun e => !decide (e.1 = a), s.nodup.sublist (List.filter_sublist.map _)⟩

def add (s : SortedSet α) (a : α) (score : ℤ) : SortedSet α :=
  ⟨(s.rem a).entries ++ [(a, score)], by
    rw [List.map_append, List.map_singleton]
    refine List.nodup_append.2 ⟨(s.rem a).nodup, List.nodup_singleton _, ?_⟩
    intro x hx y hy
    obtain ⟨e, he, rfl⟩ := List.mem_map.1 hx
    rw [List.mem_singleton.1 hy]
    simpa using (List.mem_filter.1 he).2⟩

def score? (s : SortedSet α) (a : α) : Option ℤ :=
  (s.entries.find? fun e => decide (e.1 = a)).map Prod.snd

/-- `a` is a member. -/
def Mem (s : SortedSet α) (a : α) : Prop := ∃ score, (a, score) ∈ s.entries

instance {s : SortedSet α} {a : α} : Decidable (s.Mem a) :=
  decidable_of_iff (a ∈ s.entries.map Prod.fst) (by simp [Mem])

/-- The members with a score of at most `max`, in the order of the set. -/
def upTo (s : SortedSet α) (max : ℤ) : List α :=
  (s.entries.filter fun e => decide (e.2 ≤ max)).map Prod.fst

/-- The members with a score of at least `min`, in the order of the set. -/
def downTo (s : SortedSet α) (min : ℤ) : List α :=
  (s.entries.filter fun e => decide (min ≤ e.2)).map Prod.fst

/-- The members with a score of at least `min`, by score and then by `le`. -/
def rangeFrom (le : α → α → Bool) (s : SortedSet α) (min : ℤ) : List α :=
  ((s.entries.filter fun e => decide (min ≤ e.2)).mergeSort fun e f =>
    decide (e.2 < f.2) || decide (e.2 = f.2) && le e.1 f.1).map Prod.fst

/-- All members, by score and then by `le`. -/
def range (le : α → α → Bool) (s : SortedSet α) : List α :=
  (s.entries.mergeSort fun e f =>
    decide (e.2 < f.2) || decide (e.2 = f.2) && le e.1 f.1).map Prod.fst

/-- The members whose score does not satisfy `p`. -/
def remWhere (p : ℤ → Bool) (s : SortedSet α) : SortedSet α :=
  ⟨s.entries.filter fun e => !p e.2, s.nodup.sublist (List.filter_sublist.map _)⟩

variable {s : SortedSet α} {a b : α} {score : ℤ}

omit [DecidableEq α] in
theorem ext_entries {t : SortedSet α} (h : s.entries = t.entries) : s = t := by
  cases s
  cases t
  cases h
  rfl

@[simp] theorem rem_rem : (s.rem a).rem a = s.rem a := by
  refine ext_entries ?_
  simp only [rem, List.filter_filter, Bool.and_self]

@[simp] theorem rem_add : (s.add a score).rem a = s.rem a := by
  refine ext_entries ?_
  simp only [rem, add, List.filter_append, List.filter_filter, Bool.and_self, List.filter_cons,
    List.filter_nil, decide_true, Bool.not_true, Bool.false_eq_true, if_false, List.append_nil]

@[simp] theorem add_add {score' : ℤ} : (s.add a score).add a score' = s.add a score' := by
  refine ext_entries ?_
  show ((s.add a score).rem a).entries ++ _ = _
  rw [rem_add]
  rfl

@[simp] theorem mem_entries_rem {c : ℤ} :
    (b, c) ∈ (s.rem a).entries ↔ (b, c) ∈ s.entries ∧ b ≠ a := by
  simp [rem, List.mem_filter]

/-- An entry of the set after an addition is the new one, or an old one of another member. -/
@[simp] theorem mem_entries_add {c : ℤ} :
    (b, c) ∈ (s.add a score).entries ↔ (b = a ∧ c = score) ∨ (b, c) ∈ s.entries ∧ b ≠ a := by
  simp only [add, List.mem_append, mem_entries_rem, List.mem_singleton, Prod.mk.injEq]
  exact or_comm

omit [DecidableEq α] in
theorem mem_entries_remWhere {p : ℤ → Bool} {c : ℤ} :
    (b, c) ∈ (s.remWhere p).entries ↔ (b, c) ∈ s.entries ∧ p c = false := by
  simp [remWhere, List.mem_filter]

omit [DecidableEq α] in
theorem mem_range_iff {le : α → α → Bool} : a ∈ s.range le ↔ s.Mem a := by
  simp [range, Mem, List.mem_mergeSort]

omit [DecidableEq α] in
theorem mem_rangeFrom_iff {le : α → α → Bool} {min : ℤ} :
    a ∈ s.rangeFrom le min ↔ ∃ c, (a, c) ∈ s.entries ∧ min ≤ c := by
  simp [rangeFrom, List.mem_mergeSort, List.mem_filter]

theorem mem_rem_iff : (s.rem a).Mem b ↔ s.Mem b ∧ b ≠ a := by
  simp [Mem, rem, List.mem_filter]

theorem mem_add_iff : (s.add a score).Mem b ↔ b = a ∨ s.Mem b := by
  constructor
  · rintro ⟨c, hc⟩
    rcases List.mem_append.1 hc with h | h
    · exact .inr (mem_rem_iff.1 ⟨c, h⟩).1
    · exact .inl (Prod.mk.inj (List.mem_singleton.1 h)).1
  · intro h
    by_cases hba : b = a
    · exact ⟨score, List.mem_append_right _ (by simp [hba])⟩
    · obtain ⟨c, hc⟩ := mem_rem_iff.2 ⟨h.resolve_left hba, hba⟩
      exact ⟨c, List.mem_append_left _ hc⟩

/-- A new member comes last. -/
theorem entries_add_of_new : (∀ e ∈ s.entries, e.1 ≠ a) →
    (s.add a score).entries = s.entries ++ [(a, score)] := by
  intro hnew
  have hrem : (s.rem a).entries = s.entries := by
    apply List.filter_eq_self.2
    intro e he
    simp [hnew e he]
  show (s.rem a).entries ++ _ = _
  rw [hrem]

/-! ## Scores on another scale -/

/-- `t` holds the members of `s` with the scores changed by `f`. -/
def Rescaled (f : ℤ → ℤ) (s t : SortedSet α) : Prop :=
  t.entries = s.entries.map fun e => (e.1, f e.2)

section Rescaled

variable {f : ℤ → ℤ} {t : SortedSet α}

theorem Rescaled.rem (h : Rescaled f s t) : Rescaled f (s.rem a) (t.rem a) := by
  show t.entries.filter _ = (s.entries.filter _).map _
  rw [h, List.filter_map]
  rfl

theorem Rescaled.add {score' : ℤ} (h : Rescaled f s t) (hscore : f score = score') :
    Rescaled f (s.add a score) (t.add a score') := by
  show (t.rem a).entries ++ [(a, score')] = ((s.rem a).entries ++ [(a, score)]).map _
  rw [h.rem, List.map_append, ← hscore]
  rfl

omit [DecidableEq α] in
/-- The same range, where the scales agree about its bound and about the order of its members. -/
theorem Rescaled.rangeFrom_eq {le : α → α → Bool} {min min' : ℤ} (h : Rescaled f s t)
    (hmin : ∀ e ∈ s.entries, (min ≤ e.2 ↔ min' ≤ f e.2))
    (hord : ∀ e ∈ s.entries, ∀ e' ∈ s.entries,
      (decide (e.2 < e'.2) || decide (e.2 = e'.2) && le e.1 e'.1) =
        (decide (f e.2 < f e'.2) || decide (f e.2 = f e'.2) && le e.1 e'.1)) :
    s.rangeFrom le min = t.rangeFrom le min' := by
  have hfilter : t.entries.filter (fun e => decide (min' ≤ e.2)) =
      (s.entries.filter fun e => decide (min ≤ e.2)).map fun e => (e.1, f e.2) := by
    rw [h, List.filter_map]
    refine congrArg _ (List.filter_congr fun e he => ?_)
    exact decide_eq_decide.2 (hmin e he).symm
  unfold SortedSet.rangeFrom
  rw [hfilter, ← List.map_mergeSort fun e he e' he' =>
    hord e (List.mem_of_mem_filter he) e' (List.mem_of_mem_filter he'), List.map_map]
  rfl

end Rescaled

end SortedSet

end Lib
end Bookit
