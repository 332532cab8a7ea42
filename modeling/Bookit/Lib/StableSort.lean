import Mathlib.Data.List.Sort

/-!
# StableSort — where a sort puts one more element

An insertion sort keeps the order of elements that its relation does not separate.  So an element that
is added at some place of the list stands behind those before that place that are not after it, and
behind those after that place that come strictly first; the others are sorted as they were.

* `inFront` — how many elements the sort puts before the added one;
* `insertionSort_insert` — the sorted list is the one without it, split there;
* `mem_take_insert`, `take_insert_of_le` — the added element and the first `n` elements.
-/

namespace Bookit
namespace Lib
namespace StableSort

variable {α : Type} (r : α → α → Bool)

/-- The elements that are sorted before `x`, which stands between `l₁` and `l₂`. -/
def inFront (l₁ : List α) (x : α) (l₂ : List α) : ℕ :=
  (l₁.countP fun y => r y x) + l₂.countP fun y => !r x y

/-- An order that compares any two elements, and is passed along. -/
structure Preorders : Prop where
  total : ∀ x y, r x y = true ∨ r y x = true
  trans : ∀ x y z, r x y = true → r y z = true → r x z = true

variable {r}

/-! ## One ordered insertion -/

/-- An element goes into the first part, where it is not after the rest. -/
theorem orderedInsert_append (y : α) (l s : List α)
    (hs : ∀ z ∈ s, r y z = true) :
    List.orderedInsert (fun a b => r a b = true) y (l ++ s) =
      List.orderedInsert (fun a b => r a b = true) y l ++ s := by
  induction l with
  | nil =>
      cases s with
      | nil => rfl
      | cons z s =>
          have hz : r y z = true := hs z List.mem_cons_self
          simp [hz]
  | cons a l ih =>
      by_cases ha : r y a = true
      · simp [ha]
      · simp only [List.cons_append, List.orderedInsert_cons, ha]
        rw [ih]
        rfl

/-- An element goes behind a part whose elements all come first. -/
theorem orderedInsert_behind (y : α) (l s : List α) (hl : ∀ z ∈ l, r y z = false) :
    List.orderedInsert (fun a b => r a b = true) y (l ++ s) =
      l ++ List.orderedInsert (fun a b => r a b = true) y s := by
  induction l with
  | nil => rfl
  | cons a l ih =>
      have ha : r y a = false := hl a List.mem_cons_self
      have hrest : ∀ z ∈ l, r y z = false := fun z hz => hl z (List.mem_cons_of_mem a hz)
      simp only [List.cons_append, List.orderedInsert_cons, ha]
      rw [ih hrest]
      rfl

/-- A sorted list is split by the elements that come strictly before `x`. -/
theorem orderedInsert_split (hr : Preorders r) (x : α) (l : List α)
    (hsorted : l.Pairwise fun a b => r a b = true) :
    ∃ a b, l = a ++ b ∧
      List.orderedInsert (fun a b => r a b = true) x l = a ++ x :: b ∧
      (∀ z ∈ a, r x z = false) ∧ ∀ z ∈ b, r x z = true := by
  induction l with
  | nil => exact ⟨[], [], rfl, rfl, by simp, by simp⟩
  | cons c l ih =>
      by_cases hc : r x c = true
      · refine ⟨[], c :: l, rfl, by simp [hc], by simp, ?_⟩
        intro z hz
        rcases List.mem_cons.mp hz with rfl | hz
        · exact hc
        · exact hr.trans x c z hc (List.rel_of_pairwise_cons hsorted hz)
      · obtain ⟨a, b, rfl, hinsert, ha, hb⟩ := ih hsorted.of_cons
        refine ⟨c :: a, b, rfl, ?_, ?_, hb⟩
        · simp only [List.orderedInsert_cons, hc, List.cons_append]
          rw [hinsert]
          rfl
        · intro z hz
          rcases List.mem_cons.mp hz with rfl | hz
          · simpa using hc
          · exact ha z hz

/-! ## The sort -/

variable (r) in
/-- The sort of a list by a decidable relation. -/
abbrev sorted (l : List α) : List α :=
  List.insertionSort (fun a b => r a b = true) l

theorem pairwise_sorted (hr : Preorders r) (l : List α) :
    (sorted r l).Pairwise fun a b => r a b = true := by
  have : Std.Total fun a b => r a b = true := ⟨hr.total⟩
  have : IsTrans α fun a b => r a b = true := ⟨hr.trans⟩
  exact List.pairwise_insertionSort _ l

/-- An element that is inserted into a sorted list is selected there, or left out. -/
theorem filter_orderedInsert (hr : Preorders r) (p : α → Bool) (x : α) {s : List α}
    (hs : s.Pairwise fun a b => r a b = true) :
    (List.orderedInsert (fun a b => r a b = true) x s).filter p =
      if p x then List.orderedInsert (fun a b => r a b = true) x (s.filter p) else s.filter p := by
  induction s with
  | nil => cases hx : p x <;> simp [hx]
  | cons b s ih =>
      obtain ⟨hb, hs⟩ := List.pairwise_cons.1 hs
      by_cases hxb : r x b = true
      · -- what is selected of the rest is not before the element
        have hfront : ∀ z ∈ (b :: s).filter p, r x z = true := by
          intro z hz
          cases List.mem_cons.1 (List.mem_filter.1 hz).1 with
          | inl heq => exact heq ▸ hxb
          | inr hmem => exact hr.trans x b z hxb (hb z hmem)
        rw [List.orderedInsert_cons, if_pos hxb, List.filter_cons]
        cases hx : p x with
        | false => simp
        | true =>
            have hinsert := orderedInsert_append x [] _ hfront
            simpa using hinsert.symm
      · rw [List.orderedInsert_cons, if_neg hxb, List.filter_cons, ih hs, List.filter_cons]
        cases hb : p b <;> cases hx : p x <;> simp [hxb]

/-- What is selected from a sorted list is sorted alike by itself. -/
theorem filter_sorted (hr : Preorders r) (p : α → Bool) (l : List α) :
    (sorted r l).filter p = sorted r (l.filter p) := by
  induction l with
  | nil => rfl
  | cons x l ih =>
      rw [sorted, List.insertionSort_cons, filter_orderedInsert hr p x (pairwise_sorted hr l),
        List.filter_cons, ih]
      cases p x <;> rfl

/-- A sort with one more element: the sort without it, with the element after those in front of it. -/
theorem insertionSort_insert (hr : Preorders r) (l₁ : List α) (x : α) (l₂ : List α) :
    ∃ a b, sorted r (l₁ ++ l₂) = a ++ b ∧ sorted r (l₁ ++ x :: l₂) = a ++ x :: b ∧
      (∀ z ∈ a, r z x = true) ∧ (∀ z ∈ b, r x z = true) ∧ a.length = inFront r l₁ x l₂ := by
  induction l₁ with
  | nil =>
      obtain ⟨a, b, hsplit, hinsert, ha, hb⟩ :=
        orderedInsert_split hr x (sorted r l₂) (pairwise_sorted hr l₂)
      refine ⟨a, b, hsplit, hinsert, ?_, hb, ?_⟩
      · intro z hz
        rcases hr.total x z with h | h
        · rw [ha z hz] at h
          cases h
        · exact h
      · -- the first part holds exactly the elements that come strictly before `x`
        have hperm : (sorted r l₂).countP (fun y => !r x y) = l₂.countP fun y => !r x y :=
          (List.perm_insertionSort _ l₂).countP_eq _
        have hall : a.countP (fun y => !r x y) = a.length :=
          List.countP_eq_length.2 fun z hz => by simp [ha z hz]
        have hnone : b.countP (fun y => !r x y) = 0 :=
          List.countP_eq_zero.2 fun z hz => by simp [hb z hz]
        rw [hsplit, List.countP_append, hall, hnone] at hperm
        simpa [inFront] using hperm
  | cons y l₁ ih =>
      obtain ⟨a, b, hwithout, hwith, ha, hb, hlen⟩ := ih
      have hcons : ∀ l, sorted r (y :: l) =
          List.orderedInsert (fun a b => r a b = true) y (sorted r l) := fun _ => rfl
      rw [List.cons_append, List.cons_append, hcons, hcons, hwithout, hwith]
      by_cases hy : r y x = true
      · -- not after `x`, the element joins those in front of it
        refine ⟨List.orderedInsert (fun a b => r a b = true) y a, b, ?_, ?_, ?_, hb, ?_⟩
        · exact orderedInsert_append y a b fun z hz => hr.trans y x z hy (hb z hz)
        · apply orderedInsert_append y a (x :: b)
          intro z hz
          rcases List.mem_cons.mp hz with rfl | hz
          · exact hy
          · exact hr.trans y x z hy (hb z hz)
        · intro z hz
          rcases (List.mem_orderedInsert _).mp hz with rfl | hz
          · exact hy
          · exact ha z hz
        · rw [List.orderedInsert_length, hlen]
          simp only [inFront, List.countP_cons, hy, if_true]
          omega
      · -- after `x`, it is after all that stand in front of `x`
        have hbehind : ∀ z ∈ a, r y z = false := by
          intro z hz
          by_contra hyz
          exact hy (hr.trans y z x (by simpa using hyz) (ha z hz))
        have hxy : r x y = true := (hr.total x y).resolve_right hy
        refine ⟨a, List.orderedInsert (fun a b => r a b = true) y b, ?_, ?_, ha, ?_, ?_⟩
        · exact orderedInsert_behind y a b hbehind
        · rw [orderedInsert_behind y a (x :: b) hbehind,
            List.orderedInsert_of_not_le _ b hy]
        · intro z hz
          rcases (List.mem_orderedInsert _).mp hz with rfl | hz
          · exact hxy
          · exact hb z hz
        · rw [hlen]
          simp [inFront, hy]

/-! ## The first elements -/

variable (hr : Preorders r) {l₁ l₂ : List α} {x : α} {n : ℕ}

include hr

/-- The first `n` elements, where `n` others are sorted before the added one. -/
theorem take_insert_of_le (h : n ≤ inFront r l₁ x l₂) :
    (sorted r (l₁ ++ x :: l₂)).take n = (sorted r (l₁ ++ l₂)).take n := by
  obtain ⟨a, b, hwithout, hwith, -, -, hlen⟩ := insertionSort_insert hr l₁ x l₂
  have hn : n ≤ a.length := by omega
  rw [hwithout, hwith, List.take_append_of_le_length hn, List.take_append_of_le_length hn]

/-- The added element is among the first `n` if fewer are sorted before it. -/
theorem mem_take_insert (h : inFront r l₁ x l₂ < n) : x ∈ (sorted r (l₁ ++ x :: l₂)).take n := by
  obtain ⟨a, b, -, hwith, -, -, hlen⟩ := insertionSort_insert hr l₁ x l₂
  have hn : a.length < n := by omega
  rw [hwith, List.take_append, List.mem_append]
  right
  obtain ⟨m, hm⟩ : ∃ m, n - a.length = m + 1 := ⟨n - a.length - 1, by omega⟩
  rw [hm, List.take_succ_cons]
  exact List.mem_cons_self

/-- Lists that differ in one place have the same first `n` elements when sorted if and only if that place
is alike, or what stands there has `n` others in front. -/
theorem take_sorted_eq_iff {o o' : Option α} (ho : ∀ x ∈ o, x ∉ l₁ ∧ x ∉ l₂)
    (ho' : ∀ x ∈ o', x ∉ l₁ ∧ x ∉ l₂) :
    (sorted r (l₁ ++ (o.toList ++ l₂))).take n = (sorted r (l₁ ++ (o'.toList ++ l₂))).take n ↔
      o = o' ∨ ((∀ x ∈ o, n ≤ inFront r l₁ x l₂) ∧ ∀ x ∈ o', n ≤ inFront r l₁ x l₂) := by
  -- an element of the first `n` of one list is there in the other
  have hshown : ∀ {o o' : Option α}, (∀ x ∈ o, x ∉ l₁ ∧ x ∉ l₂) →
      (sorted r (l₁ ++ (o.toList ++ l₂))).take n = (sorted r (l₁ ++ (o'.toList ++ l₂))).take n →
      ∀ x ∈ o, inFront r l₁ x l₂ < n → o = o' := by
    intro o o' hout heq x hx hlt
    obtain rfl := Option.mem_def.mp hx
    have hmem := mem_take_insert hr hlt
    have heq' : (sorted r (l₁ ++ x :: l₂)).take n =
        (sorted r (l₁ ++ (o'.toList ++ l₂))).take n := heq
    rw [heq'] at hmem
    have hin : x ∈ l₁ ++ (o'.toList ++ l₂) :=
      (List.mem_insertionSort _).mp (List.mem_of_mem_take hmem)
    simpa [hout x hx, eq_comm] using hin
  have hbase : ∀ {o : Option α}, (∀ x ∈ o, n ≤ inFront r l₁ x l₂) →
      (sorted r (l₁ ++ (o.toList ++ l₂))).take n = (sorted r (l₁ ++ l₂)).take n := by
    intro o hle
    cases o with
    | none => rfl
    | some x => exact take_insert_of_le hr (hle x rfl)
  constructor
  · intro heq
    by_cases hsame : o = o'
    · exact .inl hsame
    · right
      constructor
      · intro x hx
        by_contra hlt
        exact hsame (hshown ho heq x hx (by omega))
      · intro x hx
        by_contra hlt
        exact hsame (hshown ho' heq.symm x hx (by omega)).symm
  · rintro (rfl | ⟨hle, hle'⟩)
    · rfl
    · exact (hbase hle).trans (hbase hle').symm

end StableSort
end Lib
end Bookit
