import Bookit.Lib.StableSort
import Mathlib.Data.List.Pairwise
import Mathlib.Data.List.Perm.Basic

/-!
# Pages — a sorted list that is read page by page

Each page is cut from an order of its own: elements that the relation does not separate may stand
either way.  The pages make up the list when no two such elements stand at the end of one page and
the beginning of the next, and only then.

* `Orders`, `Tied` — the orders of a list, and the places with unseparated neighbours;
* `take_perm` — before a place that is not tied, all orders have the same elements;
* `pages_perm`, `pages_pairwise`, `exists_pages_not_perm` — the pages one after the other;
* `take_eq`, `exists_take_ne` — the first elements as they stand.
-/

namespace Bookit
namespace Lib
namespace Pages

variable {α : Type} (r : α → α → Bool)

/-- An order in which the elements of a list can be gone through. -/
structure Orders (l o : List α) : Prop where
  perm : o.Perm l
  pairwise : o.Pairwise fun a b => r a b = true

/-- The elements before and after place `m` may as well stand the other way. -/
def Tied (o : List α) (m : ℕ) : Prop :=
  ∃ a ∈ (o.take m).getLast?, ∃ b ∈ (o.drop m).head?, r b a = true

instance (o : List α) (m : ℕ) : Decidable (Tied r o m) :=
  inferInstanceAs (Decidable (∃ a ∈ (o.take m).getLast?, ∃ b ∈ (o.drop m).head?, r b a = true))

/-- The pages of `n` elements from `0` on, each from its own order. -/
def pages (orders : ℕ → List α) (n k : ℕ) : List α :=
  (List.range k).flatMap fun j => ((orders j).drop (j * n)).take n

variable {r}

section Ties

variable {l o o' : List α} {m : ℕ}

theorem orders_sorted (hr : StableSort.Preorders r) (l : List α) :
    Orders r l (StableSort.sorted r l) :=
  ⟨List.perm_insertionSort _ l, StableSort.pairwise_sorted hr l⟩

theorem Orders.length_eq (h : Orders r l o) : o.length = l.length :=
  h.perm.length_eq

theorem not_tied_zero (o : List α) : ¬ Tied r o 0 := by
  rintro ⟨a, ha, -⟩
  simp at ha

theorem not_tied_of_le (h : o.length ≤ m) : ¬ Tied r o m := by
  rintro ⟨a, -, b, hb, -⟩
  rw [List.drop_eq_nil_of_le h] at hb
  cases hb

theorem Tied.pos (h : Tied r o m) : 0 < m := by
  rcases Nat.eq_zero_or_pos m with rfl | hpos
  · exact absurd h (not_tied_zero o)
  · exact hpos

theorem Tied.lt (h : Tied r o m) : m < o.length :=
  Nat.lt_of_not_le fun hle => not_tied_of_le hle h

/-- The neighbours at a place within the list. -/
theorem exists_neighbours (hpos : 0 < m) (hlt : m < o.length) :
    ∃ front a b back, o = front ++ a :: b :: back ∧ front.length + 1 = m := by
  have hm : m - 1 < o.length := by omega
  refine ⟨o.take (m - 1), o[m - 1], o[m], o.drop (m + 1), ?_, ?_⟩
  · have hb : o[m] :: o.drop (m + 1) = o.drop m := List.getElem_cons_drop hlt
    have ha : o[m - 1] :: o.drop m = o.drop (m - 1) := by
      have := List.getElem_cons_drop hm
      rwa [Nat.sub_add_cancel hpos] at this
    rw [hb, ha, List.take_append_drop]
  · rw [List.length_take]
    omega

theorem take_neighbours {front back : List α} {a b : α} :
    (front ++ a :: b :: back).take (front.length + 1) = front ++ [a] := by
  rw [List.take_append, List.take_of_length_le (Nat.le_succ _)]
  simp

theorem drop_neighbours {front back : List α} {a b : α} :
    (front ++ a :: b :: back).drop (front.length + 1) = b :: back := by
  rw [List.drop_append, List.drop_eq_nil_of_le (Nat.le_succ _)]
  simp

theorem tied_neighbours {front back : List α} {a b : α} :
    Tied r (front ++ a :: b :: back) (front.length + 1) ↔ r b a = true := by
  simp [Tied, take_neighbours, drop_neighbours]

/-- Unseparated neighbours change places. -/
theorem Orders.swap {front back : List α} {a b : α} (h : Orders r l (front ++ a :: b :: back))
    (hba : r b a = true) : Orders r l (front ++ b :: a :: back) := by
  refine ⟨((List.Perm.swap a b back).append_left front).trans h.perm, ?_⟩
  have hpairwise := h.pairwise
  simp only [List.pairwise_append, List.pairwise_cons, List.mem_cons, forall_eq_or_imp] at hpairwise ⊢
  obtain ⟨hfront, ⟨⟨-, ha⟩, hb, hback⟩, hcross⟩ := hpairwise
  refine ⟨hfront, ⟨⟨hba, hb⟩, ha, hback⟩, fun x hx => ?_⟩
  obtain ⟨hxa, hxb, hrest⟩ := hcross x hx
  exact ⟨hxb, hxa, hrest⟩

/-- What comes up to an element stands before everything else. -/
theorem filter_append_filter (hr : StableSort.Preorders r) (a : α)
    (ho : o.Pairwise fun x y => r x y = true) :
    o = o.filter (fun x => r x a) ++ o.filter fun x => !r x a := by
  induction o with
  | nil => rfl
  | cons x o ih =>
      obtain ⟨hx, ho⟩ := List.pairwise_cons.1 ho
      by_cases hxa : r x a = true
      · simp only [List.filter_cons, hxa, if_true, Bool.not_true, List.cons_append]
        exact congrArg (x :: ·) (ih ho)
      · have hnone : ∀ y ∈ o, ¬ r y a = true := by
          intro y hy hya
          exact hxa (hr.trans x y a (hx y hy) hya)
        have hempty : o.filter (fun x => r x a) = [] := List.filter_eq_nil_iff.2 hnone
        have hall : o.filter (fun x => !r x a) = o :=
          List.filter_eq_self.2 fun y hy => by simpa using hnone y hy
        simp [hxa, hempty, hall]

/-- Before a place that is not tied, all orders have the same elements. -/
theorem take_perm (hr : StableSort.Preorders r) (ho : Orders r l o) (ho' : Orders r l o')
    (hm : ¬ Tied r o m) : (o.take m).Perm (o'.take m) := by
  rcases Nat.eq_zero_or_pos m with rfl | hpos
  · simp
  rcases Nat.lt_or_ge m o.length with hlt | hle
  · obtain ⟨front, a, b, back, rfl, rfl⟩ := exists_neighbours hpos hlt
    rw [tied_neighbours] at hm
    have hpairwise := ho.pairwise
    simp only [List.pairwise_append, List.pairwise_cons, List.mem_cons, forall_eq_or_imp] at hpairwise
    obtain ⟨-, ⟨⟨-, -⟩, hb, -⟩, hcross⟩ := hpairwise
    have hrefl : r a a = true := (hr.total a a).elim id id
    -- what comes up to `a` is exactly what stands before the place
    have hfront : front.filter (fun x => r x a) = front :=
      List.filter_eq_self.2 fun x hx => (hcross x hx).1
    have hback : back.filter (fun x => r x a) = [] := by
      refine List.filter_eq_nil_iff.2 fun x hx hxa => hm ?_
      exact hr.trans b x a (hb x hx) hxa
    have hfilter : (front ++ a :: b :: back).filter (fun x => r x a) = front ++ [a] := by
      simp [List.filter_append, hfront, hback, hrefl, hm]
    have hperm : (o'.filter fun x => r x a).Perm (front ++ [a]) := by
      have := (ho'.perm.trans ho.perm.symm).filter fun x => r x a
      rwa [hfilter] at this
    have htake : o'.take (front.length + 1) = o'.filter fun x => r x a := by
      have hlength : (o'.filter fun x => r x a).length = front.length + 1 := by
        simpa using hperm.length_eq
      calc o'.take (front.length + 1)
          = (o'.filter (fun x => r x a) ++ o'.filter fun x => !r x a).take
              (front.length + 1) := by
            rw [← filter_append_filter hr a ho'.pairwise]
        _ = o'.filter fun x => r x a := List.take_left' hlength
    rw [htake, take_neighbours]
    exact hperm.symm
  · rw [List.take_of_length_le hle,
      List.take_of_length_le (by rwa [ho'.length_eq, ← ho.length_eq])]
    exact ho.perm.trans ho'.perm.symm

/-- Between two places that are not tied, too. -/
theorem window_perm (hr : StableSort.Preorders r) (ho : Orders r l o) (ho' : Orders r l o') {n : ℕ}
    (hfirst : ¬ Tied r o m) (hlast : ¬ Tied r o (m + n)) :
    ((o.drop m).take n).Perm ((o'.drop m).take n) := by
  have hsplit := take_perm hr ho ho' hlast
  rw [List.take_add, List.take_add] at hsplit
  apply (List.perm_append_left_iff (o.take m)).1
  exact hsplit.trans ((take_perm hr ho ho' hfirst).symm.append_right _)

end Ties

/-! ## The pages one after the other -/

section Concatenation

variable {l o : List α} {orders : ℕ → List α} {n k : ℕ}

/-- Pages of one order are its beginning. -/
theorem pages_const (o : List α) (n k : ℕ) : pages (fun _ => o) n k = o.take (k * n) := by
  unfold pages
  induction k with
  | zero => simp
  | succ k ih =>
      rw [List.range_succ, List.flatMap_append, ih, Nat.succ_mul, List.take_add]
      simp

/-- Each page has the elements that it has in any one order. -/
theorem page_perm (hr : StableSort.Preorders r) (ho : Orders r l o)
    (horders : ∀ j, Orders r l (orders j)) (hties : ∀ j, 0 < j → ¬ Tied r o (j * n)) (j : ℕ) :
    (((orders j).drop (j * n)).take n).Perm ((o.drop (j * n)).take n) := by
  apply List.Perm.symm
  apply window_perm hr ho (horders j)
  · rcases Nat.eq_zero_or_pos j with rfl | hj
    · rw [Nat.zero_mul]
      exact not_tied_zero o
    · exact hties j hj
  · rw [← Nat.succ_mul]
    exact hties (j + 1) j.succ_pos

theorem pages_perm (hr : StableSort.Preorders r) (ho : Orders r l o)
    (horders : ∀ j, Orders r l (orders j)) (hties : ∀ j, 0 < j → ¬ Tied r o (j * n))
    (hk : l.length ≤ k * n) : (pages orders n k).Perm l := by
  have hone : (pages orders n k).Perm (pages (fun _ => o) n k) :=
    List.Perm.flatMap_left _ fun j _ => page_perm hr ho horders hties j
  rw [pages_const, List.take_of_length_le (by rwa [ho.length_eq])] at hone
  exact hone.trans ho.perm

theorem pages_pairwise (hr : StableSort.Preorders r) (ho : Orders r l o)
    (horders : ∀ j, Orders r l (orders j)) (hties : ∀ j, 0 < j → ¬ Tied r o (j * n)) :
    (pages orders n k).Pairwise fun a b => r a b = true := by
  refine List.pairwise_flatMap.2 ⟨fun j _ => ?_, ?_⟩
  · have hsub : (((orders j).drop (j * n)).take n).Sublist (orders j) :=
      (List.take_sublist _ _).trans (List.drop_sublist _ _)
    exact (horders j).pairwise.sublist hsub
  · refine List.pairwise_lt_range.imp fun {i j} hij x hx y hy => ?_
    -- in one order, the first page ends before the second begins
    have hx := (page_perm hr ho horders hties i).mem_iff.1 hx
    have hy := (page_perm hr ho horders hties j).mem_iff.1 hy
    have hx : x ∈ o.take ((i + 1) * n) := by
      rw [Nat.succ_mul, List.take_add]
      exact List.mem_append_right _ hx
    have hy : y ∈ o.drop ((i + 1) * n) := by
      have hle : (i + 1) * n ≤ j * n := Nat.mul_le_mul_right n hij
      have hmem := List.mem_of_mem_take hy
      rw [← Nat.add_sub_cancel' hle, ← List.drop_drop] at hmem
      exact List.mem_of_mem_drop hmem
    have hpairwise := ho.pairwise
    rw [← List.take_append_drop ((i + 1) * n) o] at hpairwise
    exact (List.pairwise_append.1 hpairwise).2.2 x hx y hy

/-- Where a page ends at a place that is tied, there are orders whose pages repeat an element. -/
theorem exists_pages_not_perm (hl : l.Nodup) (ho : Orders r l o) (hn : 0 < n)
    (htied : Tied r o (k * n)) : ∃ orders : ℕ → List α, (∀ j, Orders r l (orders j)) ∧
      ∀ m, k < m → ¬ (pages orders n m).Perm l := by
  obtain ⟨front, a, b, back, rfl, hplace⟩ := exists_neighbours htied.pos htied.lt
  rw [← hplace, tied_neighbours] at htied
  refine ⟨fun j => if j = k then front ++ b :: a :: back else front ++ a :: b :: back,
    fun j => ?_, fun m hm hperm => ?_⟩
  · dsimp only
    split_ifs
    · exact ho.swap htied
    · exact ho
  · have hk : k ≠ 0 := fun hk => by simp [hk] at hplace
    obtain ⟨i, rfl⟩ := Nat.exists_eq_succ_of_ne_zero hk
    obtain ⟨-, hdisjoint⟩ := List.nodup_flatMap.1 (hperm.nodup_iff.2 hl)
    -- the element before the place ends one page and begins the next
    have hend : a ∈ ((front ++ a :: b :: back).drop (i * n)).take n := by
      have hmem : a ∈ (front ++ [a]).drop (i * n) := by
        rw [List.drop_append_of_le_length (by rw [Nat.succ_mul] at hplace; omega)]
        exact List.mem_append_right _ (List.mem_singleton_self a)
      have htake : ((front ++ a :: b :: back).take ((i + 1) * n)).drop (i * n) =
          ((front ++ a :: b :: back).drop (i * n)).take n := by
        rw [List.drop_take, Nat.succ_mul, Nat.add_sub_cancel_left]
      have hplace : (i + 1) * n = front.length + 1 := hplace.symm
      rwa [← htake, hplace, take_neighbours]
    have hbegin : a ∈ ((front ++ b :: a :: back).drop ((i + 1) * n)).take n := by
      rw [← hplace, drop_neighbours]
      obtain ⟨n, rfl⟩ := Nat.exists_eq_succ_of_ne_zero hn.ne'
      exact List.mem_cons_self
    have hsymm : Std.Symm (Function.onFun List.Disjoint fun j =>
        ((if j = i + 1 then front ++ b :: a :: back else front ++ a :: b :: back).drop (j * n)).take
          n) := ⟨fun _ _ h _ hx hy => h hy hx⟩
    have hapart := hdisjoint.forall (List.mem_range.2 (Nat.lt_of_succ_lt hm)) (List.mem_range.2 hm)
      (Nat.succ_ne_self i).symm
    exact hapart (by simpa using hend) (by simpa using hbegin)

end Concatenation

/-! ## The first elements as they stand -/

section First

variable {l o o' : List α} {m : ℕ}

/-- All orders begin alike, up to the first place that is tied. -/
theorem take_eq (hr : StableSort.Preorders r) (ho : Orders r l o) (ho' : Orders r l o')
    (hties : ∀ i, 0 < i → i ≤ m → ¬ Tied r o i) : o.take m = o'.take m := by
  induction m with
  | zero => simp
  | succ m ih =>
      have hbefore := ih fun i hi hm => hties i hi (Nat.le_succ_of_le hm)
      have hperm := take_perm hr ho ho' (hties (m + 1) m.succ_pos (Nat.le_refl _))
      rw [List.take_add_one, List.take_add_one, hbefore] at hperm ⊢
      rw [List.perm_append_left_iff] at hperm
      apply congrArg (o'.take m ++ ·)
      cases hx : o[m]? with
      | none =>
          rw [hx] at hperm
          simpa using hperm
      | some x =>
          rw [hx] at hperm
          exact (List.perm_singleton.1 hperm.symm).symm

/-- Where a place is tied, two orders differ before it. -/
theorem exists_take_ne (hl : l.Nodup) (ho : Orders r l o) {i : ℕ} (him : i ≤ m)
    (htied : Tied r o i) : ∃ o', Orders r l o' ∧ o'.take m ≠ o.take m := by
  obtain ⟨front, a, b, back, rfl, rfl⟩ := exists_neighbours htied.pos htied.lt
  rw [tied_neighbours] at htied
  refine ⟨_, ho.swap htied, fun heq => ?_⟩
  have hend := congrArg (List.take (front.length + 1)) heq
  rw [List.take_take, List.take_take, Nat.min_eq_left him, take_neighbours, take_neighbours] at hend
  obtain rfl : b = a := by simpa using hend
  have hnodup := ho.perm.nodup_iff.2 hl
  simp [List.nodup_append] at hnodup

end First

end Pages
end Lib
end Bookit
