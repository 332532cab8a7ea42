import Mathlib.Data.List.Nodup
import Mathlib.Data.List.TakeWhile

/-!
# Table — rows updated by a condition

A table is the list of its rows.  `updateWhere` is the `UPDATE … SET … WHERE …` of a relational
store; the lemmas say which rows a table has after it, and what an update leaves as it was.

Where rows have a key of their own, `put` writes one row: in its place, or at the end.  Two tables that
differ in one row are selected and sorted alike if and only if that row is selected alike.
-/

namespace Bookit
namespace Lib
namespace Table

variable {α β : Type}

/-- Apply `f` to the rows that satisfy `p`. -/
def updateWhere (p : α → Bool) (f : α → α) (rows : List α) : List α :=
  rows.map fun r => if p r then f r else r

variable {p : α → Bool} {f : α → α} {rows : List α}

theorem mem_updateWhere {r : α} :
    r ∈ updateWhere p f rows ↔ ∃ r₀ ∈ rows, (if p r₀ then f r₀ else r₀) = r :=
  List.mem_map

/-- A row of the updated table is an updated row that met the condition, or an old one that did
not. -/
theorem mem_updateWhere_cases {r : α} (h : r ∈ updateWhere p f rows) :
    (r ∈ rows ∧ p r = false) ∨ ∃ r₀ ∈ rows, p r₀ = true ∧ r = f r₀ := by
  obtain ⟨r₀, hmem, rfl⟩ := mem_updateWhere.1 h
  cases hp : p r₀ with
  | false => exact .inl ⟨by simpa [hp] using hmem, by simp [hp]⟩
  | true => exact .inr ⟨r₀, hmem, hp, by simp⟩

theorem mem_updateWhere_of_mem {r : α} (h : r ∈ rows) :
    (if p r then f r else r) ∈ updateWhere p f rows :=
  List.mem_map_of_mem h

/-- A column that the update does not write. -/
theorem map_updateWhere {g : α → β} (hg : ∀ r, g (f r) = g r) :
    (updateWhere p f rows).map g = rows.map g := by
  simp only [updateWhere, List.map_map]
  refine List.map_congr_left fun r _ => ?_
  by_cases hp : p r <;> simp [hp, hg]

/-- A key that no two rows share. -/
theorem length_filter_le_one [DecidableEq β] {key : α → β} (h : (rows.map key).Nodup) (k : β) :
    (rows.filter fun r => decide (key r = k)).length ≤ 1 := by
  have hcount := List.nodup_iff_count_le_one.1 h k
  rwa [List.count_eq_countP, List.countP_map, List.countP_eq_length_filter] at hcount

/-- A condition on the updated rows is counted before the update. -/
theorem countP_updateWhere {q : α → Bool} :
    (updateWhere p f rows).countP q = rows.countP fun r => q (if p r then f r else r) :=
  List.countP_map

/-- The rows with one of the keys, where each key has a row. -/
theorem countP_key_mem [DecidableEq β] {key : α → β} {keys : List β} (h : (rows.map key).Nodup)
    (hkeys : keys.Nodup) (hall : ∀ k ∈ keys, ∃ r ∈ rows, key r = k) :
    (rows.countP fun r => decide (key r ∈ keys)) = keys.length := by
  have hmap : (rows.countP fun r => decide (key r ∈ keys)) =
      ((rows.map key).filter fun k => decide (k ∈ keys)).length := by
    rw [← List.countP_eq_length_filter, List.countP_map]
    rfl
  have hperm : ((rows.map key).filter fun k => decide (k ∈ keys)).Perm keys := by
    refine (List.perm_ext_iff_of_nodup (h.sublist List.filter_sublist) hkeys).2 fun k => ?_
    rw [List.mem_filter, decide_eq_true_iff]
    refine ⟨fun hk => hk.2, fun hk => ⟨?_, hk⟩⟩
    obtain ⟨r, hr, rfl⟩ := hall k hk
    exact List.mem_map_of_mem hr
  rw [hmap, hperm.length_eq]

/-! ## One row -/

section Put

variable [DecidableEq β] (key : α → β) (k : β)

/-- The rows before the one with key `k`, or all rows. -/
def ahead (rows : List α) : List α :=
  rows.takeWhile fun r => decide (key r ≠ k)

/-- The rows after the one with key `k`. -/
def behind (rows : List α) : List α :=
  (rows.dropWhile fun r => decide (key r ≠ k)).tail

def rowAt (rows : List α) : Option α :=
  rows.find? fun r => decide (key r = k)

/-- Write a row in the place of the one with its key, or at the end. -/
def put (x : α) (rows : List α) : List α :=
  ahead key (key x) rows ++ x :: behind key (key x) rows

variable {key k}

variable (key k) in
theorem ahead_rowAt_behind (rows : List α) :
    ahead key k rows ++ ((rowAt key k rows).toList ++ behind key k rows) = rows := by
  induction rows with
  | nil => rfl
  | cons r rows ih =>
      by_cases hr : key r = k
      · simp [ahead, behind, rowAt, hr]
      · simpa [ahead, behind, rowAt, hr] using ih

theorem key_of_rowAt {r : α} (h : r ∈ rowAt key k rows) : key r = k := by
  simpa using List.find?_some (Option.mem_def.mp h)

theorem mem_of_rowAt {r : α} (h : r ∈ rowAt key k rows) : r ∈ rows :=
  List.mem_of_find?_eq_some h

/-- The row with a key, where no two rows share one. -/
theorem rowAt_of_mem {r : α} (hkeys : (rows.map key).Nodup) (hr : r ∈ rows) :
    rowAt key (key r) rows = some r := by
  cases hat : rowAt key (key r) rows with
  | none =>
      have hnone := List.find?_eq_none.mp hat r hr
      simp at hnone
  | some x =>
      have hx := Option.mem_def.mpr hat
      exact congrArg some (List.inj_on_of_nodup_map hkeys (mem_of_rowAt hx) hr (key_of_rowAt hx))

theorem rowAt_eq_none : rowAt key k rows = none ↔ k ∉ rows.map key := by
  simp [rowAt]

/-- The row with a key after an update that leaves the keys. -/
theorem rowAt_updateWhere {p : α → Bool} {f : α → α} (hf : ∀ r, key (f r) = key r) (rows : List α) :
    rowAt key k (updateWhere p f rows) = (rowAt key k rows).map fun r => if p r then f r else r := by
  have hkey : ∀ r, key (if p r then f r else r) = key r := by
    intro r
    split_ifs
    · exact hf r
    · rfl
  unfold rowAt updateWhere
  rw [List.find?_map]
  simp only [Function.comp_def, hkey]

theorem ahead_sublist (rows : List α) : (ahead key k rows).Sublist rows :=
  List.takeWhile_sublist _

theorem behind_sublist (rows : List α) : (behind key k rows).Sublist rows :=
  (List.tail_sublist _).trans (List.dropWhile_sublist _)

theorem key_ne_of_mem_ahead {r : α} (h : r ∈ ahead key k rows) : key r ≠ k := by
  simpa using List.mem_takeWhile_imp h

theorem key_ne_of_mem_behind {r : α} (hkeys : (rows.map key).Nodup)
    (h : r ∈ behind key k rows) : key r ≠ k := by
  intro hr
  have hsplit := ahead_rowAt_behind key k rows
  cases hat : rowAt key k rows with
  | none =>
      -- no row has the key, and this one is a row
      have hmem : r ∈ rows := (behind_sublist rows).mem h
      exact rowAt_eq_none.mp hat (List.mem_map.mpr ⟨r, hmem, hr⟩)
  | some x =>
      rw [← hsplit, hat] at hkeys
      simp only [Option.toList_some, List.map_append, List.nodup_append, List.map_cons,
        List.map_nil] at hkeys
      exact hkeys.2.1.2.2 (key x) (by simp) (key r) (List.mem_map_of_mem h)
        ((key_of_rowAt (Option.mem_def.mpr hat)).trans hr.symm)

/-- The rows with other keys. -/
theorem mem_put_of_ne {x y : α} (hy : y ∈ rows) (hne : key y ≠ key x) : y ∈ put key x rows := by
  rw [← ahead_rowAt_behind key (key x) rows] at hy
  simp only [List.mem_append, Option.mem_toList] at hy
  rcases hy with hy | hy | hy
  · exact List.mem_append_left _ hy
  · exact absurd (key_of_rowAt hy) hne
  · exact List.mem_append_right _ (List.mem_cons_of_mem x hy)

theorem mem_put {x y : α} (hkeys : (rows.map key).Nodup) :
    y ∈ put key x rows ↔ y = x ∨ (y ∈ rows ∧ key y ≠ key x) := by
  constructor
  · intro hy
    rcases List.mem_append.mp hy with hy | hy
    · exact .inr ⟨(ahead_sublist rows).mem hy, key_ne_of_mem_ahead hy⟩
    · rcases List.mem_cons.mp hy with rfl | hy
      · exact .inl rfl
      · exact .inr ⟨(behind_sublist rows).mem hy, key_ne_of_mem_behind hkeys hy⟩
  · rintro (rfl | ⟨hy, hne⟩)
    · exact List.mem_append_right _ List.mem_cons_self
    · exact mem_put_of_ne hy hne

theorem nodup_put {x : α} (hkeys : (rows.map key).Nodup) : ((put key x rows).map key).Nodup := by
  have hothers : (ahead key (key x) rows ++ behind key (key x) rows).Sublist rows := by
    have hsub := (List.sublist_append_right (rowAt key (key x) rows).toList
      (behind key (key x) rows)).append_left (ahead key (key x) rows)
    rwa [ahead_rowAt_behind] at hsub
  have hperm : (put key x rows).Perm
      (x :: (ahead key (key x) rows ++ behind key (key x) rows)) := List.perm_middle
  rw [(hperm.map key).nodup_iff, List.map_cons, List.nodup_cons]
  refine ⟨?_, hkeys.sublist (hothers.map key)⟩
  intro hmem
  obtain ⟨y, hy, hkey⟩ := List.mem_map.mp hmem
  rcases List.mem_append.mp hy with hy | hy
  · exact key_ne_of_mem_ahead hy hkey
  · exact key_ne_of_mem_behind hkeys hy hkey

variable (key k) in
/-- What a condition selects: before the row, the row, and after it. -/
theorem filter_split (q : α → Bool) (rows : List α) :
    rows.filter q = (ahead key k rows).filter q ++
      (((rowAt key k rows).filter q).toList ++ (behind key k rows).filter q) := by
  conv_lhs => rw [← ahead_rowAt_behind key k rows]
  rw [List.filter_append, List.filter_append, Option.toList_filter]

variable (key) in
theorem filter_put (q : α → Bool) (x : α) (rows : List α) :
    (put key x rows).filter q = (ahead key (key x) rows).filter q ++
      (((some x).filter q).toList ++ (behind key (key x) rows).filter q) := by
  have hput : put key x rows =
      ahead key (key x) rows ++ ((some x).toList ++ behind key (key x) rows) := rfl
  rw [hput, List.filter_append, List.filter_append, Option.toList_filter]

end Put

/-- Lists that differ in one place, rearranged alike, are equal if and only if that place is. -/
theorem arranged_eq_iff {f : List α → List α} (hf : ∀ l y, y ∈ f l ↔ y ∈ l) {l₁ l₂ : List α}
    {o o' : Option α} (ho : ∀ x ∈ o, x ∉ l₁ ∧ x ∉ l₂) (ho' : ∀ x ∈ o', x ∉ l₁ ∧ x ∉ l₂) :
    f (l₁ ++ (o.toList ++ l₂)) = f (l₁ ++ (o'.toList ++ l₂)) ↔ o = o' := by
  constructor
  · intro heq
    have hmem : ∀ y, y ∈ l₁ ++ (o.toList ++ l₂) ↔ y ∈ l₁ ++ (o'.toList ++ l₂) := by
      intro y
      rw [← hf, heq, hf]
    have hin : ∀ {o o' : Option α}, (∀ x ∈ o, x ∉ l₁ ∧ x ∉ l₂) →
        (∀ y, y ∈ l₁ ++ (o.toList ++ l₂) ↔ y ∈ l₁ ++ (o'.toList ++ l₂)) → ∀ x ∈ o, x ∈ o' := by
      intro o o' hout hmem x hx
      have hx' := (hmem x).mp (by simp [Option.mem_def.mp hx])
      simpa [hout x hx] using hx'
    exact Option.ext fun x => ⟨hin ho hmem x, hin ho' (fun y => (hmem y).symm) x⟩
  · rintro rfl
    rfl

section Arranged

variable [DecidableEq β] {key : α → β} (hkeys : (rows.map key).Nodup)

include hkeys

theorem notMem_sides {k : β} (q : α → Bool) {x : α} (hx : key x = k) :
    x ∉ (ahead key k rows).filter q ∧ x ∉ (behind key k rows).filter q :=
  ⟨fun h => key_ne_of_mem_ahead (List.mem_of_mem_filter h) hx,
    fun h => key_ne_of_mem_behind hkeys (List.mem_of_mem_filter h) hx⟩

variable {f : List α → List α} (hf : ∀ l y, y ∈ f l ↔ y ∈ l)

include hf

/-- A write of one row changes what a condition selects if it changes whether, or how, that row is
selected. -/
theorem arranged_put_iff (q : α → Bool) (x : α) :
    f (rows.filter q) = f ((put key x rows).filter q) ↔
      (rowAt key (key x) rows).filter q = (some x).filter q := by
  rw [filter_split key (key x), filter_put]
  apply arranged_eq_iff hf
  · intro y hy
    exact notMem_sides hkeys q (key_of_rowAt (Option.mem_filter_iff.mp hy).1)
  · intro y hy
    obtain rfl := Option.some.inj (Option.mem_filter_iff.mp hy).1
    exact notMem_sides hkeys q rfl

/-- Two conditions that differ on one row select alike if they do so on that row. -/
theorem arranged_filter_iff (k : β) (q q' : α → Bool)
    (hsame : ∀ r ∈ rows, key r ≠ k → q r = q' r) :
    f (rows.filter q) = f (rows.filter q') ↔
      (rowAt key k rows).filter q = (rowAt key k rows).filter q' := by
  have hahead : (ahead key k rows).filter q' = (ahead key k rows).filter q := by
    apply List.filter_congr
    intro r hr
    exact (hsame r ((ahead_sublist rows).mem hr) (key_ne_of_mem_ahead hr)).symm
  have hbehind : (behind key k rows).filter q' = (behind key k rows).filter q := by
    apply List.filter_congr
    intro r hr
    exact (hsame r ((behind_sublist rows).mem hr) (key_ne_of_mem_behind hkeys hr)).symm
  rw [filter_split key k q, filter_split key k q', hahead, hbehind]
  apply arranged_eq_iff hf
  · intro y hy
    exact notMem_sides hkeys q (key_of_rowAt (Option.mem_filter_iff.mp hy).1)
  · intro y hy
    exact notMem_sides hkeys q (key_of_rowAt (Option.mem_filter_iff.mp hy).1)

end Arranged

end Table
end Lib
end Bookit
