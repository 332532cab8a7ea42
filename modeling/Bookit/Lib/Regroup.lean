import Mathlib.Algebra.BigOperators.Group.List.Lemmas
import Mathlib.Algebra.GroupWithZero.Nat
import Mathlib.Algebra.Order.BigOperators.Group.List
import Mathlib.Algebra.Order.Group.Nat
import Mathlib.Data.List.Dedup
import Mathlib.Data.List.Perm.Lattice

/-!
# Regroup — a list taken apart by keys and put together again

Entries are collected under their keys, in the order in which the keys first occur.  Each group is
then replaced by another list, and the groups are joined.

* `firsts` — the keys, each where it occurs first;
* `groups` — the entries under each key, as insertion into a map collects them;
* `Together` — the entries of each key stand together; `together_flatMap` says it of runs;
* `firsts_eq_of_leads` — in a list that is in order, the order of the keys is that of their first
  entries;
* `regroup_iff` — where no group gets longer and its entries keep one key, the list is what it was
  exactly if every group is, and the entries of a key stand together.
-/

namespace Bookit
namespace Lib

variable {α β κ : Type} [DecidableEq κ]

/-! ## Keys in the order of their first occurrence -/

def firsts (ks : List κ) : List κ :=
  ks.foldl (fun seen k => if k ∈ seen then seen else seen ++ [k]) []

section Firsts

variable {ks : List κ} {k : κ}

theorem firsts_concat :
    firsts (ks ++ [k]) = if k ∈ firsts ks then firsts ks else firsts ks ++ [k] := by
  unfold firsts
  rw [List.foldl_append]
  rfl

theorem mem_firsts : k ∈ firsts ks ↔ k ∈ ks := by
  induction ks using List.reverseRecOn with
  | nil => exact Iff.rfl
  | append_singleton ks k' ih =>
      rw [firsts_concat, List.mem_append, List.mem_singleton, ← ih]
      split_ifs with hseen
      · constructor
        · exact .inl
        · rintro (h | rfl)
          · exact h
          · exact hseen
      · rw [List.mem_append, List.mem_singleton]

theorem nodup_firsts (ks : List κ) : (firsts ks).Nodup := by
  induction ks using List.reverseRecOn with
  | nil => exact List.nodup_nil
  | append_singleton ks k ih =>
      rw [firsts_concat]
      split_ifs with hseen
      · exact ih
      · refine List.nodup_append.2 ⟨ih, List.nodup_singleton k, ?_⟩
        intro a ha b hb heq
        rw [List.mem_singleton] at hb
        exact hseen (hb ▸ heq ▸ ha)

theorem length_firsts_le (ks : List κ) : (firsts ks).length ≤ ks.length := by
  induction ks using List.reverseRecOn with
  | nil => exact Nat.le_refl 0
  | append_singleton ks k ih =>
      rw [firsts_concat, List.length_append]
      split_ifs
      · exact Nat.le_succ_of_le ih
      · rw [List.length_append]
        exact Nat.add_le_add_right ih _

/-- Where no key is missing from the list of first occurrences, none occurs twice. -/
theorem firsts_eq_self (h : ks.length ≤ (firsts ks).length) : firsts ks = ks := by
  induction ks using List.reverseRecOn with
  | nil => rfl
  | append_singleton ks k ih =>
      rw [firsts_concat, List.length_append] at h
      rw [firsts_concat]
      split_ifs at h ⊢ with hseen
      · exact absurd (h.trans (length_firsts_le ks)) (Nat.not_succ_le_self _)
      · rw [List.length_append] at h
        rw [ih (Nat.le_of_add_le_add_right h)]

/-- A run of one key counts once. -/
theorem firsts_run {run : List κ} (hne : run ≠ []) (hrun : ∀ k' ∈ run, k' = k) :
    firsts (ks ++ run) = firsts (ks ++ [k]) := by
  induction run using List.reverseRecOn with
  | nil => exact absurd rfl hne
  | append_singleton run k' ih =>
      obtain rfl : k' = k := hrun k' (List.mem_append_right _ (List.mem_singleton_self k'))
      by_cases hnil : run = []
      · rw [hnil, List.nil_append]
      · have hearlier := ih hnil fun k'' hk'' => hrun k'' (List.mem_append_left _ hk'')
        have hmem : k' ∈ firsts (ks ++ run) := by
          rw [hearlier, mem_firsts]
          exact List.mem_append_right _ (List.mem_singleton_self k')
        rw [← List.append_assoc, firsts_concat, if_pos hmem, hearlier]

/-- The first key is in front, and nowhere else. -/
theorem firsts_cons {k : κ} {ks : List κ} :
    firsts (k :: ks) = k :: (firsts ks).filter fun k' => decide (k' ≠ k) := by
  induction ks using List.reverseRecOn with
  | nil => rfl
  | append_singleton ks k' ih =>
      have hmem : k' ∈ firsts (k :: ks) ↔ k' = k ∨ k' ∈ firsts ks := by
        rw [mem_firsts, List.mem_cons, mem_firsts]
      rw [← List.cons_append, firsts_concat, firsts_concat]
      by_cases hseen : k' ∈ firsts ks
      · rw [if_pos (hmem.2 (.inr hseen)), if_pos hseen, ih]
      · rw [if_neg hseen, List.filter_append]
        by_cases heq : k' = k
        · rw [if_pos (hmem.2 (.inl heq)), ih, List.filter_cons_of_neg (by simpa using heq),
            List.filter_nil, List.append_nil]
        · have hnew : k' ∉ firsts (k :: ks) := fun h => (hmem.1 h).elim heq hseen
          rw [if_neg hnew, ih, List.filter_cons_of_pos (by simpa using heq), List.filter_nil]
          rfl

end Firsts

/-! ## Groups -/

section Groups

variable (key : α → κ)

/-- `if (!groups.has(k)) groups.set(k, []); groups.get(k).push(a)`. -/
def collect (groups : List (κ × List α)) (a : α) : List (κ × List α) :=
  if key a ∈ groups.map Prod.fst then
    groups.map fun g => if g.1 = key a then (g.1, g.2 ++ [a]) else g
  else
    groups ++ [(key a, [a])]

def groups (l : List α) : List (κ × List α) :=
  l.foldl (collect key) []

/-- The entries under a key. -/
def part (l : List α) (k : κ) : List α :=
  l.filter fun a => decide (key a = k)

/-- The entries of each key stand together: the parts one after the other are the list. -/
def Together (l : List α) : Prop :=
  (firsts (l.map key)).flatMap (part key l) = l

variable {key} {l : List α} {k : κ}

theorem mem_part {a : α} : a ∈ part key l k ↔ a ∈ l ∧ key a = k := by
  simp [part]

theorem part_cons_self {a : α} : part key (a :: l) (key a) = a :: part key l (key a) :=
  List.filter_cons_of_pos (decide_eq_true rfl)

theorem part_cons_ne {a : α} {k : κ} (hne : key a ≠ k) : part key (a :: l) k = part key l k :=
  List.filter_cons_of_neg fun h => hne (of_decide_eq_true h)

/-- An entry in front keeps a list together if its key is new, or the one of the next entry. -/
theorem together_cons {a : α} : Together key (a :: l) ↔
    Together key l ∧ (key a ∈ l.map key → ∀ b ∈ l.head?, key b = key a) := by
  have hrest : Together key (a :: l) ↔ part key l (key a) ++
      ((firsts (l.map key)).filter fun k => decide (k ≠ key a)).flatMap (part key l) = l := by
    have hothers : ((firsts (l.map key)).filter fun k => decide (k ≠ key a)).flatMap
        (part key (a :: l)) = ((firsts (l.map key)).filter fun k => decide (k ≠ key a)).flatMap
          (part key l) := by
      apply List.flatMap_congr
      intro k hk
      exact part_cons_ne (Ne.symm (of_decide_eq_true (List.mem_filter.1 hk).2))
    rw [Together, List.map_cons, firsts_cons, List.flatMap_cons, part_cons_self, hothers,
      List.cons_append, List.cons_inj_right]
  rw [hrest]
  by_cases hmem : key a ∈ l.map key
  · cases l with
    | nil => exact absurd hmem List.not_mem_nil
    | cons b l =>
        by_cases hkey : key b = key a
        · have hfirsts : (firsts ((b :: l).map key)).filter (fun k => decide (k ≠ key a)) =
              (firsts (l.map key)).filter fun k => decide (k ≠ key b) := by
            rw [List.map_cons, firsts_cons, List.filter_cons_of_neg (by simpa using hkey), ← hkey,
              List.filter_filter]
            simp only [Bool.and_self]
          rw [hfirsts, ← hkey]
          constructor
          · intro h
            refine ⟨?_, fun _ b' hb' => congrArg key (Option.some.inj hb').symm⟩
            rw [Together, List.map_cons, firsts_cons, List.flatMap_cons]
            exact h
          · rintro ⟨h, -⟩
            rw [Together, List.map_cons, firsts_cons, List.flatMap_cons] at h
            exact h
        · constructor
          · intro h
            -- the next entry would have to be one with the key in front
            exfalso
            have hne : part key (b :: l) (key a) ≠ [] := by
              obtain ⟨c, hc, heq⟩ := List.mem_map.1 hmem
              exact List.ne_nil_of_mem (mem_part.2 ⟨hc, heq⟩)
            obtain ⟨c, cs, hcons⟩ := List.exists_cons_of_ne_nil hne
            have hc : key c = key a := (mem_part.1 (hcons ▸ List.mem_cons_self)).2
            rw [hcons, List.cons_append] at h
            exact hkey ((List.cons.inj h).1 ▸ hc)
          · rintro ⟨-, h⟩
            exact absurd (h hmem b rfl) hkey
  · have hnone : part key l (key a) = [] := by
      rw [List.eq_nil_iff_forall_not_mem]
      intro b hb
      obtain ⟨hb, heq⟩ := mem_part.1 hb
      exact hmem (heq ▸ List.mem_map_of_mem hb)
    have hall : (firsts (l.map key)).filter (fun k => decide (k ≠ key a)) = firsts (l.map key) := by
      apply List.filter_eq_self.2
      intro k hk
      apply decide_eq_true
      rintro rfl
      exact hmem (mem_firsts.1 hk)
    rw [hnone, hall, List.nil_append]
    exact ⟨fun h => ⟨h, fun h => absurd h hmem⟩, And.left⟩

theorem groups_eq (l : List α) :
    groups key l = (firsts (l.map key)).map fun k => (k, part key l k) := by
  induction l using List.reverseRecOn with
  | nil => rfl
  | append_singleton l a ih =>
      have hstep : groups key (l ++ [a]) = collect key (groups key l) a := by
        unfold groups
        rw [List.foldl_append]
        rfl
      have hkeys : (groups key l).map Prod.fst = firsts (l.map key) := by
        rw [ih, List.map_map]
        exact List.map_id _
      have hpart : ∀ k, part key (l ++ [a]) k =
          if k = key a then part key l k ++ [a] else part key l k := by
        intro k
        unfold part
        rw [List.filter_append]
        split_ifs with heq
        · rw [List.filter_cons_of_pos (by simpa using heq.symm), List.filter_nil]
        · rw [List.filter_cons_of_neg (by simpa using fun h => heq h.symm), List.filter_nil,
            List.append_nil]
      rw [hstep, collect, hkeys, List.map_append, List.map_singleton, firsts_concat]
      split_ifs with hseen
      · rw [ih, List.map_map]
        apply List.map_congr_left
        intro k _
        show (if k = key a then (k, part key l k ++ [a]) else (k, part key l k)) = _
        rw [hpart]
        split_ifs <;> rfl
      · rw [ih, List.map_append, List.map_singleton, hpart, if_pos rfl]
        have hnone : part key l (key a) = [] := by
          rw [List.eq_nil_iff_forall_not_mem]
          intro b hb
          obtain ⟨hmem, hkey⟩ := mem_part.1 hb
          exact hseen (mem_firsts.2 (hkey ▸ List.mem_map_of_mem hmem))
        rw [hnone, List.nil_append]
        congr 1
        apply List.map_congr_left
        intro k hk
        have hne : k ≠ key a := fun heq => hseen (heq ▸ hk)
        rw [hpart, if_neg hne]

/-- The parts have the length of the list between them. -/
theorem sum_length_part (l : List α) :
    ((firsts (l.map key)).map fun k => (part key l k).length).sum = l.length := by
  have hcount : ∀ k, (part key l k).length = (l.map key).count k := by
    intro k
    rw [part, List.count_eq_countP, List.countP_map, List.countP_eq_length_filter]
    rfl
  have hperm : (firsts (l.map key)).Perm (l.map key).dedup := by
    apply (List.perm_ext_iff_of_nodup (nodup_firsts _) (List.nodup_dedup _)).2
    intro k
    rw [mem_firsts, List.mem_dedup]
  calc ((firsts (l.map key)).map fun k => (part key l k).length).sum
      = ((firsts (l.map key)).map fun k => (l.map key).count k).sum := by simp only [hcount]
    _ = ((l.map key).dedup.map fun k => (l.map key).count k).sum := (hperm.map _).sum_eq
    _ = (l.map key).length := List.sum_map_count_dedup_eq_length _
    _ = l.length := List.length_map _

end Groups

/-! ## Lists of runs -/

section Together

variable {key : α → κ} {l : List α} {keyOf : β → κ} {F : β → List α} {bs : List β}

/-- A run of one key in front of a list counts as one entry. -/
theorem together_run {run : List α} {k : κ} (hne : run ≠ []) (hrun : ∀ a ∈ run, key a = k) :
    Together key (run ++ l) ↔
      Together key l ∧ (k ∈ l.map key → ∀ b ∈ l.head?, key b = k) := by
  induction run with
  | nil => exact absurd rfl hne
  | cons a run ih =>
      have ha : key a = k := hrun a List.mem_cons_self
      rw [List.cons_append, together_cons, ha]
      by_cases hnil : run = []
      · rw [hnil, List.nil_append]
      · have htail := ih hnil fun b hb => hrun b (List.mem_cons_of_mem a hb)
        obtain ⟨b, run', rfl⟩ := List.exists_cons_of_ne_nil hnil
        have hb : key b = k := hrun b (List.mem_cons_of_mem a List.mem_cons_self)
        rw [htail]
        refine and_iff_left ?_
        intro _ b' hb'
        rw [← Option.some.inj hb']
        exact hb

/-- A list of runs is together as the list of their keys is. -/
theorem together_flatMap (hne : ∀ b ∈ bs, F b ≠ []) (hkey : ∀ b ∈ bs, ∀ a ∈ F b, key a = keyOf b) :
    Together key (bs.flatMap F) ↔ Together keyOf bs := by
  induction bs with
  | nil => exact ⟨fun _ => rfl, fun _ => rfl⟩
  | cons b bs ih =>
      have hneTail : ∀ b ∈ bs, F b ≠ [] := fun b' hb' => hne b' (List.mem_cons_of_mem b hb')
      have hkeyTail : ∀ b ∈ bs, ∀ a ∈ F b, key a = keyOf b :=
        fun b' hb' => hkey b' (List.mem_cons_of_mem b hb')
      have hmem : keyOf b ∈ (bs.flatMap F).map key ↔ keyOf b ∈ bs.map keyOf := by
        simp only [List.mem_map, List.mem_flatMap]
        constructor
        · rintro ⟨a, ⟨b', hb', ha⟩, heq⟩
          exact ⟨b', hb', (hkeyTail b' hb' a ha).symm.trans heq⟩
        · rintro ⟨b', hb', heq⟩
          obtain ⟨a, ha⟩ := List.exists_mem_of_ne_nil _ (hneTail b' hb')
          exact ⟨a, ⟨b', hb', ha⟩, (hkeyTail b' hb' a ha).trans heq⟩
      have hhead : (∀ a ∈ (bs.flatMap F).head?, key a = keyOf b) ↔
          ∀ b' ∈ bs.head?, keyOf b' = keyOf b := by
        cases bs with
        | nil => exact ⟨fun _ _ h => (nomatch h), fun _ _ h => (nomatch h)⟩
        | cons b' bs =>
            obtain ⟨a, as, hcons⟩ := List.exists_cons_of_ne_nil (hneTail b' List.mem_cons_self)
            have ha : key a = keyOf b' :=
              hkeyTail b' List.mem_cons_self a (hcons ▸ List.mem_cons_self)
            rw [List.flatMap_cons, hcons, List.cons_append]
            simp only [List.head?_cons, Option.mem_some_iff, forall_eq', ha]
      rw [List.flatMap_cons, together_run (hne b List.mem_cons_self) (hkey b List.mem_cons_self),
        together_cons, ih hneTail hkeyTail, hmem, hhead]

end Together

/-! ## Groups replaced one by one -/

section Runs

variable {key : α → κ} {ks : List κ} {F : κ → List α}

/-- The first occurrences in a list of runs. -/
theorem firsts_flatMap {keyOf : κ → κ} (hne : ∀ k ∈ ks, F k ≠ [])
    (hkey : ∀ k ∈ ks, ∀ a ∈ F k, key a = keyOf k) :
    firsts ((ks.flatMap F).map key) = firsts (ks.map keyOf) := by
  induction ks using List.reverseRecOn with
  | nil => rfl
  | append_singleton ks k ih =>
      have hprefix := ih (fun k' hk' => hne k' (List.mem_append_left _ hk'))
        fun k' hk' => hkey k' (List.mem_append_left _ hk')
      have hlast : k ∈ ks ++ [k] := List.mem_append_right _ (List.mem_singleton_self k)
      have hrun : ∀ k' ∈ (F k).map key, k' = keyOf k := by
        intro k' hk'
        obtain ⟨a, ha, rfl⟩ := List.mem_map.1 hk'
        exact hkey k hlast a ha
      have hnil : (F k).map key ≠ [] := fun h => hne k hlast (List.map_eq_nil_iff.1 h)
      rw [List.flatMap_append, List.flatMap_singleton, List.map_append, firsts_run hnil hrun,
        List.map_append, List.map_singleton, firsts_concat, firsts_concat, hprefix]

/-- The part of a key in a list of runs is its run. -/
theorem part_flatMap (hnodup : ks.Nodup) (hkey : ∀ k ∈ ks, ∀ a ∈ F k, key a = k) {k : κ}
    (hk : k ∈ ks) : part key (ks.flatMap F) k = F k := by
  induction ks with
  | nil => exact absurd hk List.not_mem_nil
  | cons k' ks ih =>
      obtain ⟨hnot, hnodup⟩ := List.nodup_cons.1 hnodup
      have htail : ∀ k ∈ ks, ∀ a ∈ F k, key a = k :=
        fun k hk => hkey k (List.mem_cons_of_mem k' hk)
      rw [List.flatMap_cons, part, List.filter_append]
      rcases List.mem_cons.1 hk with rfl | hk
      · have hall : (F k).filter (fun a => decide (key a = k)) = F k :=
          List.filter_eq_self.2 fun a ha => decide_eq_true (hkey k List.mem_cons_self a ha)
        have hnone : (ks.flatMap F).filter (fun a => decide (key a = k)) = [] := by
          apply List.filter_eq_nil_iff.2
          intro a ha heq
          obtain ⟨k', hk', ha⟩ := List.mem_flatMap.1 ha
          have hkk : k' = k := (htail k' hk' a ha).symm.trans (of_decide_eq_true heq)
          exact hnot (hkk ▸ hk')
        rw [hall, hnone, List.append_nil]
      · have hnone : (F k').filter (fun a => decide (key a = k)) = [] := by
          apply List.filter_eq_nil_iff.2
          intro a ha heq
          have hkk : k' = k :=
            (hkey k' List.mem_cons_self a ha).symm.trans (of_decide_eq_true heq)
          exact hnot (hkk ▸ hk)
        rw [hnone, List.nil_append]
        exact ih hnodup htail hk

end Runs

/-! ## What the keys of a sorted list say of each other -/

section Leads

variable {key : α → κ} {R : α → α → Prop} {l : List α} {ks : List κ}

/-- Some entry of the one key is in front of all entries of the other. -/
def Leads (key : α → κ) (R : α → α → Prop) (l : List α) (k k' : κ) : Prop :=
  ∃ a ∈ l, key a = k ∧ ∀ b ∈ l, key b = k' → R a b

/-- In a list that is in order, each key leads those that occur after it. -/
theorem pairwise_firsts (h : l.Pairwise R) : (firsts (l.map key)).Pairwise (Leads key R l) := by
  induction l with
  | nil => exact List.Pairwise.nil
  | cons a l ih =>
      have htail : ∀ {b : α} {k : κ}, b ∈ a :: l → key b = k → k ≠ key a → b ∈ l := by
        intro b k hb hk hne
        cases List.mem_cons.1 hb with
        | inl heq => exact absurd (heq ▸ hk).symm hne
        | inr hmem => exact hmem
      rw [List.map_cons, firsts_cons]
      apply List.pairwise_cons.2
      constructor
      · intro k hk
        have hne : k ≠ key a := of_decide_eq_true (List.mem_filter.1 hk).2
        refine ⟨a, List.mem_cons_self, rfl, ?_⟩
        intro b hb hbk
        exact List.rel_of_pairwise_cons h (htail hb hbk hne)
      · apply List.pairwise_filter.2
        apply (ih h.of_cons).imp
        intro k k' hleads _ hk'
        obtain ⟨x, hx, hkey, hfront⟩ := hleads
        refine ⟨x, List.mem_cons_of_mem a hx, hkey, ?_⟩
        intro b hb hbk
        exact hfront b (htail hb hbk (of_decide_eq_true hk')) hbk

/-- There is one list of the keys in which each leads those after it. -/
theorem firsts_eq_of_leads (h : l.Pairwise R)
    (hasymm : ∀ a ∈ l, ∀ b ∈ l, R a b → ¬R b a) (hnodup : ks.Nodup)
    (hmem : ∀ k, k ∈ ks ↔ k ∈ l.map key) (hleads : ks.Pairwise (Leads key R l)) :
    firsts (l.map key) = ks := by
  have hperm : (firsts (l.map key)).Perm ks := by
    apply (List.perm_ext_iff_of_nodup (nodup_firsts _) hnodup).2
    intro k
    exact mem_firsts.trans (hmem k).symm
  apply List.Perm.eq_of_pairwise _ (pairwise_firsts h) hleads hperm
  intro k k' _ _ hfront hback
  obtain ⟨a, ha, hak, hfront⟩ := hfront
  obtain ⟨b, hb, hbk, hback⟩ := hback
  exact absurd (hback a ha hak) (hasymm a ha b hb (hfront b hb hbk))

/-- The parts of all keys are the list in another order. -/
theorem perm_flatMap_part (hnodup : ks.Nodup) :
    (∀ a ∈ l, key a ∈ ks) → (ks.flatMap (part key l)).Perm l := by
  induction ks generalizing l with
  | nil =>
      intro hmem
      have hnil : l = [] := List.eq_nil_iff_forall_not_mem.2 fun a ha => List.not_mem_nil (hmem a ha)
      rw [hnil]
      exact List.Perm.nil
  | cons k ks ih =>
      intro hmem
      obtain ⟨hnot, hnodup⟩ := List.nodup_cons.1 hnodup
      -- the other keys have their parts of what is not of this one
      have hothers : ks.flatMap (part key l) =
          ks.flatMap (part key (l.filter fun a => !decide (key a = k))) := by
        apply List.flatMap_congr
        intro k' hk'
        unfold part
        rw [List.filter_filter]
        apply List.filter_congr
        intro a _
        by_cases heq : key a = k'
        · have hne : key a ≠ k := by
            intro h
            exact hnot (h ▸ heq ▸ hk')
          simp [heq, heq ▸ hne]
        · simp [heq]
      have hrest := ih (l := l.filter fun a => !decide (key a = k)) hnodup (by
        intro a ha
        obtain ⟨ha, hne⟩ := List.mem_filter.1 ha
        cases List.mem_cons.1 (hmem a ha) with
        | inl heq => simp [heq] at hne
        | inr h => exact h)
      rw [List.flatMap_cons, hothers]
      exact (hrest.append_left _).trans (List.filter_append_perm _ l)

omit [DecidableEq κ] in
/-- In a list of runs, all entries of a key are in front of those of the keys after it. -/
theorem pairwise_of_runs {S : β → β → Prop} {f : β → α} {F : κ → List α} {m : List β}
    (hnodup : ks.Nodup) (hkey : ∀ k ∈ ks, ∀ a ∈ F k, key a = k) :
    m.Pairwise S → m.map f = ks.flatMap F →
      ks.Pairwise fun k k' => ∀ a ∈ m, ∀ b ∈ m, key (f a) = k → key (f b) = k' → S a b := by
  induction ks generalizing m with
  | nil =>
      intro _ _
      exact List.Pairwise.nil
  | cons k ks ih =>
      intro horder hmap
      rw [List.flatMap_cons] at hmap
      obtain ⟨hnot, hnodup⟩ := List.nodup_cons.1 hnodup
      have hrest : ∀ k' ∈ ks, ∀ a ∈ F k', key a = k' :=
        fun k' hk' => hkey k' (List.mem_cons_of_mem k hk')
      obtain ⟨run, others, rfl, hrun, hothers⟩ := List.map_eq_append_iff.1 hmap
      obtain ⟨-, hlater, hacross⟩ := List.pairwise_append.1 horder
      have hfront : ∀ a ∈ run, key (f a) = k := fun a ha =>
        hkey k List.mem_cons_self _ (hrun ▸ List.mem_map_of_mem ha)
      have hback : ∀ a ∈ others, key (f a) ∈ ks := by
        intro a ha
        have hmem : f a ∈ ks.flatMap F := hothers ▸ List.mem_map_of_mem ha
        obtain ⟨k', hk', ha⟩ := List.mem_flatMap.1 hmem
        rw [hrest k' hk' (f a) ha]
        exact hk'
      have hside : ∀ a ∈ run ++ others, key (f a) ∈ ks → a ∈ others := by
        intro a ha hks
        cases List.mem_append.1 ha with
        | inl h => exact absurd (hfront a h ▸ hks) hnot
        | inr h => exact h
      apply List.pairwise_cons.2
      constructor
      · intro k' hk' a ha b hb hak hbk
        have hb := hside b hb (hbk ▸ hk')
        cases List.mem_append.1 ha with
        | inl h => exact hacross a h b hb
        | inr h => exact absurd (hak ▸ hback a h) hnot
      · apply (ih hnodup hrest hlater hothers).imp_of_mem
        intro k₁ k₂ hk₁ hk₂ h a ha b hb hak hbk
        exact h a (hside a ha (hak ▸ hk₁)) b (hside b hb (hbk ▸ hk₂)) hak hbk

end Leads

omit [DecidableEq κ] in
/-- Where a sum is no less although no term is greater, the terms are equal. -/
theorem eq_of_sum_le {f g : κ → ℕ} {ks : List κ} (hle : ∀ k ∈ ks, f k ≤ g k)
    (hsum : (ks.map g).sum ≤ (ks.map f).sum) {k : κ} (hk : k ∈ ks) : f k = g k := by
  induction ks with
  | nil => exact absurd hk List.not_mem_nil
  | cons k' ks ih =>
      have htail : ∀ k ∈ ks, f k ≤ g k := fun k hk => hle k (List.mem_cons_of_mem k' hk)
      have hhead : f k' ≤ g k' := hle k' List.mem_cons_self
      have hrest : (ks.map f).sum ≤ (ks.map g).sum := List.sum_le_sum htail
      simp only [List.map_cons, List.sum_cons] at hsum
      rcases List.mem_cons.1 hk with rfl | hk
      · omega
      · exact ih htail (by omega) hk

variable {key : α → κ}

/-- Taken apart, changed group by group and put together, the list is what it was exactly if every
group is, and the entries of each key stand together. -/
theorem regroup_iff {F : κ → List α → List α} {keyOf : κ → κ}
    (hlen : ∀ k g, (F k g).length ≤ g.length) (hkey : ∀ k g, ∀ a ∈ F k g, key a = keyOf k)
    (l : List α) :
    ((groups key l).flatMap fun g => F g.1 g.2) = l ↔
      (∀ k ∈ l.map key, F k (part key l k) = part key l k) ∧ Together key l := by
  have hjoin : ((groups key l).flatMap fun g => F g.1 g.2) =
      (firsts (l.map key)).flatMap fun k => F k (part key l k) := by
    rw [groups_eq, List.flatMap_map]
  rw [hjoin]
  constructor
  · intro heq
    have hsame : ∀ k ∈ firsts (l.map key), (F k (part key l k)).length = (part key l k).length := by
      intro k hk
      refine eq_of_sum_le (fun k _ => hlen k (part key l k)) ?_ hk
      apply Nat.le_of_eq
      calc ((firsts (l.map key)).map fun k => (part key l k).length).sum
          = l.length := sum_length_part l
        _ = ((firsts (l.map key)).flatMap fun k => F k (part key l k)).length := by rw [heq]
        _ = _ := List.length_flatMap
    have hne : ∀ k ∈ firsts (l.map key), F k (part key l k) ≠ [] := by
      intro k hk hnil
      obtain ⟨a, ha, rfl⟩ := List.mem_map.1 (mem_firsts.1 hk)
      have hpos : 0 < (part key l (key a)).length :=
        List.length_pos_of_mem (mem_part.2 ⟨ha, rfl⟩)
      rw [← hsame _ hk, hnil] at hpos
      exact Nat.lt_irrefl 0 hpos
    -- the keys come in the same order on both sides, so each group keeps its own
    have hfirsts : firsts (l.map key) = firsts ((firsts (l.map key)).map keyOf) :=
      calc firsts (l.map key)
          = firsts (((firsts (l.map key)).flatMap fun k => F k (part key l k)).map key) := by
            rw [heq]
        _ = firsts ((firsts (l.map key)).map keyOf) :=
            firsts_flatMap hne fun k _ => hkey k (part key l k)
    have hmap : (firsts (l.map key)).map keyOf = firsts (l.map key) := by
      have hself : firsts ((firsts (l.map key)).map keyOf) = (firsts (l.map key)).map keyOf := by
        apply firsts_eq_self
        rw [← hfirsts, List.length_map]
      rw [← hself, ← hfirsts]
    have hkept : ∀ k ∈ firsts (l.map key), keyOf k = k :=
      List.map_inj_left.1 (hmap.trans (List.map_id _).symm)
    have hpart : ∀ k ∈ firsts (l.map key), F k (part key l k) = part key l k := by
      intro k hk
      have hrun : ∀ k ∈ firsts (l.map key), ∀ a ∈ F k (part key l k), key a = k :=
        fun k hk a ha => (hkey k (part key l k) a ha).trans (hkept k hk)
      calc F k (part key l k)
          = part key ((firsts (l.map key)).flatMap fun k => F k (part key l k)) k :=
            (part_flatMap (F := fun k => F k (part key l k)) (nodup_firsts _) hrun hk).symm
        _ = part key l k := by rw [heq]
    refine ⟨fun k hk => hpart k (mem_firsts.2 hk), ?_⟩
    calc (firsts (l.map key)).flatMap (part key l)
        = (firsts (l.map key)).flatMap fun k => F k (part key l k) :=
          List.flatMap_congr fun k hk => (hpart k hk).symm
      _ = l := heq
  · rintro ⟨hpart, htogether⟩
    calc ((firsts (l.map key)).flatMap fun k => F k (part key l k))
        = (firsts (l.map key)).flatMap (part key l) :=
          List.flatMap_congr fun k hk => hpart k (mem_firsts.1 hk)
      _ = l := htogether

end Lib
end Bookit
