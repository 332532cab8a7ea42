import Mathlib.Data.List.Nodup
import Mathlib.Data.List.Range
import Mathlib.Order.Basic
import Mathlib.Order.Lattice

/-!
# OrderedLog — logs that copy a source position by position

The entries of an ordered log carry the positions `0, 1, 2, …` of a source, in that order and without
gaps, and stamps that increase along the log.  An entry may be appended exactly when it carries the
next position and a stamp above all stamps of the log.
-/

namespace Bookit
namespace Lib

variable {α β : Type} [LinearOrder β]

/-- Entry `i` of `log` has position `i`, and stamps increase. -/
structure OrderedLog (pos : α → ℕ) (stamp : α → β) (log : List α) : Prop where
  positions : log.map pos = List.range log.length
  stamps : log.Pairwise fun d e => stamp d < stamp e

namespace OrderedLog

variable {pos : α → ℕ} {stamp : α → β} {log : List α}

theorem nil : OrderedLog pos stamp ([] : List α) :=
  ⟨rfl, List.Pairwise.nil⟩

theorem append (h : OrderedLog pos stamp log) {d : α} (hpos : pos d = log.length)
    (hstamp : ∀ e ∈ log, stamp e < stamp d) : OrderedLog pos stamp (log ++ [d]) := by
  constructor
  · simp [h.positions, hpos, List.range_succ]
  · refine List.pairwise_append.2 ⟨h.stamps, List.pairwise_singleton _ _, ?_⟩
    intro e he d' hd'
    rw [List.mem_singleton.1 hd']
    exact hstamp e he

/-- A position is logged exactly when it lies below the length of the log. -/
theorem exists_pos_iff (h : OrderedLog pos stamp log) {i : ℕ} :
    (∃ d ∈ log, pos d = i) ↔ i < log.length := by
  rw [← List.mem_range, ← h.positions, List.mem_map]

theorem nodup (h : OrderedLog pos stamp log) : (log.map pos).Nodup := by
  rw [h.positions]
  exact List.nodup_range

theorem pos_of_getElem? (h : OrderedLog pos stamp log) {i : ℕ} {d : α} (hd : log[i]? = some d) :
    pos d = i := by
  have hi : (log.map pos)[i]? = some (pos d) := by rw [List.getElem?_map, hd]; rfl
  rw [h.positions] at hi
  have hlt : i < log.length := (List.getElem?_eq_some_iff.1 hd).1
  rw [List.getElem?_range hlt] at hi
  exact (Option.some.inj hi).symm

/-- Along the log, stamps are ordered as positions are. -/
theorem stamp_lt_iff (h : OrderedLog pos stamp log) {d e : α} (hd : d ∈ log) (he : e ∈ log) :
    stamp d < stamp e ↔ pos d < pos e := by
  obtain ⟨i, hi⟩ := List.mem_iff_getElem?.1 hd
  obtain ⟨j, hj⟩ := List.mem_iff_getElem?.1 he
  rw [h.pos_of_getElem? hi, h.pos_of_getElem? hj]
  have hlt : ∀ {k l : ℕ} {x y : α}, log[k]? = some x → log[l]? = some y → k < l →
      stamp x < stamp y := by
    intro k l x y hk hl hkl
    obtain ⟨hk', rfl⟩ := List.getElem?_eq_some_iff.1 hk
    obtain ⟨hl', rfl⟩ := List.getElem?_eq_some_iff.1 hl
    exact List.pairwise_iff_getElem.1 h.stamps k l hk' hl' hkl
  constructor
  · intro hs
    rcases Nat.lt_trichotomy i j with hij | rfl | hij
    · exact hij
    · rw [hi] at hj
      cases hj
      exact absurd hs (lt_irrefl _)
    · exact absurd (hlt hj hi hij) (lt_asymm hs)
  · exact hlt hi hj

/-- Below a logged position there is no gap. -/
theorem exists_pos_of_lt (h : OrderedLog pos stamp log) {d : α} (hd : d ∈ log) {i : ℕ}
    (hi : i < pos d) : ∃ e ∈ log, pos e = i :=
  h.exists_pos_iff.2 (lt_trans hi (h.exists_pos_iff.1 ⟨d, hd, rfl⟩))

/-- What is appended to an ordered log later has a later stamp. -/
theorem stamp_lt_of_prefix {log' : List α} (h' : OrderedLog pos stamp log') (hp : log <+: log')
    {d e : α} (hd : d ∈ log) (he : e ∈ log') (hne : e ∉ log) : stamp d < stamp e := by
  obtain ⟨new, rfl⟩ := hp
  rcases List.mem_append.1 he with h | h
  · exact absurd h hne
  · exact (List.pairwise_append.1 h'.stamps).2.2 d hd e h

end OrderedLog

end Lib
end Bookit
