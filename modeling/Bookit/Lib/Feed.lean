import Mathlib.Data.List.Basic
import Mathlib.Order.Basic
import Mathlib.Order.Lattice

/-!
# Feed — a log that one consumer applies to a view

The rows of a log carry a stamp, the key that they are about and the content that the view is to
have there.  A consumer applies the rows in the order of their stamps and keeps the last stamp
that it has acknowledged.  A key is *settled* when the row of it that will be applied last, or the
view where no row of it is left, is right.
-/

namespace Bookit
namespace Lib
namespace Feed

variable {ρ κ ν σ : Type} [LinearOrder σ] (stamp : ρ → σ) (key : ρ → κ) (content : ρ → ν)

/-- A row of key `k` that is still to be applied. -/
structure Pending (rows : List ρ) (last : σ) (k : κ) (r : ρ) : Prop where
  mem : r ∈ rows
  above : last < stamp r
  about : key r = k

/-- The last row of the key that is still to be applied is right; or none is, and the view is. -/
def Settled (rows : List ρ) (last : σ) (view : κ → ν) (right : ν → Prop) (k : κ) : Prop :=
  (∃ r, Pending stamp key rows last k r ∧
      (∀ r', Pending stamp key rows last k r' → stamp r' ≤ stamp r) ∧ right (content r)) ∨
    ((∀ r, ¬Pending stamp key rows last k r) ∧ right (view k))

variable {stamp key content} {rows : List ρ} {last : σ} {view : κ → ν} {right : ν → Prop} {k : κ}

theorem pending_append {d r : ρ} :
    Pending stamp key (rows ++ [d]) last k r ↔
      Pending stamp key rows last k r ∨ (r = d ∧ last < stamp d ∧ key d = k) := by
  constructor
  · intro h
    rcases List.mem_append.1 h.mem with hr | hr
    · exact .inl ⟨hr, h.above, h.about⟩
    · obtain rfl := List.mem_singleton.1 hr
      exact .inr ⟨rfl, h.above, h.about⟩
  · intro h
    rcases h with h | ⟨rfl, habove, habout⟩
    · exact ⟨List.mem_append_left _ h.mem, h.above, h.about⟩
    · exact ⟨List.mem_append_right _ (List.mem_singleton_self r), habove, habout⟩

/-- Where nothing is left to apply, the view of a settled key is right. -/
theorem Settled.drained (h : Settled stamp key content rows last view right k)
    (hrows : ∀ r ∈ rows, stamp r ≤ last) : right (view k) := by
  rcases h with ⟨r, hr, -⟩ | ⟨-, h⟩
  · exact absurd hr.above (not_lt_of_ge (hrows r hr.mem))
  · exact h

theorem Settled.imp {right' : ν → Prop} (h : Settled stamp key content rows last view right k)
    (hright : ∀ v, right v → right' v) : Settled stamp key content rows last view right' k := by
  rcases h with ⟨r, hr, hmax, h⟩ | ⟨hnone, h⟩
  · exact .inl ⟨r, hr, hmax, hright _ h⟩
  · exact .inr ⟨hnone, hright _ h⟩

/-! ## Filing -/

/-- A right row above every row that is still to be applied. -/
theorem settled_append_top {d : ρ} (habove : last < stamp d) (habout : key d = k)
    (htop : ∀ r ∈ rows, stamp r ≤ stamp d) (h : right (content d)) :
    Settled stamp key content (rows ++ [d]) last view right k := by
  refine .inl ⟨d, pending_append.2 (.inr ⟨rfl, habove, habout⟩), fun r hr => ?_, h⟩
  rcases pending_append.1 hr with hr | ⟨rfl, -⟩
  · exact htop r hr.mem
  · exact le_rfl

/-- A right row anywhere among the rows that are still to be applied. -/
theorem Settled.append {d : ρ} (h : Settled stamp key content rows last view right k)
    (habove : last < stamp d) (hd : key d = k → right (content d)) :
    Settled stamp key content (rows ++ [d]) last view right k := by
  by_cases habout : key d = k
  · rcases h with ⟨r, hr, hmax, hright⟩ | ⟨hnone, -⟩
    · rcases le_total (stamp d) (stamp r) with hle | hle
      · refine .inl ⟨r, pending_append.2 (.inl hr), fun r' hr' => ?_, hright⟩
        rcases pending_append.1 hr' with hr' | ⟨rfl, -⟩
        · exact hmax r' hr'
        · exact hle
      · refine .inl ⟨d, pending_append.2 (.inr ⟨rfl, habove, habout⟩), fun r' hr' => ?_, hd habout⟩
        rcases pending_append.1 hr' with hr' | ⟨rfl, -⟩
        · exact (hmax r' hr').trans hle
        · exact le_rfl
    · refine .inl ⟨d, pending_append.2 (.inr ⟨rfl, habove, habout⟩), fun r' hr' => ?_, hd habout⟩
      rcases pending_append.1 hr' with hr' | ⟨rfl, -⟩
      · exact absurd hr' (hnone r')
      · exact le_rfl
  · have hiff : ∀ r, Pending stamp key (rows ++ [d]) last k r ↔ Pending stamp key rows last k r := by
      intro r
      rw [pending_append]
      exact or_iff_left fun h => habout h.2.2
    rcases h with ⟨r, hr, hmax, hright⟩ | ⟨hnone, hright⟩
    · exact .inl ⟨r, (hiff r).2 hr, fun r' hr' => hmax r' ((hiff r').1 hr'), hright⟩
    · exact .inr ⟨fun r hr => hnone r ((hiff r).1 hr), hright⟩

/-! ## Applying -/

/-- The view may change at a key of which a row is still to be applied. -/
theorem Settled.apply {view' : κ → ν} {d : ρ} (h : Settled stamp key content rows last view right k)
    (hd : d ∈ rows) (habove : last < stamp d) (hview : key d ≠ k → view' k = view k) :
    Settled stamp key content rows last view' right k := by
  rcases h with h | ⟨hnone, hright⟩
  · exact .inl h
  · have hne : key d ≠ k := fun habout => hnone d ⟨hd, habove, habout⟩
    refine .inr ⟨hnone, ?_⟩
    rw [hview hne]
    exact hright

/-- A row that has been applied, and below which none is left, is acknowledged. -/
theorem Settled.acknowledge {d : ρ} (h : Settled stamp key content rows last view right k)
    (hd : d ∈ rows) (habove : last < stamp d)
    (hleast : ∀ r ∈ rows, last < stamp r → stamp d ≤ stamp r)
    (hinj : ∀ r ∈ rows, stamp r = stamp d → r = d) (hview : key d = k → view k = content d) :
    Settled stamp key content rows (stamp d) view right k := by
  rcases h with ⟨r, hr, hmax, hright⟩ | ⟨hnone, hright⟩
  · rcases (hleast r hr.mem hr.above).eq_or_lt with heq | hlt
    · -- the row acknowledged was the last one of its key
      obtain rfl := hinj r hr.mem heq.symm
      refine .inr ⟨fun r' hr' => ?_, ?_⟩
      · exact absurd (hmax r' ⟨hr'.mem, habove.trans hr'.above, hr'.about⟩) (not_le_of_gt hr'.above)
      · rw [hview hr.about]
        exact hright
    · refine .inl ⟨r, ⟨hr.mem, hlt, hr.about⟩, fun r' hr' => ?_, hright⟩
      exact hmax r' ⟨hr'.mem, habove.trans hr'.above, hr'.about⟩
  · exact .inr ⟨fun r hr => hnone r ⟨hr.mem, habove.trans hr.above, hr.about⟩, hright⟩

/-- Rows that have been acknowledged may go. -/
theorem Settled.expire {rows' : List ρ} (h : Settled stamp key content rows last view right k)
    (hsub : ∀ r ∈ rows', r ∈ rows) (hkeep : ∀ r ∈ rows, last < stamp r → r ∈ rows') :
    Settled stamp key content rows' last view right k := by
  have hiff : ∀ r, Pending stamp key rows' last k r ↔ Pending stamp key rows last k r := by
    intro r
    constructor
    · intro hr
      exact ⟨hsub r hr.mem, hr.above, hr.about⟩
    · intro hr
      exact ⟨hkeep r hr.mem hr.above, hr.above, hr.about⟩
  rcases h with ⟨r, hr, hmax, hright⟩ | ⟨hnone, hright⟩
  · exact .inl ⟨r, (hiff r).2 hr, fun r' hr' => hmax r' ((hiff r').1 hr'), hright⟩
  · exact .inr ⟨fun r hr => hnone r ((hiff r).1 hr), hright⟩

end Feed
end Lib
end Bookit
