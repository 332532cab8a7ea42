import Bookit.Web.DesignerNames
import Mathlib.Data.Prod.Lex

/-!
# Web.DesignerRoundTrip — which seats are the same when they are saved again

A restored block is a grid: rows of consecutive letters, columns of consecutive rests, both from the
places of its group, and all seats of one category in one thousand of each position.  A group of seats
is reproduced exactly if it is read off such a grid, row by row (`OneGrid`), and a layout exactly if
its groups are, their seats stand together, and their names are readable.
-/

namespace Bookit
namespace SeatDesigner

open Lib

/-! ## Positions -/

theorem offset_eq (v : ℤ) : offset v = v % 1000 := by
  have hrest := Int.tmod_eq_emod (a := v) (b := 1000)
  have hpos := Int.emod_nonneg v (by decide : (1000 : ℤ) ≠ 0)
  have hlt := Int.emod_lt_of_pos v (by decide : (0 : ℤ) < 1000)
  unfold offset
  dsimp only
  split_ifs at hrest ⊢ with hneg hsign hsign
  · omega
  · omega
  · omega
  · omega

namespace Seat

theorem col_eq (s : Seat) : s.col = s.x % 1000 := offset_eq s.x

theorem blockX_eq (s : Seat) : s.blockX = s.x / 1000 := by
  rw [blockX, offset_eq]
  omega

theorem blockY_eq (s : Seat) : s.blockY = s.y / 1000 := by
  rw [blockY, offset_eq]
  omega

/-- The first unit of the row letter. -/
def code (s : Seat) : ℕ := s.rowLetter.headD 0

end Seat

/-! ## The rows of a restored block -/

section Rows

variable {g : List Seat}

/-- The row letters of a group, sorted. -/
def letters (g : List Seat) : List Text :=
  (g.map (·.rowLetter)).dedup.insertionSort (· ≤ ·)

theorem mem_letters {letter : Text} : letter ∈ letters g ↔ ∃ s ∈ g, s.rowLetter = letter := by
  simp [letters]

theorem sorted_letters (g : List Seat) : (letters g).Pairwise (· ≤ ·) :=
  List.pairwise_insertionSort _ _

/-- The code at which the rows start. -/
def firstCode (g : List Seat) : ℕ :=
  (orA (letters g).head?).headD 0

/-- The code at which the rows end, if it is not in front of the start. -/
def lastCode (g : List Seat) : ℕ :=
  (orA (letters g).getLast?).headD 0

def rowCount (g : List Seat) : ℕ :=
  max (firstCode g) (lastCode g) - firstCode g + 1

theorem orA_ne_nil (letter : Option Text) : orA letter ≠ [] := by
  cases letter with
  | none => decide
  | some letter =>
      show (if letter = [] then text "A" else letter) ≠ []
      split_ifs with hnil
      · decide
      · exact hnil

/-- Of two strings in order, the first unit of the first is no greater. -/
theorem head_le_of_le {a e : ℕ} {t u : Text} (h : a :: t ≤ e :: u) : a ≤ e := by
  by_contra hlt
  exact absurd (List.cons_lt_cons_iff.2 (.inl (Nat.lt_of_not_le hlt))) (not_lt.2 h)

/-- The letters of a range of codes. -/
def codes (g : List Seat) : List Text :=
  (List.range (rowCount g)).map fun r => [firstCode g + r]

theorem allRowLetters_eq (g : List Seat) :
    allRowLetters (orA (letters g).head?) (orA (letters g).getLast?) = codes g := by
  obtain ⟨a, t, ha⟩ := List.exists_cons_of_ne_nil (orA_ne_nil (letters g).head?)
  obtain ⟨e, u, he⟩ := List.exists_cons_of_ne_nil (orA_ne_nil (letters g).getLast?)
  have hfirst : firstCode g = a := by rw [firstCode, ha]; rfl
  have hlast : lastCode g = e := by rw [lastCode, he]; rfl
  rw [codes, rowCount, hfirst, hlast, ha, he]
  show (List.range' a (max a e - a + 1)).map (fun code => [code]) = _
  rw [List.range'_eq_map_range, List.map_map]
  rfl

/-- No letter is behind the last. -/
theorem le_getLast {letter last : Text} (hmem : letter ∈ letters g)
    (hlast : (letters g).getLast? = some last) : letter ≤ last := by
  have hsorted := sorted_letters g
  obtain ⟨init, hconcat⟩ := List.getLast?_eq_some_iff.1 hlast
  rw [hconcat] at hsorted hmem
  rcases List.mem_append.1 hmem with hmem | hmem
  · exact (List.pairwise_append.1 hsorted).2.2 letter hmem last (List.mem_singleton_self last)
  · exact le_of_eq (List.mem_singleton.1 hmem)

/-- A letter of one unit is within the last one's. -/
theorem code_le_lastCode {u : ℕ} (hmem : [u] ∈ letters g) : u ≤ lastCode g := by
  cases hlast : (letters g).getLast? with
  | none =>
      rw [List.getLast?_eq_none_iff.1 hlast] at hmem
      exact absurd hmem List.not_mem_nil
  | some last =>
      have horder := le_getLast hmem hlast
      cases last with
      | nil => exact absurd (List.nil_lt_cons u []) (not_lt.2 horder)
      | cons e t =>
          rw [lastCode, hlast]
          exact head_le_of_le horder

/-- Only the default letter can come behind the last one. -/
theorem default_of_not_le {a e : ℕ} {t u : Text} (ha : orA (letters g).head? = a :: t)
    (he : orA (letters g).getLast? = e :: u) (hle : ¬ a ≤ e) : a :: t = [a] := by
  have hdefault : orA (letters g).head? = [65] → a :: t = [a] := by
    intro h
    rw [ha] at h
    rw [(List.cons.inj h).2]
  cases hhead : (letters g).head? with
  | none => exact hdefault (by rw [hhead]; rfl)
  | some letter =>
      by_cases hnil : letter = []
      · exact hdefault (by rw [hhead, hnil]; rfl)
      · exfalso
        have hletter : letter = a :: t := by
          rw [hhead] at ha
          rwa [orA, if_neg hnil] at ha
        cases hlast : (letters g).getLast? with
        | none =>
            rw [List.getLast?_eq_none_iff.1 hlast] at hhead
            cases hhead
        | some last =>
            have horder := le_getLast (List.mem_of_head? hhead) hlast
            rw [hletter] at horder
            have hne : last ≠ [] := by
              rintro rfl
              exact absurd (List.nil_lt_cons a t) (not_lt.2 horder)
            rw [hlast, orA, if_neg hne] at he
            rw [he] at horder
            exact hle (head_le_of_le horder)

/-- Saving expands the same rows. -/
theorem rows_eq (g : List Seat) :
    rows (orA (letters g).head?) (orA (letters g).getLast?) = codes g := by
  rw [← allRowLetters_eq]
  obtain ⟨a, t, ha⟩ := List.exists_cons_of_ne_nil (orA_ne_nil (letters g).head?)
  obtain ⟨e, u, he⟩ := List.exists_cons_of_ne_nil (orA_ne_nil (letters g).getLast?)
  rw [ha, he]
  show (if a ≤ e then _ else [a :: t]) = (List.range' a (max a e - a + 1)).map fun code => [code]
  split_ifs with hle
  · rw [Nat.max_eq_right hle]
  · -- only the default letter is behind the last one
    rw [Nat.max_eq_left (Nat.le_of_not_le hle), Nat.sub_self]
    rw [default_of_not_le ha he hle]
    rfl

end Rows

/-! ## The seats of a restored block -/

section Cells

variable {g : List Seat}

def firstCol (g : List Seat) : ℤ :=
  (g.map Seat.col).min?.getD 1

def lastCol (g : List Seat) : ℤ :=
  (g.map Seat.col).max?.getD 1

theorem mem_columns {colStart colEnd c : ℤ} :
    c ∈ columns colStart colEnd ↔ colStart ≤ c ∧ c ≤ colEnd := by
  unfold columns
  simp only [List.mem_map, List.mem_range]
  constructor
  · rintro ⟨n, hn, rfl⟩
    omega
  · rintro ⟨hfirst, hlast⟩
    exact ⟨(c - colStart).toNat, by omega, by omega⟩

/-- A seat of the group has the row and the column. -/
def present (g : List Seat) (r : ℕ) (c : ℤ) : Bool :=
  g.any fun s => decide (s.rowLetter = [firstCode g + r] ∧ s.col = c)

theorem present_iff {r : ℕ} {c : ℤ} :
    present g r c = true ↔ ∃ s ∈ g, s.rowLetter = [firstCode g + r] ∧ s.col = c := by
  simp [present]

/-- The rows and columns of the seats, row by row. -/
def cells (g : List Seat) : List (ℕ × ℤ) :=
  (List.range (rowCount g)).flatMap fun r =>
    ((columns (firstCol g) (lastCol g)).filter (present g r)).map fun c => (r, c)

/-- The seat that a cell is saved as. -/
def seatAt (shape : LayoutShape) (bn : Text) (g : List Seat) (cell : ℕ × ℤ) : Seat where
  rowLetter := [firstCode g + cell.1]
  seatClass := (g.head?.map (·.seatClass)).getD .standard
  xPos := some ((g.getLast?.map Seat.blockX).getD 100 * 1000 + cell.2)
  yPos := some ((g.getLast?.map Seat.blockY).getD 100 * 1000 + cell.1)
  blockName := some (fullBlockName shape (readLabels shape bn))

theorem zipIdx_codes (g : List Seat) :
    (codes g).zipIdx = (List.range (rowCount g)).map fun r => ([firstCode g + r], r) := by
  apply List.ext_getElem
  · simp [codes]
  · intro n h₁ h₂
    simp [codes]

theorem blockSeats_restoreBlock (shape : LayoutShape) (bn : Text) (g : List Seat) :
    blockSeats shape (restoreBlock shape bn g) = (cells g).map (seatAt shape bn g) := by
  have henabled : ∀ r < rowCount g, ∀ c ∈ columns (firstCol g) (lastCol g),
      ((r, c - firstCol g) ∉ (restoreBlock shape bn g).disabledSeats) ↔ present g r c = true := by
    intro r hr c hc
    show (r, c - firstCol g) ∉ (allRowLetters (orA (letters g).head?)
      (orA (letters g).getLast?)).zipIdx.flatMap _ ↔ _
    rw [allRowLetters_eq, zipIdx_codes, List.flatMap_map]
    constructor
    · intro hnot
      by_contra habsent
      apply hnot
      apply List.mem_flatMap.2
      refine ⟨r, List.mem_range.2 hr, List.mem_map.2 ⟨c, List.mem_filter.2 ⟨hc, ?_⟩, rfl⟩⟩
      show (!present g r c) = true
      rw [Bool.eq_false_iff.2 habsent]
      rfl
    · intro hpresent hmem
      obtain ⟨r', -, hmem⟩ := List.mem_flatMap.1 hmem
      obtain ⟨c', hmem, heq⟩ := List.mem_map.1 hmem
      have habsent : (!present g r' c') = true := (List.mem_filter.1 hmem).2
      obtain ⟨hr', hc'⟩ := Prod.mk.inj heq
      obtain rfl : r' = r := hr'
      obtain rfl : c' = c := by
        have hc' : c' - firstCol g = c - firstCol g := hc'
        omega
      rw [hpresent] at habsent
      cases habsent
  unfold blockSeats
  show (rows (orA (letters g).head?) (orA (letters g).getLast?)).zipIdx.flatMap _ = _
  rw [rows_eq, zipIdx_codes, List.flatMap_map, cells, List.map_flatMap]
  apply List.flatMap_congr
  intro r hr
  have hfilter : (columns (firstCol g) (lastCol g)).filter (fun c =>
      decide ((r, c - firstCol g) ∉ (restoreBlock shape bn g).disabledSeats)) =
        (columns (firstCol g) (lastCol g)).filter (present g r) := by
    apply List.filter_congr
    intro c hc
    rw [Bool.eq_iff_iff, decide_eq_true_iff]
    exact henabled r (List.mem_range.1 hr) c hc
  rw [List.map_map]
  exact congrArg (List.map _) hfilter

/-- One cell is in front of another: in an earlier row, or further left. -/
def Before (a b : ℕ × ℤ) : Prop :=
  a.1 < b.1 ∨ a.1 = b.1 ∧ a.2 < b.2

theorem pairwise_columns (colStart colEnd : ℤ) : (columns colStart colEnd).Pairwise (· < ·) := by
  apply List.pairwise_map.2
  apply List.pairwise_lt_range.imp
  intro a b hab
  omega

theorem pairwise_cells (g : List Seat) : (cells g).Pairwise Before := by
  apply List.pairwise_flatMap.2
  constructor
  · intro r _
    apply List.pairwise_map.2
    apply ((pairwise_columns _ _).filter _).imp
    intro c d hcd
    exact .inr ⟨rfl, hcd⟩
  · apply List.pairwise_lt_range.imp
    intro r r' hr a ha b hb
    obtain ⟨c, -, rfl⟩ := List.mem_map.1 ha
    obtain ⟨d, -, rfl⟩ := List.mem_map.1 hb
    exact .inl hr

theorem firstCol_le {s : Seat} (hs : s ∈ g) : firstCol g ≤ s.col ∧ s.col ≤ lastCol g := by
  have hmem : s.col ∈ g.map Seat.col := List.mem_map_of_mem hs
  constructor
  · rw [firstCol]
    cases hmin : (g.map Seat.col).min? with
    | none =>
        rw [List.min?_eq_none_iff.1 hmin] at hmem
        exact absurd hmem List.not_mem_nil
    | some c => exact (List.min?_eq_some_iff.1 hmin).2 _ hmem
  · rw [lastCol]
    cases hmax : (g.map Seat.col).max? with
    | none =>
        rw [List.max?_eq_none_iff.1 hmax] at hmem
        exact absurd hmem List.not_mem_nil
    | some c => exact (List.max?_eq_some_iff.1 hmax).2 _ hmem

/-- The cells are those of the seats whose letter is in the rows. -/
theorem mem_cells {cell : ℕ × ℤ} : cell ∈ cells g ↔
    ∃ s ∈ g, s.rowLetter = [firstCode g + cell.1] ∧ s.col = cell.2 := by
  obtain ⟨r, c⟩ := cell
  unfold cells
  simp only [List.mem_flatMap, List.mem_map, List.mem_filter, List.mem_range, Prod.mk.injEq,
    mem_columns]
  constructor
  · rintro ⟨r, -, c, ⟨-, hpresent⟩, rfl, rfl⟩
    exact present_iff.1 hpresent
  · rintro ⟨s, hs, hletter, hcol⟩
    refine ⟨r, ?_, c, ⟨hcol ▸ firstCol_le hs, present_iff.2 ⟨s, hs, hletter, hcol⟩⟩, rfl, rfl⟩
    -- the last letter is no smaller than the one of the seat
    have hlast := code_le_lastCode (mem_letters.2 ⟨s, hs, hletter⟩)
    unfold rowCount
    omega

/-- No group gets longer. -/
theorem length_restored (shape : LayoutShape) (bn : Text) (g : List Seat) :
    (blockSeats shape (restoreBlock shape bn g)).length ≤ g.length := by
  have hnodup : ((cells g).map fun cell => ([firstCode g + cell.1], cell.2)).Nodup := by
    apply List.pairwise_map.2
    apply (pairwise_cells g).imp
    rintro ⟨r, c⟩ ⟨r', c'⟩ hbefore heq
    simp only [Prod.mk.injEq, List.cons.injEq, and_true] at heq
    unfold Before at hbefore
    dsimp only at hbefore heq
    omega
  have hsub : ((cells g).map fun cell => ([firstCode g + cell.1], cell.2)) ⊆
      g.map fun s => (s.rowLetter, s.col) := by
    intro a ha
    obtain ⟨cell, hcell, rfl⟩ := List.mem_map.1 ha
    obtain ⟨s, hs, hletter, hcol⟩ := mem_cells.1 hcell
    exact List.mem_map.2 ⟨s, hs, by rw [hletter, hcol]⟩
  have hle := (List.subperm_of_subset hnodup hsub).length_le
  rw [blockSeats_restoreBlock, List.length_map]
  rwa [List.length_map, List.length_map] at hle

end Cells

/-! ## Groups that are reproduced -/

/-- The seats are read off one grid, row by row: the letters are single units, letter and column go
forward from seat to seat, the rows are counted from the letter of the first seat, and neither the
category nor the thousands of the positions change. -/
structure OneGrid (g : List Seat) : Prop where
  letter : ∀ s ∈ g, ∃ u, s.rowLetter = [u]
  ordered : g.Pairwise fun s t => Before (s.code, s.col) (t.code, t.col)
  category : ∀ s ∈ g, ∀ t ∈ g, s.seatClass = t.seatClass
  thousandX : ∀ s ∈ g, ∀ t ∈ g, s.x / 1000 = t.x / 1000
  thousandY : ∀ s ∈ g, ∀ t ∈ g, s.y / 1000 = t.y / 1000
  row : ∀ s ∈ g, ∀ first ∈ g.head?, s.y % 1000 = (s.code : ℤ) - first.code

/-- The seat has what every saved seat has. -/
def Placed (s : Seat) : Prop :=
  s.xPos = some s.x ∧ s.yPos = some s.y ∧ ∃ name, s.blockName = some name

section Reproduced

variable {g : List Seat} {first last : Seat}

theorem first_le (hordered : g.Pairwise fun s t => Before (s.code, s.col) (t.code, t.col))
    (hfirst : g.head? = some first) {s : Seat} (hs : s ∈ g) : first.code ≤ s.code := by
  obtain ⟨rest, rfl⟩ := List.head?_eq_some_iff.1 hfirst
  rcases List.mem_cons.1 hs with rfl | hs
  · exact Nat.le_refl _
  · rcases (List.pairwise_cons.1 hordered).1 s hs with hlt | ⟨heq, -⟩
    · exact Nat.le_of_lt hlt
    · exact Nat.le_of_eq heq

theorem le_last (hordered : g.Pairwise fun s t => Before (s.code, s.col) (t.code, t.col))
    (hlast : g.getLast? = some last) {s : Seat} (hs : s ∈ g) : s.code ≤ last.code := by
  obtain ⟨init, rfl⟩ := List.getLast?_eq_some_iff.1 hlast
  rcases List.mem_append.1 hs with hs | hs
  · rcases (List.pairwise_append.1 hordered).2.2 s hs last (List.mem_singleton_self last) with
      hlt | ⟨heq, -⟩
    · exact Nat.le_of_lt hlt
    · exact Nat.le_of_eq heq
  · rw [List.mem_singleton.1 hs]

/-- The rows start at the letter of the first seat. -/
theorem firstCode_eq (hletter : ∀ s ∈ g, ∃ u, s.rowLetter = [u])
    (hordered : g.Pairwise fun s t => Before (s.code, s.col) (t.code, t.col))
    (hfirst : g.head? = some first) : firstCode g = first.code := by
  have hmem : first ∈ g := List.mem_of_head? hfirst
  obtain ⟨v, hv⟩ := hletter first hmem
  have hfirstLetter : [v] ∈ letters g := mem_letters.2 ⟨first, hmem, hv⟩
  cases hhead : (letters g).head? with
  | none =>
      rw [List.head?_eq_none_iff.1 hhead] at hfirstLetter
      exact absurd hfirstLetter List.not_mem_nil
  | some letter =>
      obtain ⟨s, hs, rfl⟩ := mem_letters.1 (List.mem_of_head? hhead)
      obtain ⟨u, hu⟩ := hletter s hs
      have hcode : firstCode g = s.code := by
        rw [firstCode, hhead, hu, Seat.code, hu]
        rfl
      have hle : s.code ≤ first.code := by
        have horder : s.rowLetter ≤ [v] := by
          have hsorted := sorted_letters g
          obtain ⟨rest, hcons⟩ := List.head?_eq_some_iff.1 hhead
          rw [hcons] at hsorted hfirstLetter
          rcases List.mem_cons.1 hfirstLetter with heq | hrest
          · exact le_of_eq heq.symm
          · exact (List.pairwise_cons.1 hsorted).1 _ hrest
        rw [hu] at horder
        rw [Seat.code, Seat.code, hu, hv]
        exact head_le_of_le horder
      rw [hcode]
      exact Nat.le_antisymm hle (first_le hordered hfirst hs)

variable {shape : LayoutShape} {bn : Text}

/-- The letter and the rest of a position of a restored seat are those of its cell. -/
theorem seatAt_cell (shape : LayoutShape) (bn : Text) {cell : ℕ × ℤ} (hcell : cell ∈ cells g) :
    (seatAt shape bn g cell).code = firstCode g + cell.1 ∧
      (seatAt shape bn g cell).col = cell.2 := by
  refine ⟨rfl, ?_⟩
  obtain ⟨s, -, -, hcol⟩ := mem_cells.1 hcell
  rw [Seat.col_eq] at hcol ⊢
  show ((g.getLast?.map Seat.blockX).getD 100 * 1000 + cell.2) % 1000 = cell.2
  omega

/-- The seats of a restored block are read off a grid. -/
theorem oneGrid_of_restored (h : (cells g).map (seatAt shape bn g) = g) : OneGrid g := by
  have hcell : ∀ s ∈ g, ∃ cell ∈ cells g, seatAt shape bn g cell = s := by
    intro s hs
    rw [← h] at hs
    exact List.mem_map.1 hs
  have hletter : ∀ s ∈ g, ∃ u, s.rowLetter = [u] := by
    intro s hs
    obtain ⟨cell, -, rfl⟩ := hcell s hs
    exact ⟨_, rfl⟩
  have hordered : g.Pairwise fun s t => Before (s.code, s.col) (t.code, t.col) := by
    rw [← h]
    apply List.pairwise_map.2
    apply (pairwise_cells g).imp_of_mem
    intro a b ha hb hbefore
    obtain ⟨hcodeA, hcolA⟩ := seatAt_cell shape bn ha
    obtain ⟨hcodeB, hcolB⟩ := seatAt_cell shape bn hb
    unfold Before at hbefore ⊢
    dsimp only
    omega
  -- every seat in terms of its cell
  have hseat : ∀ s ∈ g, ∃ r : ℕ, s.code = firstCode g + r ∧
      s.seatClass = (g.head?.map (·.seatClass)).getD .standard ∧
      s.x = (g.getLast?.map Seat.blockX).getD 100 * 1000 + s.x % 1000 ∧
      s.y = (g.getLast?.map Seat.blockY).getD 100 * 1000 + r := by
    intro s hs
    obtain ⟨cell, hmem, rfl⟩ := hcell s hs
    obtain ⟨-, hcol⟩ := seatAt_cell shape bn hmem
    rw [Seat.col_eq] at hcol
    refine ⟨cell.1, rfl, rfl, ?_, rfl⟩
    rw [hcol]
    rfl
  -- no row is further down than the last, which is in the thousand of the block
  have hrow : ∀ s ∈ g, ∀ r : ℕ, s.code = firstCode g + r → (r : ℤ) < 1000 := by
    intro s hs r hr
    cases hlast : g.getLast? with
    | none =>
        rw [List.getLast?_eq_none_iff.1 hlast] at hs
        exact absurd hs List.not_mem_nil
    | some last =>
        obtain ⟨r', hr', -, -, hy⟩ := hseat last (List.mem_of_getLast? hlast)
        rw [hlast, Option.map_some, Option.getD_some, Seat.blockY_eq] at hy
        have hle := le_last hordered hlast hs
        omega
  constructor
  · exact hletter
  · exact hordered
  · intro s hs t ht
    obtain ⟨-, -, hs, -⟩ := hseat s hs
    obtain ⟨-, -, ht, -⟩ := hseat t ht
    exact hs.trans ht.symm
  · intro s hs t ht
    obtain ⟨-, -, -, hs, -⟩ := hseat s hs
    obtain ⟨-, -, -, ht, -⟩ := hseat t ht
    omega
  · intro s hs t ht
    obtain ⟨r, hr, -, -, hys⟩ := hseat s hs
    obtain ⟨r', hr', -, -, hyt⟩ := hseat t ht
    have hlt := hrow s hs r hr
    have hlt' := hrow t ht r' hr'
    omega
  · intro s hs first hfirst
    obtain ⟨r, hr, -, -, hy⟩ := hseat s hs
    have hlt := hrow s hs r hr
    have hcode := firstCode_eq hletter hordered hfirst
    omega

/-- Seats that are read off a grid are the cells of it. -/
theorem cells_eq (hgrid : OneGrid g) :
    cells g = g.map fun s => (s.code - firstCode g, s.col) := by
  have hfirst : ∀ s ∈ g, firstCode g ≤ s.code := by
    intro s hs
    cases hhead : g.head? with
    | none =>
        rw [List.head?_eq_none_iff.1 hhead] at hs
        exact absurd hs List.not_mem_nil
    | some first =>
        rw [firstCode_eq hgrid.letter hgrid.ordered hhead]
        exact first_le hgrid.ordered hhead hs
  have hsorted : (g.map fun s => (s.code - firstCode g, s.col)).Pairwise Before := by
    apply List.pairwise_map.2
    apply hgrid.ordered.imp_of_mem
    intro s t hs ht hbefore
    have hfirstS := hfirst s hs
    have hfirstT := hfirst t ht
    unfold Before at hbefore ⊢
    dsimp only at hbefore ⊢
    omega
  have hanti : Std.Antisymm Before := by
    constructor
    rintro ⟨r, c⟩ ⟨r', c'⟩ h h'
    unfold Before at h h'
    dsimp only at h h'
    omega
  have hirrefl : Std.Irrefl Before := by
    constructor
    rintro ⟨r, c⟩ h
    unfold Before at h
    dsimp only at h
    omega
  apply (pairwise_cells g).eq_of_mem_iff hsorted
  intro cell
  rw [mem_cells, List.mem_map]
  constructor
  · rintro ⟨s, hs, hletter, hcol⟩
    refine ⟨s, hs, Prod.ext ?_ hcol⟩
    rw [Seat.code, hletter]
    exact Nat.add_sub_cancel_left _ _
  · rintro ⟨s, hs, rfl⟩
    obtain ⟨u, hu⟩ := hgrid.letter s hs
    have hle := hfirst s hs
    refine ⟨s, hs, ?_, rfl⟩
    have hcode : s.code = u := by rw [Seat.code, hu]; rfl
    show s.rowLetter = [firstCode g + (s.code - firstCode g)]
    rw [Nat.add_sub_cancel' hle, hcode, hu]

/-- They are restored as they were, but for the name. -/
theorem restored_of_oneGrid (hgrid : OneGrid g) (hplaced : ∀ s ∈ g, Placed s)
    (hname : ∀ s ∈ g, s.blockName = some (fullBlockName shape (readLabels shape bn))) :
    (cells g).map (seatAt shape bn g) = g := by
  rw [cells_eq hgrid, List.map_map]
  calc g.map _ = g.map id := ?_
    _ = g := List.map_id g
  apply List.map_congr_left
  intro s hs
  have hne : g ≠ [] := List.ne_nil_of_mem hs
  obtain ⟨first, hfirst⟩ : ∃ first, g.head? = some first :=
    ⟨g.head hne, List.head?_eq_some_head hne⟩
  obtain ⟨last, hlast⟩ : ∃ last, g.getLast? = some last :=
    ⟨g.getLast hne, List.getLast?_eq_some_getLast hne⟩
  obtain ⟨u, hu⟩ := hgrid.letter s hs
  obtain ⟨hx, hy, -⟩ := hplaced s hs
  have hcode : firstCode g = first.code := firstCode_eq hgrid.letter hgrid.ordered hfirst
  have hle := first_le hgrid.ordered hfirst hs
  have hrow := hgrid.row s hs first hfirst
  have hthousandX := hgrid.thousandX last (List.mem_of_getLast? hlast) s hs
  have hthousandY := hgrid.thousandY last (List.mem_of_getLast? hlast) s hs
  have hcategory := hgrid.category first (List.mem_of_head? hfirst) s hs
  apply Seat.ext
  · have hcodeS : s.code = u := by rw [Seat.code, hu]; rfl
    show [firstCode g + (s.code - firstCode g)] = s.rowLetter
    rw [Nat.add_sub_cancel' (hcode ▸ hle), hcodeS, hu]
  · show (g.head?.map (·.seatClass)).getD .standard = s.seatClass
    rw [hfirst]
    exact hcategory
  · show some ((g.getLast?.map Seat.blockX).getD 100 * 1000 + s.col) = s.xPos
    rw [hx, hlast, Option.map_some, Option.getD_some, Seat.blockX_eq, Seat.col_eq, hthousandX]
    congr 1
    omega
  · show some ((g.getLast?.map Seat.blockY).getD 100 * 1000 + ((s.code - firstCode g : ℕ) : ℤ)) =
      s.yPos
    rw [hy, hlast, Option.map_some, Option.getD_some, Seat.blockY_eq, hthousandY, hcode]
    congr 1
    omega
  · exact (hname s hs).symm

end Reproduced

/-! ## Layouts -/

/-- The seats of all blocks, without their numbers. -/
def seats (shape : LayoutShape) (blocks : List LayoutBlock) : List Seat :=
  blocks.flatMap (blockSeats shape)

section Layouts

variable {shape : LayoutShape} {blocks : List LayoutBlock}

theorem toSeat_handleSave (shape : LayoutShape) (blocks : List LayoutBlock) :
    (handleSave shape blocks).map (·.toSeat) = seats shape blocks := by
  unfold handleSave seats
  apply List.ext_getElem
  · simp
  · intro n h₁ h₂
    simp

/-- The numbers follow from the seats. -/
theorem handleSave_eq_iff {blocks' : List LayoutBlock} :
    handleSave shape blocks = handleSave shape blocks' ↔ seats shape blocks = seats shape blocks' := by
  constructor
  · intro h
    rw [← toSeat_handleSave, ← toSeat_handleSave, h]
  · intro h
    unfold handleSave
    unfold seats at h
    rw [h]

theorem placed_of_mem {s : Seat} {block : LayoutBlock} (hs : s ∈ blockSeats shape block) :
    Placed s := by
  obtain ⟨row, -, hmem⟩ := List.mem_flatMap.1 hs
  obtain ⟨c, -, rfl⟩ := List.mem_map.1 hmem
  exact ⟨rfl, rfl, _, rfl⟩

theorem blockName_of_mem {s : Seat} {block : LayoutBlock} (hs : s ∈ blockSeats shape block) :
    s.blockName = some (fullBlockName shape block.labels) := by
  obtain ⟨row, -, hmem⟩ := List.mem_flatMap.1 hs
  obtain ⟨c, -, rfl⟩ := List.mem_map.1 hmem
  rfl

theorem groupName_of {s : Seat} {name : Text} (h : s.blockName = some name) :
    groupName s = groupOf name := by
  rw [groupName, h]
  rfl

/-- The seats of the restored blocks are those of the groups, restored one by one. -/
theorem seats_restore (shape : LayoutShape) (blocks : List LayoutBlock) :
    seats shape (restore shape false (handleSave shape blocks)) =
      (groups groupName (seats shape blocks)).flatMap fun group =>
        blockSeats shape (restoreBlock shape group.1 group.2) := by
  unfold restore
  rw [toSeat_handleSave, if_neg Bool.false_ne_true]
  exact List.flatMap_map _ _ _

/-- Saving a layout, restoring it and saving it again yields the same seats exactly if the seats with
one name stand together and are read off one grid, and the names of the blocks that have seats are
readable. -/
theorem reproduced_iff (shape : LayoutShape) (blocks : List LayoutBlock) :
    handleSave shape (restore shape false (handleSave shape blocks)) = handleSave shape blocks ↔
      Together groupName (seats shape blocks) ∧
        (∀ s ∈ seats shape blocks, OneGrid (part groupName (seats shape blocks) (groupName s))) ∧
        ∀ block ∈ blocks, blockSeats shape block ≠ [] →
          Readable shape (fullBlockName shape block.labels) := by
  have hkey : ∀ bn g, ∀ s ∈ blockSeats shape (restoreBlock shape bn g),
      groupName s = groupOf (fullBlockName shape (readLabels shape bn)) := by
    intro bn g s hs
    rw [blockSeats_restoreBlock] at hs
    obtain ⟨cell, -, rfl⟩ := List.mem_map.1 hs
    rfl
  rw [handleSave_eq_iff, seats_restore, regroup_iff (length_restored shape) hkey]
  constructor
  · rintro ⟨hparts, htogether⟩
    have hrestored : ∀ s ∈ seats shape blocks, (cells (part groupName (seats shape blocks)
        (groupName s))).map (seatAt shape (groupName s) (part groupName (seats shape blocks)
          (groupName s))) = part groupName (seats shape blocks) (groupName s) := by
      intro s hs
      rw [← blockSeats_restoreBlock]
      exact hparts _ (List.mem_map_of_mem hs)
    refine ⟨htogether, fun s hs => oneGrid_of_restored (hrestored s hs), fun block hblock hne => ?_⟩
    obtain ⟨s, hs⟩ := List.exists_mem_of_ne_nil _ hne
    have hmem : s ∈ seats shape blocks := List.mem_flatMap.2 ⟨block, hblock, hs⟩
    have hname : s.blockName = some (fullBlockName shape block.labels) := blockName_of_mem hs
    have hpart : s ∈ part groupName (seats shape blocks) (groupName s) := mem_part.2 ⟨hmem, rfl⟩
    rw [← hrestored s hmem] at hpart
    obtain ⟨cell, -, hcell⟩ := List.mem_map.1 hpart
    apply renamed_iff.1
    rw [← groupName_of hname]
    apply Option.some.inj
    calc some (fullBlockName shape (readLabels shape (groupName s)))
        = s.blockName := congrArg Seat.blockName hcell
      _ = some (fullBlockName shape block.labels) := hname
  · rintro ⟨htogether, hgrid, hname⟩
    refine ⟨fun k hk => ?_, htogether⟩
    obtain ⟨s, hs, rfl⟩ := List.mem_map.1 hk
    rw [blockSeats_restoreBlock]
    apply restored_of_oneGrid (hgrid s hs)
    · intro t ht
      obtain ⟨block, -, hseat⟩ := List.mem_flatMap.1 (mem_part.1 ht).1
      exact placed_of_mem hseat
    · intro t ht
      obtain ⟨hmem, hgroup⟩ := mem_part.1 ht
      obtain ⟨block, hblock, hseat⟩ := List.mem_flatMap.1 hmem
      have hlabel : t.blockName = some (fullBlockName shape block.labels) := blockName_of_mem hseat
      have hread := renamed_iff.2 (hname block hblock (List.ne_nil_of_mem hseat))
      rw [← hgroup, groupName_of hlabel, hread]
      exact hlabel

end Layouts

end SeatDesigner
end Bookit
