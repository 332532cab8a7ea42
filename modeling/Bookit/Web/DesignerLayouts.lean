import Bookit.Web.DesignerRoundTrip

/-!
# Web.DesignerLayouts — which layouts survive being edited

Here the conditions on the saved seats are said of the blocks themselves.  A restored layout has one
block for each name, so the blocks of one name have to stand together, and to be parts of one grid:
their columns in one thousand and their rows in another once the place of the block is added, and the
letters of their rows counted from a row whose number is a multiple of a thousand.
-/

namespace Bookit
namespace SeatDesigner

open Lib

/-! ## The places of a block -/

/-- Where a seat stands in a block: the letter and the number of its row, and its column. -/
structure Place where
  letter : Text
  row : ℕ
  column : ℤ

/-- The first unit of the letter. -/
def Place.code (place : Place) : ℕ := place.letter.headD 0

-- Named, so that the definitions below hold no proof of their own.
local instance place_lawfulBEq : LawfulBEq (ℕ × ℤ) := inferInstance

/-- The places that are not disabled, row by row. -/
def places (block : LayoutBlock) : List Place :=
  (rows block.rowStart block.rowEnd).zipIdx.flatMap fun row =>
    ((columns block.colStart block.colEnd).filter fun c =>
      decide ((row.2, c - block.colStart) ∉ block.disabledSeats)).map fun c =>
        { letter := row.1, row := row.2, column := c }

/-- The blocks that have a seat. -/
def occupied (blocks : List LayoutBlock) : List LayoutBlock :=
  blocks.filter fun block => !(places block).isEmpty

def nameOf (shape : LayoutShape) (block : LayoutBlock) : Text :=
  fullBlockName shape block.labels

/-! ## Layouts that survive -/

/-- Parts of one grid, or one block as a part of its own. -/
structure Aligned (block block' : LayoutBlock) : Prop where
  category : block.category = block'.category
  thousandX : ∀ p ∈ places block, ∀ p' ∈ places block',
    block.x + p.column / 1000 = block'.x + p'.column / 1000
  thousandY : ∀ p ∈ places block, ∀ p' ∈ places block',
    block.y + (p.row : ℤ) / 1000 = block'.y + (p'.row : ℤ) / 1000
  row : ∀ p ∈ places block, ∀ p' ∈ places block',
    (p.code : ℤ) - p.row % 1000 = p'.code - p'.row % 1000

/-- Every place of the first block is in an earlier row than those of the second, or further left. -/
def Ahead (block block' : LayoutBlock) : Prop :=
  ∀ p ∈ places block, ∀ p' ∈ places block',
    Before (p.code, p.column % 1000) (p'.code, p'.column % 1000)

/-- A layout that survives: of the blocks that have a seat, those of one name stand together, each
ahead of the next, and are parts of one grid, some row of which has a multiple of a thousand as its
number; the letters of the rows are single units, and the names are readable. -/
structure Restorable (shape : LayoutShape) (blocks : List LayoutBlock) : Prop where
  together : Together (nameOf shape) (occupied blocks)
  letter : ∀ block ∈ occupied blocks, ∀ p ∈ places block, ∃ u, p.letter = [u]
  aligned : ∀ block ∈ occupied blocks, ∀ block' ∈ occupied blocks,
    nameOf shape block = nameOf shape block' → Aligned block block'
  ahead : (occupied blocks).Pairwise fun block block' =>
    nameOf shape block = nameOf shape block' → Ahead block block'
  started : ∀ block ∈ occupied blocks, ∃ block' ∈ occupied blocks,
    nameOf shape block' = nameOf shape block ∧ ∃ p ∈ places block', p.row % 1000 = 0
  name : ∀ block ∈ occupied blocks, Readable shape (nameOf shape block)

/-! ## The order of the places -/

theorem pairwise_rows (rowStart rowEnd : Text) :
    (rows rowStart rowEnd).zipIdx.Pairwise fun row row' =>
      row.2 < row'.2 ∧ row.1.headD 0 < row'.1.headD 0 := by
  have hrange : ∀ a n : ℕ, (((List.range' a n).map fun code => [code]).zipIdx).Pairwise
      fun row row' : Text × ℕ => row.2 < row'.2 ∧ row.1.headD 0 < row'.1.headD 0 := by
    intro a n
    apply List.pairwise_iff_getElem.2
    intro i j hi hj hij
    simpa using hij
  have hone : (([rowStart] : List Text).zipIdx).Pairwise
      fun row row' : Text × ℕ => row.2 < row'.2 ∧ row.1.headD 0 < row'.1.headD 0 :=
    List.pairwise_singleton _ _
  unfold rows
  split
  · split_ifs
    · exact hrange _ _
    · exact hone
  · exact hone

/-- Row by row, and from left to right in each. -/
theorem pairwise_places (block : LayoutBlock) : (places block).Pairwise fun p p' =>
    p.code < p'.code ∨ p.code = p'.code ∧ p.column < p'.column := by
  apply List.pairwise_flatMap.2
  constructor
  · intro row _
    apply List.pairwise_map.2
    apply ((pairwise_columns _ _).filter _).imp
    intro c d hcd
    exact .inr ⟨rfl, hcd⟩
  · apply (pairwise_rows _ _).imp
    rintro row row' ⟨-, hcode⟩ p hp p' hp'
    obtain ⟨c, -, rfl⟩ := List.mem_map.1 hp
    obtain ⟨d, -, rfl⟩ := List.mem_map.1 hp'
    exact .inl hcode

/-! ## Seats and places -/

/-- The seat that a place of a block is saved as. -/
def seatOf (shape : LayoutShape) (block : LayoutBlock) (place : Place) : Seat where
  rowLetter := place.letter
  seatClass := block.category
  xPos := some (block.x * 1000 + place.column)
  yPos := some (block.y * 1000 + place.row)
  blockName := some (nameOf shape block)

section Seats

variable {shape : LayoutShape} {blocks : List LayoutBlock} {block block' : LayoutBlock}

theorem blockSeats_eq (shape : LayoutShape) (block : LayoutBlock) :
    blockSeats shape block = (places block).map (seatOf shape block) := by
  unfold blockSeats places
  rw [List.map_flatMap]
  apply List.flatMap_congr
  intro row _
  rw [List.map_map]
  rfl

theorem mem_occupied : block ∈ occupied blocks ↔ block ∈ blocks ∧ places block ≠ [] := by
  simp [occupied]

theorem mem_seats {s : Seat} : s ∈ seats shape blocks ↔
    ∃ block ∈ occupied blocks, ∃ p ∈ places block, seatOf shape block p = s := by
  simp only [seats, List.mem_flatMap, blockSeats_eq, List.mem_map, mem_occupied]
  constructor
  · rintro ⟨block, hblock, p, hp, rfl⟩
    exact ⟨block, ⟨hblock, List.ne_nil_of_mem hp⟩, p, hp, rfl⟩
  · rintro ⟨block, ⟨hblock, -⟩, p, hp, rfl⟩
    exact ⟨block, hblock, p, hp, rfl⟩

/-- Blocks without a seat leave no trace. -/
theorem seats_eq (shape : LayoutShape) (blocks : List LayoutBlock) :
    seats shape blocks = (occupied blocks).flatMap (blockSeats shape) := by
  induction blocks with
  | nil => rfl
  | cons block blocks ih =>
      have hcons : seats shape (block :: blocks) = blockSeats shape block ++ seats shape blocks := rfl
      rw [hcons, ih]
      by_cases hnil : places block = []
      · have hskip : occupied (block :: blocks) = occupied blocks :=
          List.filter_cons_of_neg (by simp [hnil])
        rw [hskip, blockSeats_eq, hnil]
        rfl
      · have hkeep : occupied (block :: blocks) = block :: occupied blocks :=
          List.filter_cons_of_pos (by simp [hnil])
        rw [hkeep]
        rfl

theorem seatOf_col (shape : LayoutShape) (block : LayoutBlock) (place : Place) :
    (seatOf shape block place).col = place.column % 1000 := by
  rw [Seat.col_eq]
  show (block.x * 1000 + place.column) % 1000 = place.column % 1000
  omega

theorem seatOf_x (shape : LayoutShape) (block : LayoutBlock) (place : Place) :
    (seatOf shape block place).x / 1000 = block.x + place.column / 1000 := by
  show (block.x * 1000 + place.column) / 1000 = block.x + place.column / 1000
  omega

theorem seatOf_y (shape : LayoutShape) (block : LayoutBlock) (place : Place) :
    (seatOf shape block place).y / 1000 = block.y + (place.row : ℤ) / 1000 ∧
      (seatOf shape block place).y % 1000 = (place.row : ℤ) % 1000 := by
  show (block.y * 1000 + (place.row : ℤ)) / 1000 = _ ∧ (block.y * 1000 + (place.row : ℤ)) % 1000 = _
  omega

theorem groupName_seatOf (hname : nameOf shape block ≠ []) (place : Place) :
    groupName (seatOf shape block place) = nameOf shape block := by
  show (if nameOf shape block = [] then text "Block" else nameOf shape block) = nameOf shape block
  rw [if_neg hname]

/-- The seats of one name are those of the blocks of this name. -/
theorem mem_part_seats (hname : ∀ block ∈ occupied blocks, nameOf shape block ≠ [])
    {name : Text} {s : Seat} : s ∈ part groupName (seats shape blocks) name ↔
      ∃ block ∈ occupied blocks, nameOf shape block = name ∧
        ∃ p ∈ places block, seatOf shape block p = s := by
  rw [mem_part, mem_seats]
  constructor
  · rintro ⟨⟨block, hblock, p, hp, rfl⟩, hgroup⟩
    rw [groupName_seatOf (hname block hblock)] at hgroup
    exact ⟨block, hblock, hgroup, p, hp, rfl⟩
  · rintro ⟨block, hblock, rfl, p, hp, rfl⟩
    exact ⟨⟨block, hblock, p, hp, rfl⟩, groupName_seatOf (hname block hblock) p⟩

/-- The parts of a list are in order exactly if the entries of one key are. -/
theorem pairwise_part_iff {R : Seat → Seat → Prop} {l : List Seat} :
    (∀ s ∈ l, (part groupName l (groupName s)).Pairwise R) ↔
      l.Pairwise fun s t => groupName s = groupName t → R s t := by
  constructor
  · intro h
    apply List.pairwise_iff_forall_sublist.2
    intro s t hsub heq
    have hpart := List.pairwise_filter.1 (h s (hsub.subset List.mem_cons_self))
    have hpair := List.pairwise_iff_forall_sublist.1 hpart hsub
    exact hpair (decide_eq_true rfl) (decide_eq_true heq.symm)
  · intro h s _
    apply List.pairwise_filter.2
    apply h.imp
    intro a b hab ha hb
    exact hab ((of_decide_eq_true ha).trans (of_decide_eq_true hb).symm)

/-- The seats of each name go forward exactly if the blocks of each name do. -/
theorem ordered_iff (hname : ∀ block ∈ occupied blocks, nameOf shape block ≠ [])
    (hthousand : ∀ block ∈ occupied blocks, ∀ p ∈ places block, ∀ p' ∈ places block,
      p.column / 1000 = p'.column / 1000) :
    (∀ s ∈ seats shape blocks, (part groupName (seats shape blocks) (groupName s)).Pairwise
        fun s t => Before (s.code, s.col) (t.code, t.col)) ↔
      (occupied blocks).Pairwise fun block block' =>
        nameOf shape block = nameOf shape block' → Ahead block block' := by
  rw [pairwise_part_iff, seats_eq, List.pairwise_flatMap]
  constructor
  · rintro ⟨-, h⟩
    apply h.imp_of_mem
    intro block block' hblock hblock' hseats heq p hp p' hp'
    have hbefore := hseats (seatOf shape block p) (blockSeats_eq shape block ▸ List.mem_map_of_mem hp)
      (seatOf shape block' p') (blockSeats_eq shape block' ▸ List.mem_map_of_mem hp')
    rw [groupName_seatOf (hname block hblock), groupName_seatOf (hname block' hblock'),
      seatOf_col, seatOf_col] at hbefore
    exact hbefore heq
  · intro h
    constructor
    · intro block hblock
      rw [blockSeats_eq]
      apply List.pairwise_map.2
      apply (pairwise_places block).imp_of_mem
      intro p p' hp hp' hnext _
      have hcolumn := hthousand block hblock p hp p' hp'
      rw [seatOf_col, seatOf_col]
      show p.code < p'.code ∨ p.code = p'.code ∧ p.column % 1000 < p'.column % 1000
      omega
    · apply h.imp_of_mem
      intro block block' hblock hblock' hahead s hs t ht heq
      rw [blockSeats_eq] at hs ht
      obtain ⟨p, hp, rfl⟩ := List.mem_map.1 hs
      obtain ⟨p', hp', rfl⟩ := List.mem_map.1 ht
      rw [groupName_seatOf (hname block hblock), groupName_seatOf (hname block' hblock')] at heq
      rw [seatOf_col, seatOf_col]
      exact hahead heq p hp p' hp'

end Seats

/-! ## Names that survive -/

theorem Readable.ne_nil {shape : LayoutShape} {name : Text} (h : Readable shape name) :
    name ≠ [] := by
  rintro rfl
  unfold Readable at h
  split_ifs at h with hshape
  · exact h.1 rfl
  · obtain ⟨parts, label, hsplit, -, hparts, -⟩ := h
    have hone : split separator [] = [[]] := by decide
    have hlength := congrArg List.length (hone.symm.trans hsplit)
    rw [List.length_append] at hlength
    have hpos := List.length_pos_iff.2 hparts
    simp only [List.length_singleton] at hlength
    omega

/-- A list with an entry has a first one. -/
theorem exists_first {l : List Seat} {s : Seat} (hs : s ∈ l) : ∃ first, first ∈ l.head? :=
  ⟨l.head (List.ne_nil_of_mem hs), List.head?_eq_some_head _⟩

section Layouts

variable {shape : LayoutShape} {blocks : List LayoutBlock}

/-- What the grids of the seats say of the blocks. -/
theorem restorable_of_grids (hname : ∀ block ∈ occupied blocks, Readable shape (nameOf shape block))
    (htogether : Together (nameOf shape) (occupied blocks))
    (hgrid : ∀ s ∈ seats shape blocks,
      OneGrid (part groupName (seats shape blocks) (groupName s))) :
    Restorable shape blocks := by
  have hne : ∀ block ∈ occupied blocks, nameOf shape block ≠ [] :=
    fun block hblock => (hname block hblock).ne_nil
  have hseat : ∀ block ∈ occupied blocks, ∀ p ∈ places block,
      OneGrid (part groupName (seats shape blocks) (nameOf shape block)) := by
    intro block hblock p hp
    rw [← groupName_seatOf (hne block hblock) p]
    exact hgrid _ (mem_seats.2 ⟨block, hblock, p, hp, rfl⟩)
  have hpart : ∀ block ∈ occupied blocks, ∀ p ∈ places block, seatOf shape block p ∈
      part groupName (seats shape blocks) (nameOf shape block) :=
    fun block hblock p hp => (mem_part_seats hne).2 ⟨block, hblock, rfl, p, hp, rfl⟩
  -- the row of a place, counted from the first seat of its name
  have hrow : ∀ block ∈ occupied blocks, ∀ p ∈ places block,
      ∀ first ∈ (part groupName (seats shape blocks) (nameOf shape block)).head?,
        (p.row : ℤ) % 1000 = (p.code : ℤ) - first.code := by
    intro block hblock p hp first hfirst
    rw [← (seatOf_y shape block p).2]
    exact (hseat block hblock p hp).row _ (hpart block hblock p hp) first hfirst
  constructor
  · exact htogether
  · intro block hblock p hp
    exact (hseat block hblock p hp).letter _ (hpart block hblock p hp)
  · intro block hblock block' hblock' heq
    have hpart' : ∀ p ∈ places block', seatOf shape block' p ∈
        part groupName (seats shape blocks) (nameOf shape block) :=
      fun p hp => heq ▸ hpart block' hblock' p hp
    constructor
    · obtain ⟨p, hp⟩ := List.exists_mem_of_ne_nil _ (mem_occupied.1 hblock).2
      obtain ⟨p', hp'⟩ := List.exists_mem_of_ne_nil _ (mem_occupied.1 hblock').2
      exact (hseat block hblock p hp).category _ (hpart block hblock p hp) _ (hpart' p' hp')
    · intro p hp p' hp'
      rw [← seatOf_x shape, ← seatOf_x shape]
      exact (hseat block hblock p hp).thousandX _ (hpart block hblock p hp) _ (hpart' p' hp')
    · intro p hp p' hp'
      rw [← (seatOf_y shape block p).1, ← (seatOf_y shape block' p').1]
      exact (hseat block hblock p hp).thousandY _ (hpart block hblock p hp) _ (hpart' p' hp')
    · intro p hp p' hp'
      obtain ⟨first, hfirst⟩ := exists_first (hpart block hblock p hp)
      have hp := hrow block hblock p hp first hfirst
      have hp' := hrow block' hblock' p' hp' first (heq ▸ hfirst)
      omega
  · apply (ordered_iff hne ?_).1 fun s hs => (hgrid s hs).ordered
    intro block hblock p hp p' hp'
    have hthousand := (hseat block hblock p hp).thousandX _ (hpart block hblock p hp) _
      (hpart block hblock p' hp')
    rw [seatOf_x, seatOf_x] at hthousand
    omega
  · intro block hblock
    obtain ⟨p, hp⟩ := List.exists_mem_of_ne_nil _ (mem_occupied.1 hblock).2
    obtain ⟨first, hfirst⟩ := exists_first (hpart block hblock p hp)
    obtain ⟨block', hblock', heq, p', hp', rfl⟩ :=
      (mem_part_seats hne).1 (List.mem_of_head? hfirst)
    refine ⟨block', hblock', heq, p', hp', ?_⟩
    have hstart : (p'.row : ℤ) % 1000 = (p'.code : ℤ) - p'.code :=
      hrow block' hblock' p' hp' (seatOf shape block' p') (heq.symm ▸ hfirst)
    omega
  · exact hname

/-- The seats of the blocks of one name are read off one grid. -/
theorem grids_of_restorable (h : Restorable shape blocks) :
    ∀ s ∈ seats shape blocks, OneGrid (part groupName (seats shape blocks) (groupName s)) := by
  have hne : ∀ block ∈ occupied blocks, nameOf shape block ≠ [] :=
    fun block hblock => (h.name block hblock).ne_nil
  have hordered := (ordered_iff hne fun block hblock p hp p' hp' => by
    have hthousand := (h.aligned block hblock block hblock rfl).thousandX p hp p' hp'
    omega).2 h.ahead
  intro s hs
  have horder := hordered s hs
  obtain ⟨block, hblock, p, hp, rfl⟩ := mem_seats.1 hs
  rw [groupName_seatOf (hne block hblock)] at horder ⊢
  -- any two seats of the name are of aligned blocks
  have hpair : ∀ s ∈ part groupName (seats shape blocks) (nameOf shape block),
      ∀ t ∈ part groupName (seats shape blocks) (nameOf shape block),
        ∃ b p b' p', Aligned b b' ∧ p ∈ places b ∧ p' ∈ places b' ∧
          seatOf shape b p = s ∧ seatOf shape b' p' = t := by
    intro s hs t ht
    obtain ⟨b, hb, heq, p, hp, hs⟩ := (mem_part_seats hne).1 hs
    obtain ⟨b', hb', heq', p', hp', ht⟩ := (mem_part_seats hne).1 ht
    exact ⟨b, p, b', p', h.aligned b hb b' hb' (heq.trans heq'.symm), hp, hp', hs, ht⟩
  constructor
  · intro s hs
    obtain ⟨b, hb, -, p, hp, rfl⟩ := (mem_part_seats hne).1 hs
    exact h.letter b hb p hp
  · exact horder
  · intro s hs t ht
    obtain ⟨b, p, b', p', haligned, hp, hp', rfl, rfl⟩ := hpair s hs t ht
    exact haligned.category
  · intro s hs t ht
    obtain ⟨b, p, b', p', haligned, hp, hp', rfl, rfl⟩ := hpair s hs t ht
    rw [seatOf_x, seatOf_x]
    exact haligned.thousandX p hp p' hp'
  · intro s hs t ht
    obtain ⟨b, p, b', p', haligned, hp, hp', rfl, rfl⟩ := hpair s hs t ht
    rw [(seatOf_y shape b p).1, (seatOf_y shape b' p').1]
    exact haligned.thousandY p hp p' hp'
  · intro s hs first hfirst
    have hfirstMem := List.mem_of_head? hfirst
    obtain ⟨b₀, hb₀, hname₀, p₀, hp₀, hzero⟩ := h.started block hblock
    have hstart : seatOf shape b₀ p₀ ∈ part groupName (seats shape blocks) (nameOf shape block) :=
      (mem_part_seats hne).2 ⟨b₀, hb₀, hname₀, p₀, hp₀, rfl⟩
    -- the first seat is not behind the one whose row is a multiple of a thousand
    have hle : first.code ≤ (seatOf shape b₀ p₀).code := first_le horder hfirst hstart
    have hcount : ∀ s ∈ part groupName (seats shape blocks) (nameOf shape block),
        (s.code : ℤ) - s.y % 1000 = (seatOf shape b₀ p₀).code := by
      intro s hs
      obtain ⟨b, hb, heq, p, hp, rfl⟩ := (mem_part_seats hne).1 hs
      have haligned := h.aligned b hb b₀ hb₀ (heq.trans hname₀.symm)
      have hrow := haligned.row p hp p₀ hp₀
      rw [(seatOf_y shape b p).2]
      show (p.code : ℤ) - (p.row : ℤ) % 1000 = p₀.code
      omega
    have hs := hcount s hs
    have hfirst := hcount first hfirstMem
    have hpos := Int.emod_nonneg first.y (by decide : (1000 : ℤ) ≠ 0)
    omega

/-- Saving a layout, restoring it and saving it again yields the same seats exactly if the layout
is restorable. -/
theorem save_restore_iff (shape : LayoutShape) (blocks : List LayoutBlock) :
    handleSave shape (restore shape false (handleSave shape blocks)) = handleSave shape blocks ↔
      Restorable shape blocks := by
  have hnames : (∀ block ∈ blocks, blockSeats shape block ≠ [] →
      Readable shape (fullBlockName shape block.labels)) ↔
        ∀ block ∈ occupied blocks, Readable shape (nameOf shape block) := by
    simp only [blockSeats_eq, ne_eq, List.map_eq_nil_iff, mem_occupied, and_imp]
    rfl
  have htogether : (∀ block ∈ occupied blocks, Readable shape (nameOf shape block)) →
      (Together groupName (seats shape blocks) ↔ Together (nameOf shape) (occupied blocks)) := by
    intro hname
    rw [seats_eq]
    apply together_flatMap
    · intro block hblock hnil
      rw [blockSeats_eq] at hnil
      exact (mem_occupied.1 hblock).2 (List.map_eq_nil_iff.1 hnil)
    · intro block hblock s hs
      rw [blockSeats_eq] at hs
      obtain ⟨p, -, rfl⟩ := List.mem_map.1 hs
      exact groupName_seatOf (hname block hblock).ne_nil p
  rw [reproduced_iff, hnames]
  constructor
  · rintro ⟨hblocks, hgrid, hname⟩
    exact restorable_of_grids hname ((htogether hname).1 hblocks) hgrid
  · intro h
    exact ⟨(htogether h.name).2 h.together, grids_of_restorable h, h.name⟩

end Layouts

/-- A block of one seat, with a name and no other label. -/
def namedBlock : LayoutBlock where
  labels := { name := text "A", direction := [], gate := [], stand := [] }
  category := .standard
  rowStart := text "A"
  rowEnd := text "A"
  colStart := 1
  colEnd := 1
  x := 20
  y := 265
  disabledSeats := []

/-- In a circular layout its name is saved with the prefix, and with one more each time. -/
theorem save_restore_changes :
    ¬ ∀ (shape : LayoutShape) (blocks : List LayoutBlock),
      (∀ block ∈ blocks, blockSeats shape block ≠ []) →
        handleSave shape (restore shape false (handleSave shape blocks)) =
          handleSave shape blocks := by
  intro hall
  exact absurd (hall .circular [namedBlock] (by decide)) (by decide +kernel)

end SeatDesigner
end Bookit
