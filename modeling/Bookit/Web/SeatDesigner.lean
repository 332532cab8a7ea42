import Bookit.Lib.Pieces
import Bookit.Lib.Regroup
import Mathlib.Data.Int.Notation
import Mathlib.Data.List.Lex
import Mathlib.Data.List.Sort

/-!
# Web.SeatDesigner — the blocks of a seat layout, and the seats they are saved as

The designer of the administration holds blocks of seats.  Saving expands each block into its seats;
opening a saved layout restores the blocks from them.  A block leaves three traces in its seats: its
labels in the name of the block, and its place in the thousands of the two positions, whose rest is
the column and the row.

A string is the list of its UTF-16 code units.
-/

namespace Bookit
namespace SeatDesigner

open Lib

/-! ## Strings -/

abbrev Text := List ℕ

def text (s : String) : Text :=
  s.toList.map Char.toNat

/-- What `trim` removes: white space and line terminators. -/
def isSpace (u : ℕ) : Bool :=
  decide ((9 ≤ u ∧ u ≤ 13) ∨ u = 32 ∨ u = 0xA0 ∨ u = 0x1680 ∨ (0x2000 ≤ u ∧ u ≤ 0x200A) ∨
    u = 0x2028 ∨ u = 0x2029 ∨ u = 0x202F ∨ u = 0x205F ∨ u = 0x3000 ∨ u = 0xFEFF)

/-- `toLowerCase`, as far as the words searched for can tell: no unit but the capital letters of
ASCII becomes one of theirs. -/
def toLowerCase (s : Text) : Text :=
  s.map fun u => if 65 ≤ u ∧ u ≤ 90 then u + 32 else u

def includes (s word : Text) : Bool :=
  decide (word <:+: s)

def separator : Text := text " - "

def blockPrefix : Text := text "Block "

/-! ## Data -/

inductive LayoutShape where
  | rectangular
  | circular
  | square
  deriving DecidableEq

inductive LayoutSeatClass where
  | standard
  | premium
  | vip
  | ga
  deriving DecidableEq

/-- A saved seat without its number. -/
@[ext] structure Seat where
  rowLetter : Text
  seatClass : LayoutSeatClass
  xPos : Option ℤ
  yPos : Option ℤ
  blockName : Option Text
  deriving DecidableEq

structure SeatInput extends Seat where
  seatNumber : ℕ
  deriving DecidableEq

structure Labels where
  name : Text
  direction : Text
  gate : Text
  stand : Text
  deriving DecidableEq

/-- A block; a key `"r-c"` of `disabledSeats` is the pair of its numbers. -/
structure LayoutBlock where
  labels : Labels
  category : LayoutSeatClass
  rowStart : Text
  rowEnd : Text
  colStart : ℤ
  colEnd : ℤ
  x : ℤ
  y : ℤ
  disabledSeats : List (ℕ × ℤ)

/-! ## Saving -/

def fullBlockName (shape : LayoutShape) (labels : Labels) : Text :=
  if shape = .rectangular then
    labels.name
  else
    separator.intercalate
      ([labels.direction, labels.gate, labels.stand].filter (fun label => decide (label ≠ [])) ++
        if labels.name ≠ [] then [blockPrefix ++ labels.name] else [])

/-- The row letters from the first to the last; the first as it is where they are no range. -/
def rows (rowStart rowEnd : Text) : List Text :=
  match rowStart.head?, rowEnd.head? with
  | some startCode, some endCode =>
      if startCode ≤ endCode then
        (List.range' startCode (endCode - startCode + 1)).map fun code => [code]
      else
        [rowStart]
  | _, _ => [rowStart]

def columns (colStart colEnd : ℤ) : List ℤ :=
  (List.range (colEnd - colStart + 1).toNat).map fun n : ℕ => colStart + n

/-- The seats of a block, row by row, but for the disabled ones. -/
def blockSeats (shape : LayoutShape) (block : LayoutBlock) : List Seat :=
  (rows block.rowStart block.rowEnd).zipIdx.flatMap fun row =>
    ((columns block.colStart block.colEnd).filter fun c =>
      decide ((row.2, c - block.colStart) ∉ block.disabledSeats)).map fun c =>
        { rowLetter := row.1
          seatClass := block.category
          xPos := some (block.x * 1000 + c)
          yPos := some (block.y * 1000 + row.2)
          blockName := some (fullBlockName shape block.labels) }

/-- The seats of all blocks, numbered from one. -/
def handleSave (shape : LayoutShape) (blocks : List LayoutBlock) : List SeatInput :=
  (blocks.flatMap (blockSeats shape)).mapIdx fun i seat => { toSeat := seat, seatNumber := i + 1 }

/-! ## Restoring -/

/-- `seat.block_name || 'Block'`. -/
def groupName (seat : Seat) : Text :=
  match seat.blockName with
  | none => text "Block"
  | some name => if name = [] then text "Block" else name

def isStand (part : Text) : Bool :=
  includes (toLowerCase part) (text "stand") || includes (toLowerCase part) (text "box") ||
    includes (toLowerCase part) (text "level") || includes (toLowerCase part) (text "ground")

def isGate (part : Text) : Bool :=
  includes (toLowerCase part) (text "gate")

def standOf (parts : List Text) : Text :=
  (parts.find? isStand).getD []

def gateOf (parts : List Text) : Text :=
  (parts.find? isGate).getD []

def directionOf (parts : List Text) : Text :=
  (parts.find? fun p => decide (p ≠ standOf parts ∧ p ≠ gateOf parts)).getD []

/-- The labels that are read from the name of a group. -/
def readLabels (shape : LayoutShape) (bn : Text) : Labels :=
  if shape ≠ .rectangular ∧ includes bn separator = true then
    let parts := (split separator bn).map (strip isSpace)
    { name := removeFirst blockPrefix (parts.getLast?.getD [])
      direction := directionOf parts.dropLast
      gate := gateOf parts.dropLast
      stand := standOf parts.dropLast }
  else if shape = .rectangular ∧ blockPrefix <+: bn then
    { name := removeFirst blockPrefix bn, direction := [], gate := [], stand := [] }
  else
    { name := bn, direction := [], gate := [], stand := [] }

/-- `v % 1000`, moved up where it is negative. -/
def offset (v : ℤ) : ℤ :=
  let rest := v.tmod 1000
  if rest < 0 then rest + 1000 else rest

namespace Seat

def x (seat : Seat) : ℤ := seat.xPos.getD 100

def y (seat : Seat) : ℤ := seat.yPos.getD 100

def col (seat : Seat) : ℤ := offset seat.x

def blockX (seat : Seat) : ℤ := (seat.x - offset seat.x) / 1000

def blockY (seat : Seat) : ℤ := (seat.y - offset seat.y) / 1000

end Seat

/-- `letter || "A"`. -/
def orA (letter : Option Text) : Text :=
  match letter with
  | none => text "A"
  | some letter => if letter = [] then text "A" else letter

/-- The letters of the rows between which disabled seats are looked for. -/
def allRowLetters (rowStart rowEnd : Text) : List Text :=
  match rowStart.head? with
  | none => []
  | some curr =>
      let last := max curr (rowEnd.head?.getD curr)
      (List.range' curr (last - curr + 1)).map fun code => [code]

/-- The block that the seats of a group are taken for. -/
def restoreBlock (shape : LayoutShape) (bn : Text) (seats : List Seat) : LayoutBlock :=
  let letters := (seats.map (·.rowLetter)).dedup.insertionSort (· ≤ ·)
  let rowStart := orA letters.head?
  let rowEnd := orA letters.getLast?
  let colStart := (seats.map Seat.col).min?.getD 1
  let colEnd := (seats.map Seat.col).max?.getD 1
  { labels := readLabels shape bn
    category := (seats.head?.map (·.seatClass)).getD .standard
    rowStart := rowStart
    rowEnd := rowEnd
    colStart := colStart
    colEnd := colEnd
    x := (seats.getLast?.map Seat.blockX).getD 100
    y := (seats.getLast?.map Seat.blockY).getD 100
    disabledSeats := (allRowLetters rowStart rowEnd).zipIdx.flatMap fun row =>
      ((columns colStart colEnd).filter fun c =>
        !seats.any fun seat => decide (seat.rowLetter = row.1 ∧ seat.col = c)).map fun c =>
          (row.2, c - colStart) }

/-- `letter.charCodeAt(0) || 65`. -/
def letterCode (letter : Text) : ℕ :=
  match letter.head? with
  | none => 65
  | some code => if code = 0 then 65 else code

/-- The blocks of a preview, one below the other. -/
def arrange : ℤ → List LayoutBlock → List LayoutBlock
  | _, [] => []
  | currentY, block :: blocks =>
      let rCount := ((letterCode block.rowEnd : ℤ) - letterCode block.rowStart).natAbs + 1
      { block with
        x := 400 - 760 / 2
        y := currentY } :: arrange (currentY + (rCount * 22 + 48) + 20) blocks

/-- The blocks of a saved layout; the numbers of its seats are not read. -/
def restore (shape : LayoutShape) (readonly : Bool) (initialSeats : List SeatInput) :
    List LayoutBlock :=
  let newBlocks := (groups groupName (initialSeats.map (·.toSeat))).map fun group =>
    restoreBlock shape group.1 group.2
  if readonly then
    arrange (if shape = .rectangular then 100 else 250) newBlocks
  else
    newBlocks

end SeatDesigner
end Bookit
