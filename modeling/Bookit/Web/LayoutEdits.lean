import Bookit.Web.DesignerLayouts
import Bookit.Web.LayoutStore

/-!
# Web.LayoutEdits — a layout that is opened and saved as it is

The rows of a layout are read by letter and number, so that the blocks come in the order of their first
rows, and saving them numbers the seats anew.  Where the seats of each name stand on one grid, in
whatever order, nothing else changes, and the next time nothing at all.

Two admins who save the layout at once replace the rows only once: the second transaction does not see
the rows of the first, and what it inserts is there already.
-/

namespace Bookit
namespace LayoutStore

open Lib SeatDesigner

/-! ## The order of the rows -/

namespace Collation

variable (c : Collation) {a b x : SeatInput}

theorem before_iff : c.before a b = true ↔ c.le a.rowLetter b.rowLetter = true ∧
    (c.le b.rowLetter a.rowLetter = true → a.seatNumber ≤ b.seatNumber) := by
  unfold before
  cases c.le a.rowLetter b.rowLetter <;> cases c.le b.rowLetter a.rowLetter <;> simp

theorem preorders_before : StableSort.Preorders c.before := by
  constructor
  · intro a b
    simp only [before_iff]
    have hletters := c.preorders.total a.rowLetter b.rowLetter
    have hnumbers := Nat.le_total a.seatNumber b.seatNumber
    tauto
  · intro a b x
    simp only [before_iff]
    intro hab hbx
    refine ⟨c.preorders.trans _ _ _ hab.1 hbx.1, ?_⟩
    intro hxa
    have hba := c.preorders.trans _ _ _ hbx.1 hxa
    have hxb := c.preorders.trans _ _ _ hxa hab.1
    exact (hab.2 hba).trans (hbx.2 hxb)

/-- Of two seats, the one comes first. -/
def Ahead (a b : SeatInput) : Prop := c.before b a = false

theorem Ahead.before (h : c.Ahead a b) : c.before a b = true := by
  cases c.preorders_before.total a b with
  | inl h' => exact h'
  | inr h' => exact absurd h' (Bool.eq_false_iff.1 h)

theorem Ahead.asymm (h : c.Ahead a b) : ¬c.Ahead b a := by
  intro h'
  exact absurd (Ahead.before c h) (Bool.eq_false_iff.1 h')

/-- The seats as they are read: by letter and number. -/
def shown (l : List SeatInput) : List SeatInput :=
  StableSort.sorted c.before l

theorem perm_shown (l : List SeatInput) : (c.shown l).Perm l :=
  List.perm_insertionSort _ l

section Numbers

variable {l l' : List SeatInput}

theorem eq_of_number (hnumbers : (l.map (·.seatNumber)).Nodup) (ha : a ∈ l) (hb : b ∈ l)
    (h : a.seatNumber = b.seatNumber) : a = b :=
  List.inj_on_of_nodup_map hnumbers ha hb h

/-- Seats with numbers of their own are read in one order. -/
theorem shown_eq_of_perm (hnumbers : (l.map (·.seatNumber)).Nodup) (h : l'.Perm l) :
    c.shown l' = c.shown l := by
  apply List.Perm.eq_of_pairwise _ (StableSort.pairwise_sorted c.preorders_before l')
    (StableSort.pairwise_sorted c.preorders_before l)
    ((c.perm_shown l').trans (h.trans (c.perm_shown l).symm))
  intro a b ha hb hab hba
  have ha : a ∈ l := h.mem_iff.1 ((c.perm_shown l').mem_iff.1 ha)
  have hb : b ∈ l := (c.perm_shown l).mem_iff.1 hb
  have hab := c.before_iff.1 hab
  have hba := c.before_iff.1 hba
  exact eq_of_number hnumbers ha hb (Nat.le_antisymm (hab.2 hba.1) (hba.2 hab.1))

theorem pairwise_shown (hnumbers : (l.map (·.seatNumber)).Nodup) :
    (c.shown l).Pairwise c.Ahead := by
  have hnodup : ((c.shown l).map (·.seatNumber)).Nodup :=
    ((c.perm_shown l).map _).nodup_iff.2 hnumbers
  apply List.Pairwise.imp₂ _ (StableSort.pairwise_sorted c.preorders_before l)
    (List.pairwise_map.1 hnodup)
  intro a b hab hne
  apply Bool.eq_false_iff.2
  intro hba
  have hab := c.before_iff.1 hab
  have hba := c.before_iff.1 hba
  exact hne (Nat.le_antisymm (hab.2 hba.1) (hba.2 hab.1))

end Numbers

end Collation

/-! ## Grids -/

section Grids

variable {g g' : List Seat} {shape : LayoutShape} {bn : Text}

/-- The seats stand on one grid, each in a place of its own: the letters are single units, the rows are
counted from the first letter, and neither the category nor the thousands of the positions change. -/
structure Grid (g : List Seat) : Prop where
  letter : ∀ s ∈ g, ∃ u, s.rowLetter = [u]
  apart : (g.map fun s => (s.code, s.col)).Nodup
  category : ∀ s ∈ g, ∀ t ∈ g, s.seatClass = t.seatClass
  thousandX : ∀ s ∈ g, ∀ t ∈ g, s.x / 1000 = t.x / 1000
  thousandY : ∀ s ∈ g, ∀ t ∈ g, s.y / 1000 = t.y / 1000
  row : ∀ s ∈ g, ∀ t ∈ g, (∀ u ∈ g, t.code ≤ u.code) → s.y % 1000 = (s.code : ℤ) - t.code

theorem Grid.congr (h : Grid g) (hperm : g'.Perm g) : Grid g' where
  letter s hs := h.letter s (hperm.mem_iff.1 hs)
  apart := (hperm.map _).nodup_iff.2 h.apart
  category s hs t ht := h.category s (hperm.mem_iff.1 hs) t (hperm.mem_iff.1 ht)
  thousandX s hs t ht := h.thousandX s (hperm.mem_iff.1 hs) t (hperm.mem_iff.1 ht)
  thousandY s hs t ht := h.thousandY s (hperm.mem_iff.1 hs) t (hperm.mem_iff.1 ht)
  row s hs t ht hfirst := h.row s (hperm.mem_iff.1 hs) t (hperm.mem_iff.1 ht) fun u hu =>
    hfirst u (hperm.mem_iff.2 hu)

/-- Not behind, row by row. -/
def readsBefore (s t : Seat) : Bool :=
  decide (s.code < t.code ∨ s.code = t.code ∧ s.col ≤ t.col)

theorem preorders_readsBefore : StableSort.Preorders readsBefore := by
  constructor
  · intro s t
    simp only [readsBefore, decide_eq_true_iff]
    omega
  · intro s t u
    simp only [readsBefore, decide_eq_true_iff]
    omega

/-- The seats row by row, and each row from left to right. -/
def rowByRow (g : List Seat) : List Seat :=
  StableSort.sorted readsBefore g

theorem perm_rowByRow (g : List Seat) : (rowByRow g).Perm g :=
  List.perm_insertionSort _ g

theorem Grid.pairwise_rowByRow (h : Grid g) :
    (rowByRow g).Pairwise fun s t => Before (s.code, s.col) (t.code, t.col) := by
  have hnodup : ((rowByRow g).map fun s => (s.code, s.col)).Nodup :=
    ((perm_rowByRow g).map _).nodup_iff.2 h.apart
  apply List.Pairwise.imp₂ _ (StableSort.pairwise_sorted preorders_readsBefore g)
    (List.pairwise_map.1 hnodup)
  intro s t hbefore hne
  simp only [readsBefore, decide_eq_true_iff] at hbefore
  simp only [ne_eq, Prod.mk.injEq, not_and] at hne
  unfold Before
  dsimp only
  omega

theorem Grid.rowByRow_eq (h : Grid g) (hperm : g'.Perm g) : rowByRow g' = rowByRow g := by
  apply List.Perm.eq_of_pairwise _ (h.congr hperm).pairwise_rowByRow h.pairwise_rowByRow
    ((perm_rowByRow g').trans (hperm.trans (perm_rowByRow g).symm))
  intro s t _ _ hst hts
  unfold Before at hst hts
  dsimp only at hst hts
  omega

/-- Row by row, the seats of a grid are as they are saved. -/
theorem Grid.oneGrid (h : Grid g) : OneGrid (rowByRow g) := by
  have hgrid := h.congr (perm_rowByRow g)
  constructor
  · exact hgrid.letter
  · exact h.pairwise_rowByRow
  · exact hgrid.category
  · exact hgrid.thousandX
  · exact hgrid.thousandY
  · intro s hs first hfirst
    apply hgrid.row s hs first (List.mem_of_head? hfirst)
    intro u hu
    exact first_le h.pairwise_rowByRow hfirst hu

/-! ### Restoring a grid -/

theorem letters_eq (hperm : g'.Perm g) : letters g' = letters g := by
  apply List.Perm.eq_of_pairwise _ (sorted_letters g') (sorted_letters g)
  · apply (List.perm_insertionSort _ _).trans
    apply List.Perm.trans _ (List.perm_insertionSort _ _).symm
    exact (hperm.map _).dedup
  · intro a b _ _ hab hba
    exact le_antisymm hab hba

theorem firstCode_congr (hperm : g'.Perm g) : firstCode g' = firstCode g := by
  rw [firstCode, firstCode, letters_eq hperm]

/-- The cells of a group do not depend on its order. -/
theorem cells_congr (hperm : g'.Perm g) : cells g' = cells g := by
  have hanti : Std.Antisymm Before := by
    constructor
    rintro ⟨r, x⟩ ⟨r', x'⟩ h h'
    unfold Before at h h'
    dsimp only at h h'
    omega
  have hirrefl : Std.Irrefl Before := by
    constructor
    rintro ⟨r, x⟩ h
    unfold Before at h
    dsimp only at h
    omega
  apply (pairwise_cells g').eq_of_mem_iff (pairwise_cells g)
  intro cell
  simp only [mem_cells, firstCode_congr hperm, hperm.mem_iff]

/-- What an option reads of a list of which all entries agree. -/
theorem agree {β : Type} {f : Seat → β} (hf : ∀ s ∈ g, ∀ t ∈ g, f s = f t) {o o' : Option Seat}
    (ho : ∀ s ∈ o, s ∈ g) (ho' : ∀ s ∈ o', s ∈ g) (hnone : o = none ↔ o' = none) :
    o.map f = o'.map f := by
  cases o with
  | none => rw [hnone.1 rfl]
  | some s =>
      cases o' with
      | none => cases hnone.2 rfl
      | some t => exact congrArg some (hf s (ho s rfl) t (ho' t rfl))

/-- Nor does the seat that a cell is saved as, if the seats stand on one grid. -/
theorem Grid.seatAt_congr (h : Grid g) (hperm : g'.Perm g) :
    seatAt shape bn g' = seatAt shape bn g := by
  have hnil : g' = [] ↔ g = [] := by
    rw [← List.length_eq_zero_iff, ← List.length_eq_zero_iff, hperm.length_eq]
  have hfirst : ∀ s ∈ g'.head?, s ∈ g := fun s hs => hperm.mem_iff.1 (List.mem_of_head? hs)
  have hlast : ∀ s ∈ g'.getLast?, s ∈ g := fun s hs => hperm.mem_iff.1 (List.mem_of_getLast? hs)
  have hhead : g'.head?.map (·.seatClass) = g.head?.map (·.seatClass) := by
    apply agree h.category hfirst fun s hs => List.mem_of_head? hs
    rw [List.head?_eq_none_iff, List.head?_eq_none_iff, hnil]
  have hend : g'.getLast? = none ↔ g.getLast? = none := by
    rw [List.getLast?_eq_none_iff, List.getLast?_eq_none_iff, hnil]
  have hx : g'.getLast?.map Seat.blockX = g.getLast?.map Seat.blockX := by
    apply agree _ hlast (fun s hs => List.mem_of_getLast? hs) hend
    intro s hs t ht
    rw [Seat.blockX_eq, Seat.blockX_eq]
    exact h.thousandX s hs t ht
  have hy : g'.getLast?.map Seat.blockY = g.getLast?.map Seat.blockY := by
    apply agree _ hlast (fun s hs => List.mem_of_getLast? hs) hend
    intro s hs t ht
    rw [Seat.blockY_eq, Seat.blockY_eq]
    exact h.thousandY s hs t ht
  funext cell
  unfold seatAt
  rw [hhead, hx, hy, firstCode_congr hperm]

/-- The seats of a grid are restored in whatever order they are read. -/
theorem Grid.restored (h : Grid g) (hplaced : ∀ s ∈ g, Placed s)
    (hname : ∀ s ∈ g, s.blockName = some (fullBlockName shape (readLabels shape bn)))
    (hperm : g'.Perm g) : blockSeats shape (restoreBlock shape bn g') = rowByRow g := by
  have hrows := perm_rowByRow g
  have hperm' : g'.Perm (rowByRow g) := hperm.trans hrows.symm
  have hgrid := h.congr hrows
  calc blockSeats shape (restoreBlock shape bn g')
      = (cells g').map (seatAt shape bn g') := blockSeats_restoreBlock shape bn g'
    _ = (cells (rowByRow g)).map (seatAt shape bn (rowByRow g)) := by
        rw [cells_congr hperm', hgrid.seatAt_congr hperm']
    _ = rowByRow g := restored_of_oneGrid h.oneGrid
        (fun s hs => hplaced s (hrows.mem_iff.1 hs)) fun s hs => hname s (hrows.mem_iff.1 hs)

end Grids

/-! ## Saving a layout as it is -/

/-- The name under which the seat is restored. -/
def blockOf (seat : SeatInput) : Text := groupName seat.toSeat

/-- The seats of a block of the name. -/
def seatsNamed (l : List SeatInput) (name : Text) : List Seat :=
  part groupName (l.map (·.toSeat)) name

/-- Stored seats of which the designer makes the blocks anew: they have numbers of their own, positions,
and names that can be read, and those of each name stand on one grid. -/
structure Redrawable (shape : LayoutShape) (l : List SeatInput) : Prop where
  numbers : (l.map (·.seatNumber)).Nodup
  placed : ∀ s ∈ l, Placed s.toSeat
  name : ∀ s ∈ l, ∀ name, s.blockName = some name → Readable shape name
  grid : ∀ s ∈ l, Grid (seatsNamed l (blockOf s))

/-- What is saved of stored seats that are opened for editing. -/
def settled (c : Collation) (shape : LayoutShape) (l : List SeatInput) : List SeatInput :=
  handleSave shape (restore shape false (c.shown l))

/-- The names of the blocks, in the order in which they are restored. -/
def names (c : Collation) (l : List SeatInput) : List Text :=
  firsts ((c.shown l).map blockOf)

section Settled

variable {c : Collation} {shape : LayoutShape} {l l' : List SeatInput} {name : Text}

theorem mem_seatsNamed {seat : Seat} :
    seat ∈ seatsNamed l name ↔ ∃ s ∈ l, blockOf s = name ∧ s.toSeat = seat := by
  unfold seatsNamed
  rw [mem_part, List.mem_map]
  constructor
  · intro h
    obtain ⟨⟨s, hs, rfl⟩, hname⟩ := h
    exact ⟨s, hs, hname, rfl⟩
  · intro h
    obtain ⟨s, hs, hname, rfl⟩ := h
    exact ⟨⟨s, hs, rfl⟩, hname⟩

theorem seatsNamed_perm (name : Text) (h : (l'.map (·.toSeat)).Perm (l.map (·.toSeat))) :
    (seatsNamed l' name).Perm (seatsNamed l name) :=
  h.filter _

theorem mem_names : name ∈ names c l ↔ ∃ s ∈ l, blockOf s = name := by
  unfold names
  rw [mem_firsts, List.mem_map]
  simp only [(c.perm_shown l).mem_iff]

/-- The seats of a name are on one grid, as are those of the layout in another order. -/
theorem Redrawable.grid_of_mem (h : Redrawable shape l) (hname : name ∈ names c l) :
    Grid (seatsNamed l name) := by
  obtain ⟨s, hs, rfl⟩ := mem_names.1 hname
  exact h.grid s hs

theorem Redrawable.renamed (h : Redrawable shape l) {s : SeatInput} (hs : s ∈ l) :
    s.blockName = some (fullBlockName shape (readLabels shape (blockOf s))) := by
  obtain ⟨-, -, name, hname⟩ := h.placed s hs
  have hread := renamed_iff.2 (h.name s hs name hname)
  rw [blockOf, groupName_of hname, hread]
  exact hname

/-- The blocks are saved one after the other, in the order of their first rows, and each row by row. -/
theorem toSeat_settled (h : Redrawable shape l) :
    (settled c shape l).map (·.toSeat) =
      (names c l).flatMap fun name => rowByRow (seatsNamed l name) := by
  have hnames : firsts (((c.shown l).map (·.toSeat)).map groupName) = names c l := by
    rw [List.map_map]
    rfl
  unfold settled restore
  rw [toSeat_handleSave, if_neg Bool.false_ne_true, groups_eq, hnames]
  unfold seats
  rw [List.flatMap_map, List.flatMap_map]
  apply List.flatMap_congr
  intro name hname
  have hgrid := h.grid_of_mem hname
  apply hgrid.restored
  · intro seat hseat
    obtain ⟨s, hs, -, rfl⟩ := mem_seatsNamed.1 hseat
    exact h.placed s hs
  · intro seat hseat
    obtain ⟨s, hs, rfl, rfl⟩ := mem_seatsNamed.1 hseat
    exact h.renamed hs
  · exact seatsNamed_perm name ((c.perm_shown l).map _)

/-- No seat is lost, added or changed, but for its number. -/
theorem perm_settled (h : Redrawable shape l) :
    ((settled c shape l).map (·.toSeat)).Perm (l.map (·.toSeat)) := by
  rw [toSeat_settled h]
  have hrows : ((names c l).flatMap fun name => rowByRow (seatsNamed l name)).Perm
      ((names c l).flatMap (part groupName (l.map (·.toSeat)))) :=
    List.Perm.flatMap_left _ fun name _ => perm_rowByRow (seatsNamed l name)
  apply hrows.trans
  apply perm_flatMap_part (nodup_firsts _)
  intro seat hseat
  obtain ⟨s, hs, rfl⟩ := List.mem_map.1 hseat
  exact mem_names.2 ⟨s, hs, rfl⟩

/-- The seats are numbered from one, in their order. -/
theorem pairwise_handleSave (shape : LayoutShape) (blocks : List LayoutBlock) :
    (handleSave shape blocks).Pairwise fun a b => a.seatNumber < b.seatNumber := by
  apply List.pairwise_iff_getElem.2
  intro i j hi hj hij
  have hnumber : ∀ n (hn : n < (handleSave shape blocks).length),
      (handleSave shape blocks)[n].seatNumber = n + 1 := by
    intro n hn
    simp [handleSave]
  rw [hnumber i hi, hnumber j hj]
  omega

theorem nodup_handleSave (shape : LayoutShape) (blocks : List LayoutBlock) :
    ((handleSave shape blocks).map (·.seatNumber)).Nodup := by
  apply List.pairwise_map.2
  apply (pairwise_handleSave shape blocks).imp
  intro a b hab
  exact Nat.ne_of_lt hab

/-- What is saved is redrawn again. -/
theorem Redrawable.settled (h : Redrawable shape l) : Redrawable shape (settled c shape l) := by
  have hperm := perm_settled (c := c) h
  have hsource : ∀ s ∈ LayoutStore.settled c shape l, ∃ t ∈ l, t.toSeat = s.toSeat := by
    intro s hs
    exact List.mem_map.1 (hperm.mem_iff.1 (List.mem_map_of_mem hs))
  constructor
  · exact nodup_handleSave _ _
  · intro s hs
    obtain ⟨t, ht, heq⟩ := hsource s hs
    exact heq ▸ h.placed t ht
  · intro s hs name hname
    obtain ⟨t, ht, heq⟩ := hsource s hs
    exact h.name t ht name (heq ▸ hname)
  · intro s hs
    obtain ⟨t, ht, heq⟩ := hsource s hs
    have hgrid := (h.grid t ht).congr (seatsNamed_perm (blockOf t) hperm)
    have hblock : blockOf s = blockOf t := congrArg groupName heq.symm
    exact hblock ▸ hgrid

/-- A first seat of a block that is in front of another block is so when the seats are numbered anew. -/
theorem leads_settled (h : Redrawable shape l) :
    (names c l).Pairwise (Leads blockOf c.Ahead (c.shown (settled c shape l))) := by
  have hperm := perm_settled (c := c) h
  have hkey : ∀ name ∈ names c l, ∀ seat ∈ rowByRow (seatsNamed l name),
      groupName seat = name := by
    intro name _ seat hseat
    obtain ⟨s, -, hname, rfl⟩ := mem_seatsNamed.1 ((perm_rowByRow _).mem_iff.1 hseat)
    exact hname
  have hnumbered := pairwise_of_runs (nodup_firsts _) hkey (pairwise_handleSave _ _)
    (toSeat_settled (c := c) h)
  apply List.Pairwise.imp₂ _ (pairwise_firsts (c.pairwise_shown h.numbers)) hnumbered
  intro name name' hleads hnumber
  obtain ⟨x, hx, hname, hfront⟩ := hleads
  obtain ⟨x', hx', hxx⟩ := List.mem_map.1
    (hperm.mem_iff.2 (List.mem_map_of_mem ((c.perm_shown l).mem_iff.1 hx)))
  have hblock : blockOf x' = blockOf x := congrArg groupName hxx
  refine ⟨x', (c.perm_shown _).mem_iff.2 hx', hblock.trans hname, ?_⟩
  intro y' hy' hname'
  have hy' := (c.perm_shown _).mem_iff.1 hy'
  obtain ⟨y, hy, hyy⟩ := List.mem_map.1 (hperm.mem_iff.1 (List.mem_map_of_mem hy'))
  have hblock' : blockOf y = blockOf y' := congrArg groupName hyy
  have hahead := hfront y ((c.perm_shown l).mem_iff.2 hy) (hblock'.trans hname')
  have hbefore := c.before_iff.1 (Collation.Ahead.before c hahead)
  have hletter : x'.rowLetter = x.rowLetter := congrArg Seat.rowLetter hxx
  have hletter' : y.rowLetter = y'.rowLetter := congrArg Seat.rowLetter hyy
  -- in one row of letters, the numbers follow the order of the blocks
  apply Bool.eq_false_iff.2
  intro hback
  have hback := c.before_iff.1 hback
  rw [hletter, ← hletter'] at hback
  have hlt := hnumber x' hx' y' hy' (hblock.trans hname) hname'
  exact absurd (hback.2 hbefore.1) (Nat.not_le_of_lt hlt)

/-- The blocks are restored in the same order when they have been saved as they were. -/
theorem names_settled (h : Redrawable shape l) : names c (settled c shape l) = names c l := by
  apply firsts_eq_of_leads (c.pairwise_shown h.settled.numbers) _ (nodup_firsts _) _
    (leads_settled h)
  · intro a _ b _ hab
    exact Collation.Ahead.asymm c hab
  · intro name
    show name ∈ names c l ↔ _
    rw [mem_names, List.mem_map]
    simp only [(c.perm_shown _).mem_iff]
    have hperm := perm_settled (c := c) h
    constructor
    · intro hname
      obtain ⟨s, hs, rfl⟩ := hname
      obtain ⟨t, ht, heq⟩ := List.mem_map.1 (hperm.mem_iff.2 (List.mem_map_of_mem hs))
      exact ⟨t, ht, congrArg groupName heq⟩
    · intro hname
      obtain ⟨s, hs, rfl⟩ := hname
      obtain ⟨t, ht, heq⟩ := List.mem_map.1 (hperm.mem_iff.1 (List.mem_map_of_mem hs))
      exact ⟨t, ht, congrArg groupName heq⟩

/-- The second time, not even the numbers change. -/
theorem settled_settled (h : Redrawable shape l) :
    settled c shape (settled c shape l) = settled c shape l := by
  apply handleSave_eq_iff.2
  rw [← toSeat_handleSave, ← toSeat_handleSave]
  calc (settled c shape (settled c shape l)).map (·.toSeat)
      = (names c (settled c shape l)).flatMap
          fun name => rowByRow (seatsNamed (settled c shape l) name) := toSeat_settled h.settled
    _ = (names c l).flatMap fun name => rowByRow (seatsNamed (settled c shape l) name) := by
        rw [names_settled h]
    _ = (names c l).flatMap fun name => rowByRow (seatsNamed l name) := by
        apply List.flatMap_congr
        intro name hname
        exact (h.grid_of_mem hname).rowByRow_eq (seatsNamed_perm name (perm_settled h))
    _ = (settled c shape l).map (·.toSeat) := (toSeat_settled h).symm

theorem settled_congr (h : Redrawable shape l) (hperm : l'.Perm l) :
    settled c shape l' = settled c shape l := by
  unfold settled
  rw [c.shown_eq_of_perm h.numbers hperm]

/-- Seats that are saved row by row stand on one grid. -/
theorem grid_of_oneGrid {g : List Seat} (h : OneGrid g) : Grid g := by
  constructor
  · exact h.letter
  · apply List.pairwise_map.2
    apply h.ordered.imp
    intro s t hbefore heq
    obtain ⟨hcode, hcol⟩ := Prod.mk.inj heq
    unfold Before at hbefore
    dsimp only at hbefore
    omega
  · exact h.category
  · exact h.thousandX
  · exact h.thousandY
  · intro s hs t ht hfirst
    obtain ⟨first, hhead⟩ := exists_first ht
    have hrow := h.row s hs first hhead
    have hle := first_le h.ordered hhead ht
    have hge := hfirst first (List.mem_of_head? hhead)
    omega

/-- What the designer saves of a layout that survives. -/
theorem redrawable_of_restorable {blocks : List LayoutBlock} (h : Restorable shape blocks) :
    Redrawable shape (handleSave shape blocks) := by
  have hseats := toSeat_handleSave shape blocks
  have hsource : ∀ s ∈ handleSave shape blocks, s.toSeat ∈ seats shape blocks :=
    fun s hs => hseats ▸ List.mem_map_of_mem hs
  constructor
  · exact nodup_handleSave shape blocks
  · intro s hs
    obtain ⟨block, -, hseat⟩ := List.mem_flatMap.1 (hsource s hs)
    exact placed_of_mem hseat
  · intro s hs name hname
    obtain ⟨block, hblock, p, -, hseat⟩ := mem_seats.1 (hsource s hs)
    have hlabel : s.blockName = some (nameOf shape block) :=
      (congrArg Seat.blockName hseat).symm
    obtain rfl := Option.some.inj (hlabel.symm.trans hname)
    exact h.name block hblock
  · intro s hs
    unfold seatsNamed
    rw [hseats]
    exact grid_of_oneGrid (grids_of_restorable h s.toSeat (hsource s hs))

end Settled

/-! ## Runs -/

/-- The layout for which the request brings seats of its own. -/
def Request.brings : Request → Option ℤ
  | .addSeats layoutId _ => some layoutId
  | .updateLayout layoutId body => body.seats.map fun _ => layoutId
  | _ => none

/-- The seats of the layout are saved only as they have been restored. -/
def OnlyEdits (k : ℤ) : Crew World Task → CrewAct Outcome ℕ Request → Prop
  | _, .start r => r.brings ≠ some k
  | _, _ => True

instance (k : ℤ) (p : Crew World Task) (a : CrewAct Outcome ℕ Request) :
    Decidable (OnlyEdits k p a) :=
  match a with
  | .start r => inferInstanceAs (Decidable (r.brings ≠ some k))
  | .environ _ => isTrue trivial
  | .run _ _ => isTrue trivial
  | .crash _ => isTrue trivial

/-- The layout has its shape, and the seats as they were or as they are saved. -/
structure Kept (c : Collation) (k : ℤ) (shape : LayoutShape) (l : List SeatInput) (s : World) :
    Prop where
  sound : s.Sound
  there : k ∈ s.layouts.map SeatLayout.id
  shaped : ∀ r ∈ s.layouts, r.id = k → r.layoutShape = shape
  seats : (s.inputsOf k).Perm l ∨ (s.inputsOf k).Perm (settled c shape l)

/-- The rows of the layout stay, or all are new and as they are saved. -/
structure Follows (c : Collation) (k : ℤ) (shape : LayoutShape) (l : List SeatInput)
    (s t : World) : Prop where
  drawn : s.nextSeatId ≤ t.nextSeatId
  seats : t.seatsOf k = s.seatsOf k ∨
    (∀ r ∈ t.seatsOf k, s.nextSeatId ≤ r.id) ∧ (t.inputsOf k).Perm (settled c shape l)

/-- What a transaction has seen of the layout's rows: all of them, or none of those that have replaced
them; and none if it is about another layout. -/
structure Sees (c : Collation) (k : ℤ) (shape : LayoutShape) (l : List SeatInput) (s : World)
    (layoutId : ℤ) (deleted : List ℤ) : Prop where
  drawn : ∀ i ∈ deleted, i < s.nextSeatId
  rows : (∀ r ∈ s.seatsOf k, r.id ∉ deleted) ∧ (layoutId = k → (s.inputsOf k).Perm (settled c shape l))
    ∨ layoutId = k ∧ ∀ r ∈ s.seatsOf k, r.id ∈ deleted

/-- What a task on the layout brings: the seats as they are saved, if any. -/
def Brings (c : Collation) (k : ℤ) (shape : LayoutShape) (l : List SeatInput) (layoutId : ℤ)
    (seats : Option (List SeatInput)) : Prop :=
  layoutId = k → ∀ x ∈ seats, x = settled c shape l

/-- What a task knows of the tables. -/
def Knows (c : Collation) (k : ℤ) (shape : LayoutShape) (l : List SeatInput) (s : World) :
    Task → Prop
  | .verifyLayout layoutId _ => layoutId ≠ k
  | .insertSeats layoutId _ => layoutId ≠ k
  | .setName layoutId _ body => Brings c k shape l layoutId body.seats
  | .setDescription layoutId _ seats => Brings c k shape l layoutId seats
  | .deleteSeats layoutId seats => Brings c k shape l layoutId (some seats)
  | .replaceSeats layoutId deleted seats =>
      Brings c k shape l layoutId (some seats) ∧ Sees c k shape l s layoutId deleted
  | .loadSeats layout => layout.id = k → layout.layoutShape = shape
  | _ => True

section Runs

variable {c : Collation} {k : ℤ} {shape : LayoutShape} {l : List SeatInput} {s t : World}

theorem Follows.refl (s : World) : Follows c k shape l s s :=
  ⟨Int.le_refl _, .inl rfl⟩

theorem inputsOf_congr (h : t.seatsOf k = s.seatsOf k) : t.inputsOf k = s.inputsOf k :=
  congrArg (List.map _) h

/-- What a transaction has seen it has seen. -/
theorem Follows.sees {layoutId : ℤ} {deleted : List ℤ} (h : Follows c k shape l s t) :
    Sees c k shape l s layoutId deleted → Sees c k shape l t layoutId deleted := by
  intro hs
  have hdrawn : ∀ i ∈ deleted, i < t.nextSeatId := fun i hi => (hs.drawn i hi).trans_le h.drawn
  refine ⟨hdrawn, ?_⟩
  cases h.seats with
  | inl hsame =>
      rw [hsame, inputsOf_congr hsame]
      exact hs.rows
  | inr hnew =>
      left
      refine ⟨?_, fun _ => hnew.2⟩
      intro r hr hmem
      exact absurd (hs.drawn r.id hmem) (Int.not_lt.2 (hnew.1 r hr))

theorem Follows.knows {u : Task} (h : Follows c k shape l s t) :
    Knows c k shape l s u → Knows c k shape l t u := by
  intro hu
  cases u with
  | replaceSeats layoutId deleted seats => exact ⟨hu.1, h.sees hu.2⟩
  | _ => exact hu

/-! ### Statements -/

/-- A statement on the table of the layouts. -/
theorem kept_of_layouts (hs : Kept c k shape l s) (hlayouts : ∀ r ∈ t.layouts, r.id < t.nextLayoutId)
    (hthere : k ∈ t.layouts.map SeatLayout.id)
    (hshape : ∀ r ∈ t.layouts, r.id = k → r.layoutShape = shape) (hseats : t.seats = s.seats)
    (hnext : t.nextSeatId = s.nextSeatId) : Kept c k shape l t ∧ Follows c k shape l s t := by
  have hrows : t.seatsOf k = s.seatsOf k := congrArg (List.filter _) hseats
  refine ⟨⟨⟨hlayouts, ?_, ?_⟩, hthere, hshape, ?_⟩, ⟨Int.le_of_eq hnext.symm, .inl hrows⟩⟩
  · rw [hseats, hnext]
    exact hs.sound.seats
  · rw [hseats]
    exact hs.sound.nodup
  · rw [inputsOf_congr hrows]
    exact hs.seats

theorem kept_insertLayout (hs : Kept c k shape l s) (body : CreateLayoutRequest) :
    Kept c k shape l (s.insertLayout body).1 ∧
      Follows c k shape l s (s.insertLayout body).1 := by
  obtain ⟨row, hrow, hid⟩ := List.mem_map.1 hs.there
  apply kept_of_layouts hs
  · intro r hr
    show r.id < s.nextLayoutId + 1
    cases List.mem_append.1 hr with
    | inl hr =>
        have hdrawn := hs.sound.layouts r hr
        omega
    | inr hr =>
        rw [List.mem_singleton.1 hr]
        exact Int.lt_succ _
  · exact List.mem_map.2 ⟨row, List.mem_append_left _ hrow, hid⟩
  · intro r hr hk
    cases List.mem_append.1 hr with
    | inl hr => exact hs.shaped r hr hk
    | inr hr =>
        -- the id that is drawn is a new one
        have hdrawn := hs.sound.layouts row hrow
        rw [List.mem_singleton.1 hr] at hk
        dsimp only at hk
        omega
  · rfl
  · rfl

theorem kept_updateLayoutRow (hs : Kept c k shape l s) {layoutId : ℤ}
    {set : SeatLayout → SeatLayout} (hid : ∀ r, (set r).id = r.id)
    (hset : ∀ r, (set r).layoutShape = r.layoutShape) :
    Kept c k shape l (s.updateLayoutRow layoutId set).1 ∧
      Follows c k shape l s (s.updateLayoutRow layoutId set).1 := by
  have hrow : ∀ r ∈ (s.updateLayoutRow layoutId set).1.layouts,
      ∃ r' ∈ s.layouts, r.id = r'.id ∧ r.layoutShape = r'.layoutShape := by
    intro r hr
    obtain ⟨r', hr', rfl⟩ := List.mem_map.1 hr
    refine ⟨r', hr', ?_⟩
    by_cases h : r'.id = layoutId
    · rw [if_pos h]
      exact ⟨hid r', hset r'⟩
    · rw [if_neg h]
      exact ⟨rfl, rfl⟩
  obtain ⟨row, hmem, hk⟩ := List.mem_map.1 hs.there
  apply kept_of_layouts hs
  · intro r hr
    obtain ⟨r', hr', heq, -⟩ := hrow r hr
    rw [heq]
    exact hs.sound.layouts r' hr'
  · refine List.mem_map.2 ⟨_, List.mem_map_of_mem hmem, ?_⟩
    by_cases h : row.id = layoutId
    · rw [if_pos h, hid, hk]
    · rw [if_neg h, hk]
  · intro r hr hr'
    obtain ⟨r', hmem', heq, hsame⟩ := hrow r hr
    rw [hsame]
    exact hs.shaped r' hmem' (heq ▸ hr')
  · rfl
  · rfl

/-- An insert of seats of another layout. -/
theorem kept_foldl (hs : Kept c k shape l s) {layoutId : ℤ} (hother : layoutId ≠ k)
    (values : List SeatInput) :
    Kept c k shape l (values.foldl (World.insertSeat layoutId) s) ∧
      Follows c k shape l s (values.foldl (World.insertSeat layoutId) s) := by
  have hrows : (values.foldl (World.insertSeat layoutId) s).seatsOf k = s.seatsOf k :=
    World.seatsOf_foldl hother.symm
  have hsound : (values.foldl (World.insertSeat layoutId) s).Sound := hs.sound.foldl
  obtain ⟨rows, heq, -⟩ := World.foldl_insertSeat layoutId values s
  refine ⟨⟨hsound, ?_, ?_, ?_⟩, ⟨?_, .inl hrows⟩⟩
  · rw [heq]
    exact hs.there
  · rw [heq]
    exact hs.shaped
  · rw [inputsOf_congr hrows]
    exact hs.seats
  · rw [heq]
    dsimp only
    omega

/-- A deletion that has seen no row of the layout. -/
theorem kept_without (hs : Kept c k shape l s) {deleted : List ℤ}
    (hnone : ∀ r ∈ s.seatsOf k, r.id ∉ deleted) :
    Kept c k shape l (s.without deleted) ∧ Follows c k shape l s (s.without deleted) := by
  have hrows := World.seatsOf_without_eq hnone
  refine ⟨⟨hs.sound.without deleted, hs.there, hs.shaped, ?_⟩, ⟨Int.le_refl _, .inl hrows⟩⟩
  rw [inputsOf_congr hrows]
  exact hs.seats

/-- An insert of which every row conflicts draws ids, and no more. -/
theorem kept_draw (hs : Kept c k shape l s) (n : ℕ) :
    Kept c k shape l { s with nextSeatId := s.nextSeatId + n } := by
  refine ⟨⟨hs.sound.layouts, ?_, hs.sound.nodup⟩, hs.there, hs.shaped, hs.seats⟩
  intro r hr
  have hdrawn := hs.sound.seats r hr
  dsimp only
  omega

/-- A transaction that has seen all the rows of the layout. -/
theorem kept_replace_seen (hs : Kept c k shape l s) {deleted : List ℤ} {values : List SeatInput}
    (hall : ∀ r ∈ s.seatsOf k, r.id ∈ deleted) (hkeys : (values.map seatKey).Nodup)
    (hvalues : values.Perm (settled c shape l)) :
    Kept c k shape l (values.foldl (World.insertSeat k) (s.without deleted)) ∧
      Follows c k shape l s (values.foldl (World.insertSeat k) (s.without deleted)) := by
  have hsaved : ((values.foldl (World.insertSeat k) (s.without deleted)).inputsOf k).Perm
      (settled c shape l) := by
    rw [World.inputsOf_replaced hall hkeys]
    exact hvalues
  have hsound : (values.foldl (World.insertSeat k) (s.without deleted)).Sound :=
    (hs.sound.without deleted).foldl
  obtain ⟨rows, heq, hrows, -⟩ := World.foldl_insertSeat k values (s.without deleted)
  refine ⟨⟨hsound, ?_, ?_, .inr hsaved⟩, ⟨?_, .inr ⟨?_, hsaved⟩⟩⟩
  · rw [heq]
    exact hs.there
  · rw [heq]
    exact hs.shaped
  · rw [heq]
    show s.nextSeatId ≤ s.nextSeatId + values.length
    omega
  · intro r hr
    rw [heq] at hr
    obtain ⟨hr, hlayout⟩ := List.mem_filter.1 hr
    cases List.mem_append.1 hr with
    | inl hr =>
        obtain ⟨hr, hkept⟩ := List.mem_filter.1 hr
        exact absurd (hall r (List.mem_filter.2 ⟨hr, hlayout⟩)) (of_decide_eq_true hkept)
    | inr hr => exact (hrows r hr).2.1

/-- A transaction that has seen none of the rows of the layout, which are those that it inserts. -/
theorem kept_replace_stale (hs : Kept c k shape l s) (hr : Redrawable shape l) {deleted : List ℤ}
    {values : List SeatInput} (hnone : ∀ r ∈ s.seatsOf k, r.id ∉ deleted)
    (hthere : (s.inputsOf k).Perm (settled c shape l)) (hvalues : values.Perm (settled c shape l)) :
    Kept c k shape l (values.foldl (World.insertSeat k) (s.without deleted)) ∧
      Follows c k shape l s (values.foldl (World.insertSeat k) (s.without deleted)) := by
  have htaken : ∀ seat ∈ values, Conflicts (s.without deleted).seats k seat := by
    intro seat hseat
    obtain ⟨-, -, name, hname⟩ := hr.settled.placed _ (hvalues.mem_iff.1 hseat)
    apply World.conflicts_of_mem
    · rw [hname]
      rfl
    · rw [inputsOf_congr (World.seatsOf_without_eq hnone)]
      exact hthere.mem_iff.2 (hvalues.mem_iff.1 hseat)
  rw [World.foldl_insertSeat_taken htaken]
  refine ⟨kept_draw (kept_without hs hnone).1 values.length, ⟨?_, .inl (World.seatsOf_without_eq hnone)⟩⟩
  show s.nextSeatId ≤ s.nextSeatId + values.length
  omega

/-- The commit of a transaction. -/
theorem kept_replaceSeats (hs : Kept c k shape l s) (hr : Redrawable shape l) {layoutId : ℤ}
    {deleted : List ℤ} {seats : List SeatInput} {hash : SeatInput → ℕ}
    (hbrings : Brings c k shape l layoutId (some seats)) (hsees : Sees c k shape l s layoutId deleted) :
    Kept c k shape l (s.replaceSeats layoutId deleted (uniqueSeats hash seats)).1 ∧
      Follows c k shape l s (s.replaceSeats layoutId deleted (uniqueSeats hash seats)).1 := by
  by_cases hk : layoutId = k
  · subst hk
    obtain rfl : seats = settled c shape l := hbrings rfl seats rfl
    have hkeys : ((settled c shape l).map seatKey).Nodup := nodup_seatKey hr.settled.numbers
    have hvalues := uniqueSeats_perm hash hkeys
    rw [World.replaceSeats_eq hs.there]
    cases hsees.rows with
    | inl h => exact kept_replace_stale hs hr h.1 (h.2 rfl) hvalues
    | inr h => exact kept_replace_seen hs h.2 ((hvalues.map _).nodup_iff.2 hkeys) hvalues
  · have hnone : ∀ r ∈ s.seatsOf k, r.id ∉ deleted := by
      cases hsees.rows with
      | inl h => exact h.1
      | inr h => exact absurd h.1 hk
    obtain ⟨hkept, hfollows⟩ := kept_without hs hnone
    by_cases hthere : layoutId ∈ s.layouts.map SeatLayout.id
    · rw [World.replaceSeats_eq hthere]
      obtain ⟨hkept', hfollows'⟩ := kept_foldl hkept hk (uniqueSeats hash seats)
      refine ⟨hkept', ⟨hfollows.drawn.trans hfollows'.drawn, ?_⟩⟩
      left
      exact (World.seatsOf_foldl (Ne.symm hk)).trans (World.seatsOf_without_eq hnone)
    · cases World.replaceSeats_of_missing hthere deleted (uniqueSeats hash seats) with
      | inl h =>
          rw [h]
          exact ⟨hs, .refl s⟩
      | inr h =>
          rw [h]
          exact ⟨hkept, hfollows⟩

/-! ### Steps -/

/-- A statement that is lost changes nothing, and the operation goes on only after an answer. -/
theorem andThen_keeps {ρ : Type} {link : Link} {run : World → World × ρ} {next : ρ → Option Task}
    (hs : Kept c k shape l s) (hrun : Kept c k shape l (run s).1 ∧ Follows c k shape l s (run s).1)
    (hnext : ∀ u, next (run s).2 = some u → Knows c k shape l (run s).1 u) :
    (Kept c k shape l (andThen (link.deliver run s) next).1 ∧
      Follows c k shape l s (andThen (link.deliver run s) next).1) ∧
      ∀ u, (andThen (link.deliver run s) next).2 = some u →
        Knows c k shape l (andThen (link.deliver run s) next).1 u := by
  cases link with
  | ok => exact ⟨hrun, hnext⟩
  | lost => exact ⟨⟨hs, .refl s⟩, fun u hu => by cases hu⟩
  | unacked => exact ⟨hrun, fun u hu => by cases hu⟩

theorem knows_updateSeats {layoutId : ℤ} {seats : Option (List SeatInput)} {u : Task}
    (h : Brings c k shape l layoutId seats) :
    updateSeats layoutId seats = some u → Knows c k shape l t u := by
  intro hu
  obtain ⟨x, rfl, rfl⟩ := Option.map_eq_some_iff.1 hu
  exact h

theorem knows_updateDescription {layoutId : ℤ} {body : UpdateLayoutRequest} {u : Task}
    (h : Brings c k shape l layoutId body.seats) :
    updateDescription layoutId body = some u → Knows c k shape l t u := by
  unfold updateDescription
  split
  · intro hu
    obtain rfl := Option.some.inj hu
    exact h
  · exact knows_updateSeats h

theorem knows_updateLayout {layoutId : ℤ} {body : UpdateLayoutRequest} {u : Task}
    (h : Brings c k shape l layoutId body.seats) :
    updateLayout layoutId body = some u → Knows c k shape l t u := by
  unfold updateLayout
  split
  · intro hu
    obtain rfl := Option.some.inj hu
    exact h
  · exact knows_updateDescription h

/-- Whatever has been saved, the layout that is opened is saved as it settles. -/
theorem settled_of_shown (hs : Kept c k shape l s) (hr : Redrawable shape l) (scan : ℤ → ℕ) :
    handleSave shape (restore shape false (s.layoutSeats c scan k)) = settled c shape l := by
  have hperm : ((((s.seatsOf k).insertionSort fun a b => scan a.id ≤ scan b.id)).map
      (·.toSeatInput)).Perm (s.inputsOf k) := (List.perm_insertionSort _ _).map _
  show settled c shape _ = settled c shape l
  cases hs.seats with
  | inl h => exact settled_congr hr (hperm.trans h)
  | inr h => exact (settled_congr hr.settled (hperm.trans h)).trans (settled_settled hr)

/-- A step of a task keeps the layout, and what the task knows next is so. -/
theorem exec_keeps (hr : Redrawable shape l) (o : Outcome) (u : Task) (hs : Kept c k shape l s)
    (hu : Knows c k shape l s u) :
    (Kept c k shape l (exec c o u s).1 ∧ Follows c k shape l s (exec c o u s).1) ∧
      ∀ v, (exec c o u s).2 = some v → Knows c k shape l (exec c o u s).1 v := by
  cases u with
  | insertLayout body =>
      apply andThen_keeps hs (kept_insertLayout hs body)
      intro v hv
      cases hv
  | verifyLayout layoutId seats =>
      apply andThen_keeps hs ⟨hs, .refl s⟩
      intro v hv
      obtain ⟨row, -, rfl⟩ := Option.map_eq_some_iff.1 hv
      exact hu
  | insertSeats layoutId seats =>
      apply andThen_keeps hs
      · show Kept c k shape l (s.insertSeats layoutId (uniqueSeats o.hash seats)).1 ∧
          Follows c k shape l s (s.insertSeats layoutId (uniqueSeats o.hash seats)).1
        unfold World.insertSeats
        split_ifs with hthere
        · exact kept_foldl hs hu (uniqueSeats o.hash seats)
        · exact ⟨hs, .refl s⟩
      · intro v hv
        cases hv
  | setName layoutId name body =>
      apply andThen_keeps hs
      · exact kept_updateLayoutRow hs (fun _ => rfl) fun _ => rfl
      · intro v hv
        exact knows_updateDescription hu hv
  | setDescription layoutId description seats =>
      apply andThen_keeps hs
      · exact kept_updateLayoutRow hs (fun _ => rfl) fun _ => rfl
      · intro v hv
        exact knows_updateSeats hu hv
  | deleteSeats layoutId seats =>
      apply andThen_keeps hs ⟨hs, .refl s⟩
      intro v hv
      obtain rfl := Option.some.inj hv
      refine ⟨hu, ⟨?_, ?_⟩⟩
      · intro i hi
        obtain ⟨r, hr, rfl⟩ := List.mem_map.1 hi
        exact hs.sound.seats r (List.mem_filter.1 hr).1
      · by_cases hk : layoutId = k
        · right
          subst hk
          exact ⟨rfl, fun r hr => List.mem_map_of_mem hr⟩
        · left
          refine ⟨?_, fun h => absurd h hk⟩
          intro r hr hmem
          -- no row of another layout has the same id
          obtain ⟨r', hr', hid⟩ := List.mem_map.1 hmem
          obtain ⟨hr, hlayout⟩ := List.mem_filter.1 hr
          obtain ⟨hr', hlayout'⟩ := List.mem_filter.1 hr'
          have heq : r' = r := List.inj_on_of_nodup_map hs.sound.nodup hr' hr hid
          rw [heq] at hlayout'
          exact hk ((of_decide_eq_true hlayout').symm.trans (of_decide_eq_true hlayout))
  | replaceSeats layoutId deleted seats =>
      apply andThen_keeps hs (kept_replaceSeats hs hr hu.1 hu.2)
      intro v hv
      cases hv
  | markDeleted layoutId =>
      apply andThen_keeps hs
      · exact kept_updateLayoutRow hs (fun _ => rfl) fun _ => rfl
      · intro v hv
        cases hv
  | findLayout layoutId =>
      apply andThen_keeps hs ⟨hs, .refl s⟩
      intro v hv
      obtain ⟨row, hrow, rfl⟩ := Option.map_eq_some_iff.1 hv
      intro hk
      exact hs.shaped row (List.mem_of_find?_eq_some hrow) hk
  | loadSeats layout =>
      apply andThen_keeps hs ⟨hs, .refl s⟩
      intro v hv
      apply knows_updateLayout _ hv
      intro hk x hx
      obtain rfl := Option.some.inj hx
      rw [hu hk]
      subst hk
      exact settled_of_shown hs hr o.scan

/-- The layout is kept, and every task knows what it has to. -/
structure EditsInv (c : Collation) (k : ℤ) (shape : LayoutShape) (l : List SeatInput)
    (p : Crew World Task) : Prop where
  kept : Kept c k shape l p.store
  knows : ∀ u, some u ∈ p.tasks → Knows c k shape l p.store u

theorem knows_first {r : Request} {u : Task} (hr : r.brings ≠ some k) :
    first r = some u → Knows c k shape l t u := by
  intro hu
  cases r with
  | createLayout body =>
      have hu : createLayout body = some u := hu
      unfold createLayout at hu
      split_ifs at hu
      obtain rfl := Option.some.inj hu
      trivial
  | addSeats layoutId seats =>
      have hu : addSeatsToLayout layoutId seats = some u := hu
      unfold addSeatsToLayout at hu
      split_ifs at hu
      obtain rfl := Option.some.inj hu
      intro hk
      exact hr (congrArg some hk)
  | updateLayout layoutId body =>
      apply knows_updateLayout _ hu
      intro hk x hx
      have hbrings : (Request.updateLayout layoutId body).brings = some layoutId :=
        Option.map_eq_some_iff.2 ⟨x, hx, rfl⟩
      exact absurd (hk ▸ hbrings) hr
  | deleteLayout layoutId =>
      obtain rfl := Option.some.inj hu
      trivial
  | edit layoutId =>
      obtain rfl := Option.some.inj hu
      trivial

theorem edits_step (hr : Redrawable shape l) {p q : Crew World Task}
    {a : CrewAct Outcome ℕ Request} (hp : EditsInv c k shape l p) (hG : OnlyEdits k p a)
    (hst : (handlers c).system.step p a = some q) :
    EditsInv c k shape l q ∧ Follows c k shape l p.store q.store := by
  cases a with
  | environ d =>
      obtain rfl := Option.some.inj hst
      obtain ⟨hkept, hfollows⟩ := kept_of_layouts (t := { p.store with now := p.store.now + d })
        hp.kept hp.kept.sound.layouts hp.kept.there hp.kept.shaped rfl rfl
      exact ⟨⟨hkept, fun u hu => hfollows.knows (hp.knows u hu)⟩, hfollows⟩
  | start r =>
      obtain rfl := Option.some.inj hst
      refine ⟨⟨hp.kept, ?_⟩, .refl _⟩
      intro u hu
      cases List.mem_append.1 hu with
      | inl hu => exact hp.knows u hu
      | inr hu => exact knows_first hG (List.mem_singleton.1 hu).symm
  | run i o =>
      obtain ⟨u, hu, rfl⟩ := Handlers.step_run (H := handlers c) hst
      obtain ⟨⟨hkept, hfollows⟩, hnext⟩ :=
        exec_keeps hr o u hp.kept (hp.knows u (List.mem_of_getElem? hu))
      refine ⟨⟨hkept, ?_⟩, hfollows⟩
      intro v hv
      cases List.mem_or_eq_of_mem_set hv with
      | inl hv => exact hfollows.knows (hp.knows v hv)
      | inr hv => exact hnext v hv.symm
  | crash i =>
      obtain ⟨u, -, rfl⟩ := Handlers.step_crash (H := handlers c) hst
      refine ⟨⟨hp.kept, ?_⟩, .refl _⟩
      intro v hv
      cases List.mem_or_eq_of_mem_set hv with
      | inl hv => exact hp.knows v hv
      | inr hv => cases hv

/-- In a run, the layout is kept, and once it has settled it stays so. -/
theorem edits_run (hr : Redrawable shape l) {p q : Crew World Task} (hp : EditsInv c k shape l p)
    (hq : ((handlers c).system.startingAt p).ReachableUnder (OnlyEdits k) q) :
    EditsInv c k shape l q ∧ ((p.store.inputsOf k).Perm (settled c shape l) →
      (q.store.inputsOf k).Perm (settled c shape l)) := by
  apply System.invariant (I := fun q => EditsInv c k shape l q ∧
    ((p.store.inputsOf k).Perm (settled c shape l) →
      (q.store.inputsOf k).Perm (settled c shape l))) _ _ hq
  · intro q hq
    obtain rfl : q = p := hq
    exact ⟨hp, id⟩
  · intro q a r hq hG hst
    obtain ⟨hinv, hfollows⟩ := edits_step hr hq.1 hG hst
    refine ⟨hinv, ?_⟩
    intro hsettled
    cases hfollows.seats with
    | inl h =>
        rw [inputsOf_congr h]
        exact hq.2 hsettled
    | inr h => exact h.2

end Runs

/-- However many admins open a layout and save it as it is, at once or one after the other, and whatever
is lost of it, no seat of it is lost, doubled or changed; the seats are numbered anew at most once. -/
theorem edits_keep_seats (c : Collation) {k : ℤ} {shape : LayoutShape} {s : World} (hs : s.Sound)
    (hthere : k ∈ s.layouts.map SeatLayout.id)
    (hshape : ∀ r ∈ s.layouts, r.id = k → r.layoutShape = shape)
    (hr : Redrawable shape (s.inputsOf k)) {p : Crew World Task}
    (hp : ((handlers c).system.startingAt ⟨s, []⟩).ReachableUnder (OnlyEdits k) p) :
    ((p.store.inputsOf k).map (·.toSeat)).Perm ((s.inputsOf k).map (·.toSeat)) ∧
      ((p.store.inputsOf k).Perm (s.inputsOf k) ∨
        (p.store.inputsOf k).Perm (settled c shape (s.inputsOf k))) ∧
      ∀ q, ((handlers c).system.startingAt p).ReachableUnder (OnlyEdits k) q →
        (p.store.inputsOf k).Perm (settled c shape (s.inputsOf k)) →
          (q.store.inputsOf k).Perm (settled c shape (s.inputsOf k)) := by
  have hstart : EditsInv c k shape (s.inputsOf k) ⟨s, []⟩ :=
    ⟨⟨hs, hthere, hshape, .inl (List.Perm.refl _)⟩, fun u hu => absurd hu List.not_mem_nil⟩
  have hinv := (edits_run hr hstart hp).1
  refine ⟨?_, hinv.kept.seats, fun q hq => (edits_run hr hinv hq).2⟩
  cases hinv.kept.seats with
  | inl h => exact h.map _
  | inr h => exact (h.map _).trans (perm_settled hr)

/-! ### A run on fixed inputs -/

/-- Texts by their units. -/
def byUnits : Collation where
  le a b := decide (a ≤ b)
  preorders := by
    constructor
    · intro a b
      simpa using le_total a b
    · intro a b c
      simpa using le_trans

/-- One seat in a row. -/
def oneRow (name row : String) (y : ℤ) : LayoutBlock where
  labels := { name := text name, direction := [], gate := [], stand := [] }
  category := .standard
  rowStart := text row
  rowEnd := text row
  colStart := 1
  colEnd := 1
  x := 20
  y := y
  disabledSeats := []

/-- The row B is saved in front of the row A. -/
def twoRows : World where
  now := 0
  layouts := [⟨1, text "Hall", none, .rectangular, none⟩]
  seats := ((handleSave .rectangular [oneRow "Left" "B" 0, oneRow "Right" "A" 90]).zipIdx).map
    fun x => { toSeatInput := x.1, id := x.2, layoutId := 1 }
  nextLayoutId := 2
  nextSeatId := 2

theorem grid_singleton {seat : Seat} {u : ℕ} (hletter : seat.rowLetter = [u])
    (hrow : seat.y % 1000 = 0) : Grid [seat] := by
  constructor
  · simp [hletter]
  · simp
  · simp
  · simp
  · simp
  · simp [hrow]

theorem redrawable_twoRows : Redrawable .rectangular (twoRows.inputsOf 1) := by
  have hseats : ∀ seat ∈ twoRows.inputsOf 1,
      (seat.xPos = some seat.x ∧ seat.yPos = some seat.y ∧ seat.blockName.isSome = true) ∧
      (seat.blockName ≠ some [] ∧ ∀ name ∈ seat.blockName, ¬blockPrefix <+: name) ∧
      seatsNamed (twoRows.inputsOf 1) (blockOf seat) = [seat.toSeat] ∧
      seat.rowLetter = [seat.code] ∧ seat.y % 1000 = 0 := by
    decide +kernel
  constructor
  · decide +kernel
  · intro seat hseat
    obtain ⟨⟨hx, hy, hname⟩, -⟩ := hseats seat hseat
    exact ⟨hx, hy, Option.isSome_iff_exists.1 hname⟩
  · intro seat hseat name hname
    obtain ⟨-, ⟨hne, hplain⟩, -⟩ := hseats seat hseat
    refine ⟨?_, hplain name hname⟩
    rintro rfl
    exact hne hname
  · intro seat hseat
    obtain ⟨-, -, hpart, hletter, hrow⟩ := hseats seat hseat
    rw [hpart]
    exact grid_singleton hletter hrow

def answered : Outcome := ⟨.ok, fun _ => 0, fun _ => 0⟩

/-- Two admins save the layout as it is, and each deletes the rows that both have seen. -/
def savedTwice : List (CrewAct Outcome ℕ Request) :=
  [.start (.edit 1), .start (.edit 1)] ++
    (List.replicate 6 [.run 0 answered, .run 1 answered]).flatten

theorem edits_keep_seats_twice : ∃ p : Crew World Task,
    (p.store.seats.map fun r => (r.rowLetter, r.seatNumber)) = [(text "A", 1), (text "B", 2)] ∧
      ((p.store.inputsOf 1).map (·.toSeat)).Perm ((twoRows.inputsOf 1).map (·.toSeat)) := by
  obtain ⟨p, hp, h⟩ := System.exists_reachable_of_runUnder
    ((handlers byUnits).system.startingAt ⟨twoRows, []⟩) (OnlyEdits 1)
    (fun p : Crew World Task => decide ((p.store.seats.map fun r => (r.rowLetter, r.seatNumber)) =
      [(text "A", 1), (text "B", 2)])) (s := ⟨twoRows, []⟩) rfl savedTwice (by decide +kernel)
  have hsound : twoRows.Sound := ⟨by decide, by decide +kernel, by decide +kernel⟩
  exact ⟨p, of_decide_eq_true h,
    (edits_keep_seats byUnits hsound (by decide) (by decide) redrawable_twoRows hp).1⟩

end LayoutStore
end Bookit
