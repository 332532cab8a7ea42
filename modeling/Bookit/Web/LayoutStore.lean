import Bookit.Lib.StableSort
import Bookit.Lib.Tasks
import Bookit.Lib.Threads
import Bookit.Web.SeatDesigner

/-!
# Web.LayoutStore — saved seat layouts

The administration inserts a layout, adds the seats of its designer to it, and replaces them whenever
the layout is edited.  A statement is one step.  The transaction that replaces the seats is two: its
deletion sees the rows that are committed when it starts, and nothing of it is seen before it commits.
A statement that the database refuses, for a text or a number that does not fit its column, is as one
that is lost.

Opening a layout for editing, the page reads its rows, and its designer restores the blocks of them.
-/

namespace Bookit
namespace LayoutStore

open Lib SeatDesigner

/-! ## Rows -/

/-- A row of `seat_layouts`. -/
structure SeatLayout where
  id : ℤ
  name : Text
  description : Option Text
  layoutShape : LayoutShape
  deletedAt : Option ℕ
  deriving DecidableEq

/-- A row of `seat_layout_seats`. -/
structure SeatLayoutSeat extends SeatInput where
  id : ℤ
  layoutId : ℤ
  deriving DecidableEq

structure World where
  now : ℕ
  layouts : List SeatLayout
  seats : List SeatLayoutSeat
  /-- The next values of the serial columns. -/
  nextLayoutId : ℤ
  nextSeatId : ℤ

/-! ## Requests -/

structure CreateLayoutRequest where
  name : Text
  description : Option Text
  layoutShape : LayoutShape
  deriving DecidableEq

structure UpdateLayoutRequest where
  name : Option Text
  description : Option Text
  seats : Option (List SeatInput)
  deriving DecidableEq

/-- White space that the server trims; the browser trims a mark of byte order too, and not the next
line. -/
def isWhitespace (u : ℕ) : Bool :=
  (isSpace u && decide (u ≠ 0xFEFF)) || decide (u = 0x85)

/-- What makes two seats of a request one. -/
abbrev SeatKey := Option Text × Text × ℕ

def seatKey (seat : SeatInput) : SeatKey :=
  (seat.blockName, seat.rowLetter, seat.seatNumber)

/-- `unique_seats.insert(key, seat)`. -/
def putSeat (unique : List SeatInput) (seat : SeatInput) : List SeatInput :=
  if seatKey seat ∈ unique.map seatKey then
    unique.map fun s => if seatKey s = seatKey seat then seat else s
  else
    unique ++ [seat]

/-- The values of the map of the seats, in the order that the map's hasher gives. -/
def uniqueSeats (hash : SeatInput → ℕ) (seats : List SeatInput) : List SeatInput :=
  (seats.foldl putSeat []).insertionSort fun a b => hash a ≤ hash b

/-! ## Statements -/

/-- A row of the layout has the block, the letter and the number; a seat of no block conflicts with
none. -/
def Conflicts (rows : List SeatLayoutSeat) (layoutId : ℤ) (seat : SeatInput) : Prop :=
  seat.blockName.isSome = true ∧
    ∃ r ∈ rows, r.layoutId = layoutId ∧ seatKey r.toSeatInput = seatKey seat

instance (rows : List SeatLayoutSeat) (layoutId : ℤ) (seat : SeatInput) :
    Decidable (Conflicts rows layoutId seat) := by
  unfold Conflicts
  infer_instance

namespace World

variable (s : World)

def seatsOf (layoutId : ℤ) : List SeatLayoutSeat :=
  s.seats.filter fun r => decide (r.layoutId = layoutId)

/-- The seats of the layout, as they have been saved. -/
def inputsOf (layoutId : ℤ) : List SeatInput :=
  (s.seatsOf layoutId).map (·.toSeatInput)

def findLayout (layoutId : ℤ) : Option SeatLayout :=
  s.layouts.find? fun r => decide (r.id = layoutId)

def insertLayout (body : CreateLayoutRequest) : World × Unit :=
  ({ s with
      nextLayoutId := s.nextLayoutId + 1
      layouts := s.layouts ++
        [{ id := s.nextLayoutId, name := body.name, description := body.description
           layoutShape := body.layoutShape, deletedAt := none }] },
    ())

def updateLayoutRow (layoutId : ℤ) (set : SeatLayout → SeatLayout) : World × Unit :=
  ({ s with layouts := s.layouts.map fun r => if r.id = layoutId then set r else r }, ())

/-- One row of an insert that does nothing on a conflict; the serial column moves on in any case. -/
def insertSeat (layoutId : ℤ) (s : World) (seat : SeatInput) : World :=
  if Conflicts s.seats layoutId seat then
    { s with nextSeatId := s.nextSeatId + 1 }
  else
    { s with
      nextSeatId := s.nextSeatId + 1
      seats := s.seats ++ [{ toSeatInput := seat, id := s.nextSeatId, layoutId := layoutId }] }

/-- The insert of seats, which fails where there is no such layout. -/
def insertSeats (layoutId : ℤ) (values : List SeatInput) : World × Option Unit :=
  if layoutId ∈ s.layouts.map SeatLayout.id then
    (values.foldl (insertSeat layoutId) s, some ())
  else
    (s, none)

/-- The rows that the deletion of a transaction sees when it starts. -/
def snapshot (layoutId : ℤ) : World × List ℤ :=
  (s, (s.seatsOf layoutId).map SeatLayoutSeat.id)

/-- The commit of a transaction that has deleted the rows of its snapshot and inserted the values; it
is rolled back where the insert fails. -/
def replaceSeats (layoutId : ℤ) (deleted : List ℤ) (values : List SeatInput) :
    World × Option Unit :=
  let left := { s with seats := s.seats.filter fun r => decide (r.id ∉ deleted) }
  if values = [] then
    (left, some ())
  else
    match left.insertSeats layoutId values with
    | (t, some ()) => (t, some ())
    | (_, none) => (s, none)

end World

/-- How the database orders texts. -/
structure Collation where
  le : Text → Text → Bool
  preorders : StableSort.Preorders le

/-- Not after in the order by letter and number. -/
def Collation.before (c : Collation) (a b : SeatInput) : Bool :=
  if c.le a.rowLetter b.rowLetter then
    !c.le b.rowLetter a.rowLetter || decide (a.seatNumber ≤ b.seatNumber)
  else
    false

/-- The rows of a layout, by letter and number; `scan` is the order in which they are found. -/
def World.layoutSeats (s : World) (c : Collation) (scan : ℤ → ℕ) (layoutId : ℤ) :
    List SeatInput :=
  StableSort.sorted c.before
    (((s.seatsOf layoutId).insertionSort fun a b => scan a.id ≤ scan b.id).map (·.toSeatInput))

/-! ## Tasks -/

/-- What is left of an operation. -/
inductive Task where
  -- `create_layout`
  | insertLayout (body : CreateLayoutRequest)
  -- `add_seats_to_layout`
  | verifyLayout (layoutId : ℤ) (seats : List SeatInput)
  | insertSeats (layoutId : ℤ) (seats : List SeatInput)
  -- `update_layout`
  | setName (layoutId : ℤ) (name : Text) (body : UpdateLayoutRequest)
  | setDescription (layoutId : ℤ) (description : Text) (seats : Option (List SeatInput))
  | deleteSeats (layoutId : ℤ) (seats : List SeatInput)
  | replaceSeats (layoutId : ℤ) (deleted : List ℤ) (seats : List SeatInput)
  -- `delete_layout`
  | markDeleted (layoutId : ℤ)
  -- `get_layout_seats`, of a layout that is opened for editing
  | findLayout (layoutId : ℤ)
  | loadSeats (layout : SeatLayout)

def createLayout (body : CreateLayoutRequest) : Option Task :=
  if strip isSpace body.name = [] ∨ strip isWhitespace body.name = [] then none
  else some (.insertLayout body)

def addSeatsToLayout (layoutId : ℤ) (seats : List SeatInput) : Option Task :=
  if seats = [] then none else some (.verifyLayout layoutId seats)

def updateSeats (layoutId : ℤ) (seats : Option (List SeatInput)) : Option Task :=
  seats.map (.deleteSeats layoutId)

def updateDescription (layoutId : ℤ) (body : UpdateLayoutRequest) : Option Task :=
  match body.description with
  | some description => some (.setDescription layoutId description body.seats)
  | none => updateSeats layoutId body.seats

def updateLayout (layoutId : ℤ) (body : UpdateLayoutRequest) : Option Task :=
  match body.name with
  | some name => some (.setName layoutId name body)
  | none => updateDescription layoutId body

/-- The page saves the blocks as its designer has restored them. -/
def handleSaveSeats (layout : SeatLayout) (initialSeats : List SeatInput) : Option Task :=
  updateLayout layout.id
    { name := some layout.name
      description := some (layout.description.getD [])
      seats := some (handleSave layout.layoutShape
        (restore layout.layoutShape false initialSeats)) }

/-- What the run chooses for a step: what becomes of its request, the hasher of a map, and the order in
which rows are found. -/
structure Outcome where
  link : Link
  hash : SeatInput → ℕ
  scan : ℤ → ℕ

/-- What follows a statement that was answered. -/
def andThen {ρ : Type} (x : World × Option ρ) (next : ρ → Option Task) : World × Option Task :=
  (x.1, x.2.bind next)

/-- The step of a task: its statement over the link, and what the operation does next. -/
def exec (c : Collation) (o : Outcome) : Task → World → World × Option Task
  | .insertLayout body, s =>
      andThen (o.link.deliver (World.insertLayout · body) s) fun _ => none
  | .verifyLayout layoutId seats, s =>
      andThen (o.link.deliver (fun s => (s, s.findLayout layoutId)) s) fun found =>
        found.map fun _ => .insertSeats layoutId seats
  | .insertSeats layoutId seats, s =>
      andThen (o.link.deliver (World.insertSeats · layoutId (uniqueSeats o.hash seats)) s)
        fun _ => none
  | .setName layoutId name body, s =>
      andThen (o.link.deliver (World.updateLayoutRow · layoutId fun r => { r with name := name }) s)
        fun _ => updateDescription layoutId body
  | .setDescription layoutId description seats, s =>
      andThen (o.link.deliver (World.updateLayoutRow · layoutId fun r =>
          { r with description := some description }) s)
        fun _ => updateSeats layoutId seats
  | .deleteSeats layoutId seats, s =>
      andThen (o.link.deliver (World.snapshot · layoutId) s) fun deleted =>
        some (.replaceSeats layoutId deleted seats)
  | .replaceSeats layoutId deleted seats, s =>
      andThen (o.link.deliver
        (World.replaceSeats · layoutId deleted (uniqueSeats o.hash seats)) s) fun _ => none
  | .markDeleted layoutId, s =>
      andThen (o.link.deliver (World.updateLayoutRow · layoutId fun r =>
          { r with deletedAt := some s.now }) s)
        fun _ => none
  | .findLayout layoutId, s =>
      andThen (o.link.deliver (fun s => (s, s.findLayout layoutId)) s) fun found =>
        found.map .loadSeats
  | .loadSeats layout, s =>
      andThen (o.link.deliver (fun s => (s, s.layoutSeats c o.scan layout.id)) s)
        (handleSaveSeats layout)

inductive Request where
  | createLayout (body : CreateLayoutRequest)
  | addSeats (layoutId : ℤ) (seats : List SeatInput)
  | updateLayout (layoutId : ℤ) (body : UpdateLayoutRequest)
  | deleteLayout (layoutId : ℤ)
  /-- A layout is opened for editing, and saved as it is. -/
  | edit (layoutId : ℤ)

def first : Request → Option Task
  | .createLayout body => createLayout body
  | .addSeats layoutId seats => addSeatsToLayout layoutId seats
  | .updateLayout layoutId body => updateLayout layoutId body
  | .deleteLayout layoutId => some (.markDeleted layoutId)
  | .edit layoutId => some (.findLayout layoutId)

/-- The ids of the rows are drawn from their serial columns. -/
structure World.Sound (s : World) : Prop where
  layouts : ∀ r ∈ s.layouts, r.id < s.nextLayoutId
  seats : ∀ r ∈ s.seats, r.id < s.nextSeatId
  nodup : (s.seats.map SeatLayoutSeat.id).Nodup

/-- From any tables; time passes. -/
def handlers (c : Collation) : Handlers World Task Outcome ℕ Request where
  init := World.Sound
  environ d s := { s with now := s.now + d }
  first := first
  exec := exec c

/-! ## What the statements do -/

section Statements

variable {s : World} {layoutId other : ℤ} {values seats : List SeatInput}

theorem nodup_seatKey (h : (values.map (·.seatNumber)).Nodup) : (values.map seatKey).Nodup := by
  apply List.Nodup.of_map fun key : SeatKey => key.2.2
  rw [List.map_map]
  exact h

/-- A map keeps seats with keys of their own, in an order of its own. -/
theorem uniqueSeats_perm (hash : SeatInput → ℕ) (h : (seats.map seatKey).Nodup) :
    (uniqueSeats hash seats).Perm seats := by
  have hput : ∀ rest unique : List SeatInput, ((unique ++ rest).map seatKey).Nodup →
      rest.foldl putSeat unique = unique ++ rest := by
    intro rest
    induction rest with
    | nil => simp
    | cons seat rest ih =>
        intro unique hnodup
        have hnew : seatKey seat ∉ unique.map seatKey := by
          rw [List.map_append, List.map_cons] at hnodup
          intro hmem
          exact (List.nodup_append.1 hnodup).2.2 _ hmem _ List.mem_cons_self rfl
        rw [List.foldl_cons, putSeat, if_neg hnew, ih]
        · simp
        · simpa using hnodup
  apply (List.perm_insertionSort _ _).trans
  rw [hput seats [] h]
  exact List.Perm.refl _

namespace World

/-- An insert adds rows of the layout, under ids that it draws. -/
theorem foldl_insertSeat (layoutId : ℤ) (values : List SeatInput) (s : World) : ∃ rows,
    values.foldl (insertSeat layoutId) s =
      { s with seats := s.seats ++ rows, nextSeatId := s.nextSeatId + values.length } ∧
    (∀ r ∈ rows, r.layoutId = layoutId ∧ s.nextSeatId ≤ r.id ∧
      r.id < s.nextSeatId + values.length) ∧
    (rows.map SeatLayoutSeat.id).Nodup := by
  induction values generalizing s with
  | nil => exact ⟨[], by simp, by simp, List.nodup_nil⟩
  | cons seat values ih =>
      obtain ⟨rows, heq, hrows, hnodup⟩ := ih (insertSeat layoutId s seat)
      rw [List.foldl_cons, heq, List.length_cons]
      by_cases hconflict : Conflicts s.seats layoutId seat
      · rw [insertSeat, if_pos hconflict] at hrows ⊢
        refine ⟨rows, ?_, ?_, hnodup⟩
        · simp only [mk.injEq, true_and]
          omega
        · intro r hr
          have h := hrows r hr
          dsimp only at h
          exact ⟨h.1, by omega, by omega⟩
      · rw [insertSeat, if_neg hconflict] at hrows ⊢
        refine ⟨{ toSeatInput := seat, id := s.nextSeatId, layoutId := layoutId } :: rows, ?_, ?_, ?_⟩
        · simp only [mk.injEq, true_and, List.append_assoc, List.singleton_append]
          omega
        · intro r hr
          cases List.mem_cons.1 hr with
          | inl heq =>
              subst heq
              exact ⟨rfl, Int.le_refl _, by dsimp only; omega⟩
          | inr hr =>
              have h := hrows r hr
              dsimp only at h
              exact ⟨h.1, by omega, by omega⟩
        · rw [List.map_cons, List.nodup_cons]
          refine ⟨?_, hnodup⟩
          intro hmem
          obtain ⟨r, hr, heq⟩ := List.mem_map.1 hmem
          have h := hrows r hr
          dsimp only at h heq
          omega

theorem seatsOf_append {rows : List SeatLayoutSeat} {n : ℤ} :
    ({ s with seats := s.seats ++ rows, nextSeatId := n } : World).seatsOf other =
      s.seatsOf other ++ rows.filter fun r => decide (r.layoutId = other) :=
  List.filter_append _ _

/-- The rows of the other layouts stay. -/
theorem seatsOf_foldl (h : other ≠ layoutId) :
    (values.foldl (insertSeat layoutId) s).seatsOf other = s.seatsOf other := by
  obtain ⟨rows, heq, hrows, -⟩ := foldl_insertSeat layoutId values s
  have hnone : rows.filter (fun r => decide (r.layoutId = other)) = [] := by
    apply List.filter_eq_nil_iff.2
    intro r hr hother
    exact h ((of_decide_eq_true hother).symm.trans (hrows r hr).1)
  rw [heq, seatsOf_append, hnone, List.append_nil]

/-- Seats that are there already are not inserted. -/
theorem foldl_insertSeat_taken (h : ∀ seat ∈ values, Conflicts s.seats layoutId seat) :
    values.foldl (insertSeat layoutId) s =
      { s with nextSeatId := s.nextSeatId + values.length } := by
  induction values generalizing s with
  | nil => simp
  | cons seat values ih =>
      have hrest : ∀ seat ∈ values, Conflicts s.seats layoutId seat :=
        fun x hx => h x (List.mem_cons_of_mem seat hx)
      have htail := ih (s := { s with nextSeatId := s.nextSeatId + 1 }) hrest
      rw [List.foldl_cons, insertSeat, if_pos (h seat List.mem_cons_self), htail]
      simp only [mk.injEq, true_and, List.length_cons]
      omega

/-- Where none is there, and no two are the same, all are. -/
theorem inputsOf_foldl (hkeys : (values.map seatKey).Nodup) :
    (∀ seat ∈ values, ¬Conflicts s.seats layoutId seat) →
      (values.foldl (insertSeat layoutId) s).inputsOf layoutId = s.inputsOf layoutId ++ values := by
  induction values generalizing s with
  | nil => simp
  | cons seat values ih =>
      intro hfree
      obtain ⟨hnew, hkeys⟩ := List.nodup_cons.1 hkeys
      rw [List.foldl_cons, insertSeat, if_neg (hfree seat List.mem_cons_self), ih hkeys]
      · unfold inputsOf seatsOf
        simp
      · intro x hx hconflict
        obtain ⟨hname, r, hr, hlayout, hkey⟩ := hconflict
        cases List.mem_append.1 hr with
        | inl hr => exact hfree x (List.mem_cons_of_mem seat hx) ⟨hname, r, hr, hlayout, hkey⟩
        | inr hr =>
            rw [List.mem_singleton.1 hr] at hkey
            exact hnew (List.mem_map.2 ⟨x, hx, hkey.symm⟩)

theorem Sound.foldl (h : s.Sound) : (values.foldl (insertSeat layoutId) s).Sound := by
  obtain ⟨rows, heq, hrows, hnodup⟩ := foldl_insertSeat layoutId values s
  rw [heq]
  constructor
  · exact h.layouts
  · intro r hr
    dsimp only
    cases List.mem_append.1 hr with
    | inl hr =>
        have hdrawn := h.seats r hr
        omega
    | inr hr => exact (hrows r hr).2.2
  · rw [List.map_append]
    apply List.nodup_append.2
    refine ⟨h.nodup, hnodup, ?_⟩
    intro i hi j hj
    obtain ⟨r, hr, rfl⟩ := List.mem_map.1 hi
    obtain ⟨r', hr', rfl⟩ := List.mem_map.1 hj
    have hdrawn := h.seats r hr
    have hlater := (hrows r' hr').2.1
    omega

/-- The tables without some rows. -/
def without (s : World) (deleted : List ℤ) : World :=
  { s with seats := s.seats.filter fun r => decide (r.id ∉ deleted) }

theorem Sound.without (h : s.Sound) (deleted : List ℤ) : (s.without deleted).Sound where
  layouts := h.layouts
  seats r hr := h.seats r (List.mem_filter.1 hr).1
  nodup := h.nodup.sublist (List.filter_sublist.map _)

theorem seatsOf_without (deleted : List ℤ) :
    (s.without deleted).seatsOf other =
      (s.seatsOf other).filter fun r => decide (r.id ∉ deleted) := by
  unfold seatsOf World.without
  rw [List.filter_filter, List.filter_filter]
  apply List.filter_congr
  intro r _
  exact Bool.and_comm _ _

/-- A transaction on a layout that is there leaves what its snapshot has not, and its values. -/
theorem replaceSeats_eq (h : layoutId ∈ s.layouts.map SeatLayout.id) (deleted : List ℤ) :
    (s.replaceSeats layoutId deleted values).1 =
      values.foldl (insertSeat layoutId) (s.without deleted) := by
  unfold replaceSeats
  by_cases hnil : values = []
  · subst hnil
    rfl
  · have hinsert : (s.without deleted).insertSeats layoutId values =
        (values.foldl (insertSeat layoutId) (s.without deleted), some ()) := if_pos h
    dsimp only
    rw [if_neg hnil]
    show (match (s.without deleted).insertSeats layoutId values with
      | (t, some ()) => (t, some ())
      | (_, none) => (s, none)).1 = _
    rw [hinsert]

theorem seatsOf_without_eq {deleted : List ℤ} (hnone : ∀ r ∈ s.seatsOf other, r.id ∉ deleted) :
    (s.without deleted).seatsOf other = s.seatsOf other := by
  rw [seatsOf_without]
  apply List.filter_eq_self.2
  intro r hr
  exact decide_eq_true (hnone r hr)

/-- A transaction that has seen all the rows of the layout leaves its values. -/
theorem inputsOf_replaced {deleted : List ℤ} (hall : ∀ r ∈ s.seatsOf layoutId, r.id ∈ deleted)
    (hkeys : (values.map seatKey).Nodup) :
    (values.foldl (insertSeat layoutId) (s.without deleted)).inputsOf layoutId = values := by
  have hnone : (s.without deleted).seatsOf layoutId = [] := by
    rw [seatsOf_without]
    apply List.filter_eq_nil_iff.2
    intro r hr hkept
    exact absurd (hall r hr) (of_decide_eq_true hkept)
  rw [inputsOf_foldl hkeys]
  · unfold inputsOf
    rw [hnone]
    rfl
  · intro seat _ hconflict
    obtain ⟨-, r, hr, hlayout, -⟩ := hconflict
    have hmem : r ∈ (s.without deleted).seatsOf layoutId :=
      List.mem_filter.2 ⟨hr, decide_eq_true hlayout⟩
    rw [hnone] at hmem
    exact absurd hmem List.not_mem_nil

/-- The seats of the layout are there already. -/
theorem conflicts_of_mem {seat : SeatInput} (hname : seat.blockName.isSome = true)
    (hmem : seat ∈ s.inputsOf layoutId) : Conflicts s.seats layoutId seat := by
  obtain ⟨r, hr, rfl⟩ := List.mem_map.1 hmem
  obtain ⟨hr, hlayout⟩ := List.mem_filter.1 hr
  exact ⟨hname, r, hr, of_decide_eq_true hlayout, rfl⟩

/-- Where there is no layout, nothing is inserted. -/
theorem replaceSeats_of_missing (h : layoutId ∉ s.layouts.map SeatLayout.id) (deleted : List ℤ)
    (values : List SeatInput) :
    (s.replaceSeats layoutId deleted values).1 = s ∨
      (s.replaceSeats layoutId deleted values).1 = s.without deleted := by
  unfold replaceSeats
  by_cases hnil : values = []
  · exact .inr (congrArg Prod.fst (if_pos hnil))
  · have hinsert : (s.without deleted).insertSeats layoutId values =
        (s.without deleted, none) := if_neg h
    dsimp only
    rw [if_neg hnil]
    left
    show (match (s.without deleted).insertSeats layoutId values with
      | (t, some ()) => (t, some ())
      | (_, none) => (s, none)).1 = _
    rw [hinsert]

end World

end Statements

end LayoutStore
end Bookit
