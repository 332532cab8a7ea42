import Bookit.Web.ListCaches
import Bookit.Web.SeatNumbering
import Mathlib.Data.Rat.Floor

/-!
# Web.ScheduleHandlers — what admins write of schedules and their seats

`create_schedule` loads the seats of a layout, inserts the schedule, and inserts the copied seats by a
statement of its own; `update_schedule` reads a schedule, and writes the fields that its request has;
`add_extra_seats` is one transaction.  Any number of these run at once, a statement at a time, and each
statement is answered, or its request or its answer is lost.

Layouts and the prices of seats are edited elsewhere, and so are the cached lists.
-/

namespace Bookit
namespace ScheduleHandlers

open Lib
open Accounts (trim)
open ListCaches (ObjectId TimeSlot)
open Payments (AppError SeatStatus)
open Schedules (LifecycleState)
open Search (ShowType parseObjectId)
open SeatNumbering (LayoutSeatClass SeatLayoutSeat)

/-! ## Times and prices -/

/-- A time of a request: the seconds since 2000, and the nanoseconds of the second.  A leap second is the
second before it with 10⁹ nanoseconds and more. -/
structure Instant where
  seconds : ℤ
  nanos : ℕ
  deriving DecidableEq

namespace Instant

def lt (a b : Instant) : Prop :=
  a.seconds < b.seconds ∨ (a.seconds = b.seconds ∧ a.nanos < b.nanos)

instance (a b : Instant) : Decidable (a.lt b) := by
  unfold lt
  infer_instance

/-- The value of a column with time zone, in microseconds. -/
def micros (t : Instant) : ℤ :=
  (t.seconds * 10 ^ 9 + t.nanos).tdiv 1000

end Instant

/-- To the nearest number, halves away from zero. -/
def roundHalfAway (x : ℚ) : ℤ :=
  if 0 ≤ x then (x + 1 / 2).floor else -(-x + 1 / 2).floor

/-- The value of a column of type `NUMERIC(10,2)`; none where it does not fit. -/
def numeric (price : ℚ) : Option ℚ :=
  if |roundHalfAway (price * 100)| < 10 ^ 10 then some (roundHalfAway (price * 100) / 100) else none

/-! ## Rows -/

/-- The part of a show that is looked at. -/
structure Show where
  showType : ShowType
  deletedAt : Option ℕ
  deriving DecidableEq

/-- A row of `seat_layout_seats`. -/
structure LayoutSeat extends SeatLayoutSeat where
  blockName : Option String
  deriving DecidableEq

/-- The values of a row of `schedules` that is to be inserted. -/
structure NewSchedule where
  mongoShowId : String
  showType : ShowType
  layoutId : Option ℤ
  date : ℤ
  slot : TimeSlot
  startTime : Instant
  endTime : Instant
  bookingOpenAt : Instant
  venueName : Option String
  venueAddress : Option String
  venueCity : Option String
  venueState : Option String
  deriving DecidableEq

/-- A row of `schedules`; times are in microseconds, and dates in days. -/
structure Schedule where
  id : ℤ
  mongoShowId : String
  showType : ShowType
  layoutId : Option ℤ
  date : ℤ
  slot : TimeSlot
  startTime : ℤ
  endTime : ℤ
  bookingOpenAt : ℤ
  venueName : Option String
  venueAddress : Option String
  venueCity : Option String
  venueState : Option String
  lifecycleState : LifecycleState
  createdAt : ℕ
  deletedAt : Option ℕ
  deriving DecidableEq

inductive SeatSource where
  | base
  | extra
  deriving DecidableEq

/-- The values of a row of `schedule_seats` that is to be inserted. -/
structure NewScheduleSeat where
  scheduleId : ℤ
  seatIndex : ℤ
  layoutSeatId : Option ℤ
  source : SeatSource
  rowLetter : String
  seatNumber : ℤ
  seatClass : LayoutSeatClass
  price : ℚ
  deriving DecidableEq

/-- A row of `schedule_seats`. -/
structure ScheduleSeat extends NewScheduleSeat where
  id : ℤ
  status : SeatStatus
  deriving DecidableEq

/-! ## Requests -/

/-- A text of a request as the time or the date that it parses to. -/
abbrev Parsed (α : Type) := Option α

structure CreateScheduleRequest extends SeatNumbering.CreateSchedule where
  mongoShowId : String
  showType : ShowType
  date : Parsed ℤ
  slot : TimeSlot
  startTime : Option (Parsed Instant)
  endTime : Parsed Instant
  bookingOpenAt : Parsed Instant
  venueName : Option String
  venueAddress : Option String
  venueCity : String
  venueState : Option String
  deriving DecidableEq

structure UpdateScheduleRequest where
  date : Option (Parsed ℤ)
  slot : Option TimeSlot
  startTime : Option (Parsed Instant)
  endTime : Option (Parsed Instant)
  bookingOpenAt : Option (Parsed Instant)
  venueName : Option String
  venueAddress : Option String
  venueCity : Option String
  venueState : Option String
  deriving DecidableEq

structure ExtraSeatInput extends SeatCounts.ExtraSeat where
  seatClass : LayoutSeatClass
  deriving DecidableEq

structure ScheduleChangeset where
  date : Option ℤ
  slot : Option TimeSlot
  startTime : Option Instant
  endTime : Option Instant
  bookingOpenAt : Option Instant
  venueName : Option String
  venueAddress : Option String
  venueCity : Option String
  venueState : Option String
  deriving DecidableEq

/-- A changeset without a value, for which there is no statement. -/
def ScheduleChangeset.empty : ScheduleChangeset :=
  { date := none, slot := none, startTime := none, endTime := none, bookingOpenAt := none
    venueName := none, venueAddress := none, venueCity := none, venueState := none }

def ScheduleChangeset.apply (c : ScheduleChangeset) (r : Schedule) : Schedule :=
  { r with
    date := c.date.getD r.date
    slot := c.slot.getD r.slot
    startTime := (c.startTime.map Instant.micros).getD r.startTime
    endTime := (c.endTime.map Instant.micros).getD r.endTime
    bookingOpenAt := (c.bookingOpenAt.map Instant.micros).getD r.bookingOpenAt
    venueName := c.venueName.orElse fun _ => r.venueName
    venueAddress := c.venueAddress.orElse fun _ => r.venueAddress
    venueCity := c.venueCity.orElse fun _ => r.venueCity
    venueState := c.venueState.orElse fun _ => r.venueState }

inductive Request where
  | create (body : CreateScheduleRequest)
  | update (scheduleId : ℤ) (body : UpdateScheduleRequest)
  | addExtraSeats (scheduleId : ℤ) (seats : List ExtraSeatInput)

inductive Response where
  | created (id startTime : ℤ) (lifecycleState : LifecycleState) (seatsCopied : ℕ)
  | updated (schedule : Schedule)
  | extraSeats (scheduleId : ℤ) (extraSeatsAdded : ℕ) (seats : List ScheduleSeat)

/-! ## The database -/

structure World where
  now : ℕ
  shows : List (ObjectId × Show)
  layoutSeats : List LayoutSeat
  schedules : List Schedule
  /-- The next values of the serial columns. -/
  nextScheduleId : ℤ
  seats : List ScheduleSeat
  nextSeatId : ℤ

namespace World

variable (s : World)

def findShow (id : ObjectId) : Option Show :=
  ((Table.rowAt Prod.fst id s.shows).map Prod.snd).filter fun d => d.deletedAt.isNone

def layoutOf (layoutId : ℤ) : List LayoutSeat :=
  s.layoutSeats.filter fun seat => decide (seat.layoutId = layoutId)

def scheduleRow (scheduleId : ℤ) : Option Schedule :=
  Table.rowAt Schedule.id scheduleId s.schedules

def findSchedule (scheduleId : ℤ) : Option Schedule :=
  (s.scheduleRow scheduleId).filter fun r => r.deletedAt.isNone

def seatsOf (scheduleId : ℤ) : List ScheduleSeat :=
  s.seats.filter fun r => decide (r.scheduleId = scheduleId)

end World

/-! ### Statements on schedules -/

/-- The two rows are of one show, in one venue, at one time: `unique_active_schedule_venue_start`. -/
def Schedule.Clashes (a b : Schedule) : Prop :=
  a.deletedAt = none ∧ b.deletedAt = none ∧ a.mongoShowId = b.mongoShowId ∧
    a.venueCity = b.venueCity ∧ a.venueName.getD "" = b.venueName.getD "" ∧
      a.startTime = b.startTime

instance (a b : Schedule) : Decidable (a.Clashes b) := by
  unfold Schedule.Clashes
  infer_instance

def NewSchedule.row (values : NewSchedule) (id : ℤ) (now : ℕ) : Schedule :=
  { id := id, mongoShowId := values.mongoShowId, showType := values.showType
    layoutId := values.layoutId, date := values.date, slot := values.slot
    startTime := values.startTime.micros, endTime := values.endTime.micros
    bookingOpenAt := values.bookingOpenAt.micros, venueName := values.venueName
    venueAddress := values.venueAddress, venueCity := values.venueCity
    venueState := values.venueState, lifecycleState := .scheduled, createdAt := now
    deletedAt := none }

namespace World

/-- Another row has what the index wants to be unique. -/
def Blocked (s : World) (row : Schedule) : Prop :=
  ∃ r ∈ s.schedules, r.id ≠ row.id ∧ r.Clashes row

instance (s : World) (row : Schedule) : Decidable (s.Blocked row) := by
  unfold Blocked
  infer_instance

/-- The serial column moves on, also where the insert fails. -/
def insertSchedule (values : NewSchedule) (s : World) : World × Option Schedule :=
  let row := values.row s.nextScheduleId s.now
  if s.Blocked row then ({ s with nextScheduleId := s.nextScheduleId + 1 }, none)
  else
    ({ s with
        schedules := s.schedules ++ [row]
        nextScheduleId := s.nextScheduleId + 1 }, some row)

/-- The update of no row is no error. -/
def updateSchedule (scheduleId : ℤ) (changeset : ScheduleChangeset) (s : World) :
    World × Option Unit :=
  match s.scheduleRow scheduleId with
  | none => (s, some ())
  | some old =>
      if s.Blocked (changeset.apply old) then (s, none)
      else
        ({ s with
            schedules := Table.updateWhere (fun r => decide (r.id = scheduleId)) changeset.apply
              s.schedules }, some ())

/-- Change the row of a schedule otherwise. -/
def setSchedule (scheduleId : ℤ) (f : Schedule → Schedule) (s : World) : World :=
  { s with schedules := Table.updateWhere (fun r => decide (r.id = scheduleId)) f s.schedules }

end World

/-! ### Statements on seats -/

def NewScheduleSeat.key (seat : NewScheduleSeat) : String × ℤ :=
  (seat.rowLetter, seat.seatNumber)

/-- A row has the index or the key of the seat, for the same schedule. -/
def Taken (rows : List ScheduleSeat) (seat : NewScheduleSeat) : Prop :=
  ∃ r ∈ rows, r.scheduleId = seat.scheduleId ∧
    (r.seatIndex = seat.seatIndex ∨ r.toNewScheduleSeat.key = seat.key)

instance (rows : List ScheduleSeat) (seat : NewScheduleSeat) : Decidable (Taken rows seat) := by
  unfold Taken
  infer_instance

/-- The seat with its price as the column holds it. -/
def NewScheduleSeat.stored (seat : NewScheduleSeat) : NewScheduleSeat :=
  { seat with price := (numeric seat.price).getD 0 }

def NewScheduleSeat.row (seat : NewScheduleSeat) (id : ℤ) : ScheduleSeat :=
  { seat.stored with
    id := id
    status := .available }

-- Named, so that the definitions below hold no proof of their own.
local instance seatKey_lawfulBEq : LawfulBEq (String × ℤ) := inferInstance

namespace World

/-- One row of an insert that does nothing on a conflict. -/
def insertSeat (s : World) (seat : NewScheduleSeat) : World :=
  if Taken s.seats seat then { s with nextSeatId := s.nextSeatId + 1 }
  else
    { s with
      seats := s.seats ++ [seat.row s.nextSeatId]
      nextSeatId := s.nextSeatId + 1 }

/-- The statement fails where a price does not fit its column, or a schedule is not there. -/
def insertSeats (values : List NewScheduleSeat) (s : World) : World × Option Unit :=
  if values.all fun seat =>
      (numeric seat.price).isSome && (s.scheduleRow seat.scheduleId).isSome then
    (values.foldl insertSeat s, some ())
  else (s, none)

def maxSeatIndex (s : World) (scheduleId : ℤ) : ℤ :=
  (s.seatsOf scheduleId).foldl (fun m r => max m r.seatIndex) 0

/-- The loop over the seats of the request: a key that is taken is skipped. -/
def newExtraSeats (scheduleId : ℤ) :
    List ExtraSeatInput → List (String × ℤ) → ℤ → Except AppError (List NewScheduleSeat)
  | [], _, _ => .ok []
  | seat :: seats, taken, seatIndex =>
      if (seat.rowLetter, seat.seatNumber) ∈ taken then
        newExtraSeats scheduleId seats taken seatIndex
      else
        match seat.price with
        | none => .error (.badRequest ("Invalid price: " ++ seat.priceText))
        | some price => do
            let next ← SeatCounts.World.nextIndex seatIndex
            let rest ← newExtraSeats scheduleId seats ((seat.rowLetter, seat.seatNumber) :: taken) next
            pure ({ scheduleId := scheduleId, seatIndex := seatIndex, layoutSeatId := none
                    source := .extra, rowLetter := seat.rowLetter, seatNumber := seat.seatNumber
                    seatClass := seat.seatClass, price := price } :: rest)

/-- The transaction of `add_extra_seats`; the row of the schedule is locked. -/
def addExtraSeats (scheduleId : ℤ) (seats : List ExtraSeatInput) (s : World) :
    World × Except AppError (List ScheduleSeat) :=
  match s.findSchedule scheduleId with
  | none => (s, .error (.notFound "Schedule not found"))
  | some schedule =>
      if schedule.lifecycleState = .scheduled then
        match SeatCounts.World.nextIndex (s.maxSeatIndex scheduleId) with
        | .error e => (s, .error e)
        | .ok seatIndex =>
            match newExtraSeats scheduleId seats
                ((s.seatsOf scheduleId).map fun r => r.toNewScheduleSeat.key) seatIndex with
            | .error e => (s, .error e)
            | .ok values =>
                -- the keys and the indices of these seats are free
                match s.insertSeats values with
                | (_, none) => (s, .error (.internal "database error"))
                | (t, some ()) => (t, .ok (t.seats.drop s.seats.length))
      else
        (s, .error (.badRequest "Cannot add seats after the schedule has started"))

end World

/-! ## Commands -/

inductive Cmd where
  | connect
  | findShow (id : ObjectId)
  | loadLayout (layoutId : ℤ)
  | insertSchedule (values : NewSchedule)
  | insertSeats (values : List NewScheduleSeat)
  | findSchedule (scheduleId : ℤ)
  | updateSchedule (scheduleId : ℤ) (changeset : ScheduleChangeset)
  | readSchedule (scheduleId : ℤ)
  | addExtraSeats (scheduleId : ℤ) (seats : List ExtraSeatInput)

/-- Replies: none where the statement fails, or its answer does not arrive. -/
abbrev Rep : Cmd → Type
  | .connect => Option Unit
  | .findShow _ => Option (Option Show)
  | .loadLayout _ => Option (List LayoutSeat)
  | .insertSchedule _ => Option Schedule
  | .insertSeats _ => Option Unit
  | .findSchedule _ => Option (Option Schedule)
  | .updateSchedule _ _ => Option Unit
  | .readSchedule _ => Option (Option Schedule)
  | .addExtraSeats _ _ => Option (Except AppError (List ScheduleSeat))

/-- A statement over a link, where it may also fail. -/
def attempt {ρ : Type} (l : Link) (run : World → World × Option ρ) (s : World) : World × Option ρ :=
  ((l.deliver run s).1, (l.deliver run s).2.join)

def exec (l : Link) : (c : Cmd) → World → World × Rep c
  | .connect, s => l.deliver (fun s => (s, ())) s
  | .findShow id, s => l.deliver (fun s => (s, s.findShow id)) s
  | .loadLayout layoutId, s => l.deliver (fun s => (s, s.layoutOf layoutId)) s
  | .insertSchedule values, s => attempt l (World.insertSchedule values) s
  | .insertSeats values, s => attempt l (World.insertSeats values) s
  | .findSchedule scheduleId, s => l.deliver (fun s => (s, s.findSchedule scheduleId)) s
  | .updateSchedule scheduleId changeset, s =>
      attempt l (World.updateSchedule scheduleId changeset) s
  | .readSchedule scheduleId, s => l.deliver (fun s => (s, s.scheduleRow scheduleId)) s
  | .addExtraSeats scheduleId seats, s => l.deliver (World.addExtraSeats scheduleId seats) s

/-! ## Handlers -/

abbrev Handler := Prog Rep (Except AppError Response)

/-- The loop over the sorted seats of the layout; `count` is how many have been copied. -/
def copySeats (body : CreateScheduleRequest) (scheduleId : ℤ) :
    List LayoutSeat → List (String × ℤ) → ℕ → Except AppError (List NewScheduleSeat)
  | [], _, _ => .ok []
  | seat :: seats, seen, count =>
      if (seat.rowLetter, seat.seatNumber) ∈ seen then
        copySeats body scheduleId seats seen count
      else if count + 1 < 2 ^ 31 then do
        let rest ← copySeats body scheduleId seats ((seat.rowLetter, seat.seatNumber) :: seen)
          (count + 1)
        pure ({ scheduleId := scheduleId, seatIndex := (count + 1 : ℕ), layoutSeatId := some seat.id
                source := .base, rowLetter := seat.rowLetter, seatNumber := seat.seatNumber
                seatClass := seat.seatClass, price := body.price seat.seatClass } :: rest)
      else
        .error (.badRequest "Seat layout contains too many seats")

/-- The seats of a layout in the order by letter, number and id. -/
def sortedSeats (layout : List LayoutSeat) : List LayoutSeat :=
  layout.insertionSort fun left right =>
    left.toSeatLayoutSeat.before right.toSeatLayoutSeat = true

/-- What `create_schedule` does with the rows it inserts, once its request is checked. -/
def insertWithSeats (body : CreateScheduleRequest) (layout : List LayoutSeat)
    (values : NewSchedule) : Handler := do
  match ← Prog.perform (Cmd.insertSchedule values) with
  | none => pure (.error (.internal "database error"))
  | some schedule =>
      match copySeats body schedule.id (sortedSeats layout) [] 0 with
      | .error e => pure (.error e)
      | .ok newSeats =>
          match ← Prog.perform (Cmd.insertSeats newSeats) with
          | none => pure (.error (.internal "database error"))
          | some () =>
              pure (.ok (.created schedule.id schedule.startTime schedule.lifecycleState
                newSeats.length))

/-- `create_schedule` with a connection. -/
def insertWithLayout (body : CreateScheduleRequest) (values : NewSchedule) : Handler := do
  match ← Prog.perform (Cmd.loadLayout body.layoutId) with
  | none => pure (.error (.internal "database error"))
  | some baseSeats =>
      if baseSeats = [] then
        pure (.error (.badRequest "Seat layout has no seats — add seats to the layout first"))
      else insertWithSeats body baseSeats values

/-- The start of a schedule: that of the request, or the hour of its slot. -/
def startTime (body : CreateScheduleRequest) (date : ℤ) : Except AppError Instant :=
  match body.startTime with
  | some (some t) => .ok t
  | some none => .error (.badRequest "Invalid start_time — use ISO-8601")
  | none => .ok { seconds := date * 86400 + body.slot.hour * 3600, nanos := 0 }

/-- The row that a request asks for, where its dates parse and it opens before it starts. -/
def newSchedule (body : CreateScheduleRequest) : Except AppError NewSchedule :=
  match body.date with
  | none => .error (.badRequest "Invalid date format, expected YYYY-MM-DD")
  | some date =>
      match startTime body date with
      | .error e => .error e
      | .ok start =>
          match body.endTime with
          | none => .error (.badRequest "Invalid end_time — use ISO-8601")
          | some endTime =>
              match body.bookingOpenAt with
              | none => .error (.badRequest "Invalid booking_open_at — use ISO-8601")
              | some bookingOpenAt =>
                  if bookingOpenAt.lt start then
                    .ok
                      { mongoShowId := trim body.mongoShowId, showType := body.showType
                        layoutId := some body.layoutId, date := date, slot := body.slot
                        startTime := start, endTime := endTime, bookingOpenAt := bookingOpenAt
                        venueName := body.venueName, venueAddress := body.venueAddress
                        venueCity := some (trim body.venueCity), venueState := body.venueState }
                  else .error (.badRequest "booking_open_at must be before start_time")

def createSchedule (body : CreateScheduleRequest) : Handler :=
  if trim body.venueCity = "" then pure (.error (.badRequest "venue_city is required"))
  else
    match parseObjectId (trim body.mongoShowId) with
    | none => pure (.error (.badRequest "mongo_show_id must be a valid MongoDB ObjectId"))
    | some showOid => do
        match ← Prog.perform (Cmd.findShow showOid) with
        | none => pure (.error (.internal "database error"))
        | some none => pure (.error (.notFound "Show not found or has been deleted"))
        | some (some mongoShow) =>
            if body.showType ≠ mongoShow.showType then
              pure (.error (.badRequest "show_type does not match the referenced MongoDB show"))
            else
              match newSchedule body with
              | .error e => pure (.error e)
              | .ok values =>
                  match ← Prog.perform Cmd.connect with
                  | none => pure (.error (.internal "no connection"))
                  | some () => insertWithLayout body values

/-- A field that is not given is no change; one that does not parse is an error. -/
def parsedField {α : Type} (field : Option (Parsed α)) (message : String) :
    Except AppError (Option α) :=
  match field with
  | none => .ok none
  | some (some x) => .ok (some x)
  | some none => .error (.badRequest message)

def changesetOf (body : UpdateScheduleRequest) : Except AppError ScheduleChangeset := do
  let start ← parsedField body.startTime "Invalid start_time — use ISO-8601"
  let endTime ← parsedField body.endTime "Invalid end_time — use ISO-8601"
  let bookingOpenAt ← parsedField body.bookingOpenAt "Invalid booking_open_at — use ISO-8601"
  let date ← parsedField body.date "Invalid date format, expected YYYY-MM-DD"
  pure
    { date := date, slot := body.slot, startTime := start, endTime := endTime
      bookingOpenAt := bookingOpenAt, venueName := body.venueName
      venueAddress := body.venueAddress, venueCity := body.venueCity.map trim
      venueState := body.venueState }

def updateSchedule (scheduleId : ℤ) (body : UpdateScheduleRequest) : Handler :=
  if body.venueCity.map trim = some "" then
    pure (.error (.badRequest "venue_city must not be empty"))
  else do
    match ← Prog.perform Cmd.connect with
    | none => pure (.error (.internal "no connection"))
    | some () =>
        match ← Prog.perform (Cmd.findSchedule scheduleId) with
        | none => pure (.error (.notFound "Schedule not found"))
        | some none => pure (.error (.notFound "Schedule not found"))
        | some (some existing) =>
            match changesetOf body with
            | .error e => pure (.error e)
            | .ok changeset =>
                if changeset = .empty then
                  pure (.error (.internal "There are no changes to save"))
                else
                  match ← Prog.perform (Cmd.updateSchedule scheduleId changeset) with
                  | none => pure (.error (.internal "database error"))
                  | some () =>
                      match ← Prog.perform (Cmd.readSchedule scheduleId) with
                      | some (some updated) => pure (.ok (.updated updated))
                      | _ => pure (.ok (.updated existing))

def addExtraSeats (scheduleId : ℤ) (seats : List ExtraSeatInput) : Handler :=
  if seats = [] then pure (.error (.badRequest "seats must not be empty"))
  else do
    match ← Prog.perform Cmd.connect with
    | none => pure (.error (.internal "no connection"))
    | some () =>
        match ← Prog.perform (Cmd.addExtraSeats scheduleId seats) with
        | none => pure (.error (.internal "database error"))
        | some (.error e) => pure (.error e)
        | some (.ok inserted) => pure (.ok (.extraSeats scheduleId inserted.length inserted))

def handle : Request → Handler
  | .create body => createSchedule body
  | .update scheduleId body => updateSchedule scheduleId body
  | .addExtraSeats scheduleId seats => addExtraSeats scheduleId seats

/-! ## The system -/

/-- What happens outside the three handlers; a schedule is started, closed and deleted by others. -/
inductive Environ where
  | tick (d : ℕ)
  | setShows (shows : List (ObjectId × Show))
  | request (r : Request)
  | start (scheduleId : ℤ)
  | close (scheduleId : ℤ)
  | delete (scheduleId : ℤ)

def environ : Environ → World → World × List (Request × Handler)
  | .tick d, s => ({ s with now := s.now + d }, [])
  | .setShows shows, s => ({ s with shows := shows }, [])
  | .request r, s => (s, [(r, handle r)])
  | .start scheduleId, s =>
      (s.setSchedule scheduleId fun r =>
        if r.deletedAt = none ∧ r.lifecycleState = .scheduled then
          { r with lifecycleState := .open_ }
        else r, [])
  | .close scheduleId, s =>
      (s.setSchedule scheduleId fun r =>
        if r.deletedAt = none then { r with lifecycleState := .closed } else r, [])
  | .delete scheduleId, s =>
      (s.setSchedule scheduleId fun r =>
        { r with
          deletedAt := some s.now
          lifecycleState := .closed }, [])

/-- What the tables of layouts keep: serial ids, and `seat_layout_seats_unique_seat`, where a seat
without a block is like no other. -/
structure LayoutsKept (seats : List LayoutSeat) : Prop where
  ids : (seats.map fun seat => seat.id).Nodup
  serial : ∀ seat ∈ seats, 1 ≤ seat.id ∧ seat.id < 2 ^ 31
  unique : ∀ a ∈ seats, ∀ b ∈ seats, a.blockName ≠ none → a.layoutId = b.layoutId →
    a.blockName = b.blockName → a.rowLetter = b.rowLetter → a.seatNumber = b.seatNumber → a = b

def Initial (s : World) : Prop :=
  s.schedules = [] ∧ s.seats = [] ∧ LayoutsKept s.layoutSeats

/-- Any number of admins' requests over one database. -/
def machine : Machine World Rep Request (Except AppError Response) Link Environ where
  init := Initial
  exec _ _ l c s := some (exec l c s)
  environ x s := some (environ x s)
  close _ s := s

/-! ## Statements over a link -/

section Attempt

variable {ρ : Type} {l : Link} {run : World → World × Option ρ} {s t : World} {r : Option ρ}

/-- A statement that is not lost takes effect; a reply is its own. -/
theorem attempt_cases :
    attempt l run s = (t, r) →
      (l = .lost ∧ t = s ∧ r = none) ∨
        (l ≠ .lost ∧ t = (run s).1 ∧ (r = none ∨ (l = .ok ∧ r = (run s).2))) := by
  intro h
  cases l with
  | lost => exact .inl ⟨rfl, (congrArg Prod.fst h).symm, (congrArg Prod.snd h).symm⟩
  | unacked =>
      exact .inr ⟨nofun, (congrArg Prod.fst h).symm, .inl (congrArg Prod.snd h).symm⟩
  | ok => exact .inr ⟨nofun, (congrArg Prod.fst h).symm, .inr ⟨rfl, (congrArg Prod.snd h).symm⟩⟩

end Attempt

/-- The commands that read. -/
def Cmd.reads : Cmd → Bool
  | .connect | .findShow _ | .loadLayout _ | .findSchedule _ | .readSchedule _ => true
  | _ => false

theorem exec_reads {l : Link} {c : Cmd} {s t : World} {r : Rep c} :
    c.reads = true → exec l c s = (t, r) → t = s := by
  intro hc h
  have hread : ∀ {ρ : Type} (f : World → ρ), (l.deliver (fun s => (s, f s)) s).1 = s := by
    intro ρ f
    exact Link.deliver_induction (P := fun t => t = s) rfl rfl
  have ht : t = (exec l c s).1 := (congrArg Prod.fst h).symm
  cases c with
  | connect => exact ht.trans (hread _)
  | findShow id => exact ht.trans (hread _)
  | loadLayout layoutId => exact ht.trans (hread _)
  | findSchedule scheduleId => exact ht.trans (hread _)
  | readSchedule scheduleId => exact ht.trans (hread _)
  | insertSchedule values => cases hc
  | insertSeats values => cases hc
  | updateSchedule scheduleId changeset => cases hc
  | addExtraSeats scheduleId seats => cases hc

/-! ### What the statements do to the rows -/

section Rows

variable {s t : World}

theorem insertSeat_schedules (s : World) (seat : NewScheduleSeat) :
    (s.insertSeat seat).schedules = s.schedules ∧
      (s.insertSeat seat).nextScheduleId = s.nextScheduleId := by
  unfold World.insertSeat
  split_ifs
  · exact ⟨rfl, rfl⟩
  · exact ⟨rfl, rfl⟩

theorem foldl_insertSeat_schedules (values : List NewScheduleSeat) (s : World) :
    (values.foldl World.insertSeat s).schedules = s.schedules ∧
      (values.foldl World.insertSeat s).nextScheduleId = s.nextScheduleId := by
  induction values generalizing s with
  | nil => exact ⟨rfl, rfl⟩
  | cons seat values ih =>
      have hseat := insertSeat_schedules s seat
      have hrest := ih (s.insertSeat seat)
      exact ⟨hrest.1.trans hseat.1, hrest.2.trans hseat.2⟩

theorem insertSeats_schedules (values : List NewScheduleSeat) (s : World) :
    (s.insertSeats values).1.schedules = s.schedules ∧
      (s.insertSeats values).1.nextScheduleId = s.nextScheduleId := by
  unfold World.insertSeats
  split_ifs
  · exact foldl_insertSeat_schedules values s
  · exact ⟨rfl, rfl⟩

theorem newExtraSeats_extra {k : ℤ} {seats : List ExtraSeatInput} {taken : List (String × ℤ)}
    {index : ℤ} {values : List NewScheduleSeat} :
    World.newExtraSeats k seats taken index = .ok values →
      ∀ v ∈ values, v.source = .extra ∧ v.scheduleId = k := by
  induction seats generalizing taken index values with
  | nil =>
      intro h v hv
      obtain rfl := Except.ok.inj h
      exact absurd hv List.not_mem_nil
  | cons seat seats ih =>
      intro h
      rw [World.newExtraSeats] at h
      split at h
      · exact ih h
      split at h
      · cases h
      · cases hnext : SeatCounts.World.nextIndex index with
        | error e => simp [hnext, bind, Except.bind] at h
        | ok next =>
            cases hrest : World.newExtraSeats k seats ((seat.rowLetter, seat.seatNumber) :: taken)
                next with
            | error e => simp [hnext, hrest, bind, Except.bind] at h
            | ok rest =>
                simp only [hnext, hrest, bind, Except.bind, pure, Except.pure] at h
                obtain rfl := Except.ok.inj h
                intro v hv
                rcases List.mem_cons.mp hv with rfl | hv
                · exact ⟨rfl, rfl⟩
                · exact ih hrest v hv

/-- Extra seats are added to a schedule that is there, or nothing is. -/
theorem addExtraSeats_cases (k : ℤ) (seats : List ExtraSeatInput) (s : World) :
    (s.addExtraSeats k seats).1 = s ∨
      ∃ values : List NewScheduleSeat, (∀ v ∈ values, v.source = .extra ∧ v.scheduleId = k) ∧
        (s.addExtraSeats k seats).1 = (s.insertSeats values).1 := by
  unfold World.addExtraSeats
  split
  · exact .inl rfl
  split_ifs
  · split
    · exact .inl rfl
    split
    · exact .inl rfl
    · next values hvalues =>
      split
      · exact .inl rfl
      · next t hinsert =>
        exact .inr ⟨values, newExtraSeats_extra hvalues, (congrArg Prod.fst hinsert).symm⟩
  · exact .inl rfl

theorem addExtraSeats_schedules (k : ℤ) (seats : List ExtraSeatInput) (s : World) :
    (s.addExtraSeats k seats).1.schedules = s.schedules ∧
      (s.addExtraSeats k seats).1.nextScheduleId = s.nextScheduleId := by
  rcases addExtraSeats_cases k seats s with h | ⟨values, -, h⟩
  · rw [h]
    exact ⟨rfl, rfl⟩
  · rw [h]
    exact insertSeats_schedules values s

/-- What a command does to the schedules. -/
inductive Rewrites (l : Link) (s t : World) : Cmd → Prop where
  | kept {c : Cmd} :
      t.schedules = s.schedules → s.nextScheduleId ≤ t.nextScheduleId → Rewrites l s t c
  | inserted {values : NewSchedule} :
      l ≠ .lost → ¬s.Blocked (values.row s.nextScheduleId s.now) →
      t.schedules = s.schedules ++ [values.row s.nextScheduleId s.now] →
      t.nextScheduleId = s.nextScheduleId + 1 → Rewrites l s t (.insertSchedule values)
  | updated {scheduleId : ℤ} {changeset : ScheduleChangeset} {old : Schedule} :
      l ≠ .lost → s.scheduleRow scheduleId = some old → ¬s.Blocked (changeset.apply old) →
      t.schedules = Table.updateWhere (fun r => decide (r.id = scheduleId)) changeset.apply
        s.schedules →
      t.nextScheduleId = s.nextScheduleId → Rewrites l s t (.updateSchedule scheduleId changeset)

theorem rewrites_of_exec {l : Link} {c : Cmd} {r : Rep c} :
    exec l c s = (t, r) → Rewrites l s t c := by
  intro h
  by_cases hreads : c.reads = true
  · obtain rfl := exec_reads hreads h
    exact .kept rfl le_rfl
  cases c with
  | connect => exact absurd rfl hreads
  | findShow id => exact absurd rfl hreads
  | loadLayout layoutId => exact absurd rfl hreads
  | findSchedule scheduleId => exact absurd rfl hreads
  | readSchedule scheduleId => exact absurd rfl hreads
  | insertSchedule values =>
      rcases attempt_cases h with ⟨-, rfl, -⟩ | ⟨hl, rfl, -⟩
      · exact .kept rfl le_rfl
      · by_cases hblocked : s.Blocked (values.row s.nextScheduleId s.now)
        · refine .kept ?_ ?_
          · simp [World.insertSchedule, hblocked]
          · simp [World.insertSchedule, hblocked]
        · refine .inserted hl hblocked ?_ ?_
          · simp [World.insertSchedule, hblocked]
          · simp [World.insertSchedule, hblocked]
  | updateSchedule scheduleId changeset =>
      rcases attempt_cases h with ⟨-, rfl, -⟩ | ⟨hl, rfl, -⟩
      · exact .kept rfl le_rfl
      · cases hrow : s.scheduleRow scheduleId with
        | none =>
            refine .kept ?_ ?_
            · simp [World.updateSchedule, hrow]
            · simp [World.updateSchedule, hrow]
        | some old =>
            by_cases hblocked : s.Blocked (changeset.apply old)
            · refine .kept ?_ ?_
              · simp [World.updateSchedule, hrow, hblocked]
              · simp [World.updateSchedule, hrow, hblocked]
            · refine .updated hl hrow hblocked ?_ ?_
              · simp [World.updateSchedule, hrow, hblocked]
              · simp [World.updateSchedule, hrow, hblocked]
  | insertSeats values =>
      rcases attempt_cases h with ⟨-, rfl, -⟩ | ⟨-, rfl, -⟩
      · exact .kept rfl le_rfl
      · have hkept := insertSeats_schedules values s
        exact .kept hkept.1 hkept.2.ge
  | addExtraSeats scheduleId seats =>
      rcases Link.deliver_cases h with ⟨rfl, -⟩ | ⟨rfl, -⟩
      · exact .kept rfl le_rfl
      · have hkept := addExtraSeats_schedules scheduleId seats s
        exact .kept hkept.1 hkept.2.ge

/-! ### What the others do -/

/-- The identifier of a schedule, and the two times that are compared. -/
def Schedule.times (r : Schedule) : ℤ × ℤ × ℤ :=
  (r.id, r.bookingOpenAt, r.startTime)

/-- What is not one of the three handlers leaves the seats, the layouts, and the times. -/
structure Aside (s t : World) : Prop where
  layoutSeats : t.layoutSeats = s.layoutSeats
  seats : t.seats = s.seats
  nextScheduleId : t.nextScheduleId = s.nextScheduleId
  times : t.schedules.map Schedule.times = s.schedules.map Schedule.times

theorem aside_setSchedule (k : ℤ) {f : Schedule → Schedule} (s : World) :
    (∀ r, (f r).times = r.times) → Aside s (s.setSchedule k f) := by
  intro hf
  exact
    { layoutSeats := rfl
      seats := rfl
      nextScheduleId := rfl
      times := Table.map_updateWhere hf }

theorem environ_aside {x : Environ} {new : List (Request × Handler)} :
    environ x s = (t, new) → Aside s t := by
  intro h
  have ht : t = (environ x s).1 := (congrArg Prod.fst h).symm
  rw [ht]
  cases x with
  | tick d => exact ⟨rfl, rfl, rfl, rfl⟩
  | setShows shows => exact ⟨rfl, rfl, rfl, rfl⟩
  | request r => exact ⟨rfl, rfl, rfl, rfl⟩
  | start k =>
      apply aside_setSchedule
      intro r
      split_ifs
      · rfl
      · rfl
  | close k =>
      apply aside_setSchedule
      intro r
      split_ifs
      · rfl
      · rfl
  | delete k => exact aside_setSchedule k s fun _ => rfl

theorem environ_new {x : Environ} {new : List (Request × Handler)} :
    environ x s = (t, new) → ∀ n q, (n, q) ∈ new → q = handle n := by
  intro h n q hq
  have hnew : new = (environ x s).2 := (congrArg Prod.snd h).symm
  rw [hnew] at hq
  cases x with
  | request r =>
      obtain ⟨rfl, rfl⟩ := Prod.mk.inj (List.mem_singleton.mp hq)
      rfl
  | tick d => exact absurd hq List.not_mem_nil
  | setShows shows => exact absurd hq List.not_mem_nil
  | start k => exact absurd hq List.not_mem_nil
  | close k => exact absurd hq List.not_mem_nil
  | delete k => exact absurd hq List.not_mem_nil

/-! ### Serial identifiers -/

/-- Identifiers are unique and behind the serial column. -/
structure Numbered (s : World) : Prop where
  ids : (s.schedules.map Schedule.id).Nodup
  fresh : ∀ r ∈ s.schedules, r.id < s.nextScheduleId

theorem Numbered.of_ids (hs : Numbered s) :
    t.schedules.map Schedule.id = s.schedules.map Schedule.id →
    s.nextScheduleId ≤ t.nextScheduleId → Numbered t := by
  intro hids hnext
  refine ⟨?_, ?_⟩
  · rw [hids]
    exact hs.ids
  · intro r hr
    have hid : r.id ∈ s.schedules.map Schedule.id := hids ▸ List.mem_map_of_mem hr
    obtain ⟨r', hr', heq⟩ := List.mem_map.mp hid
    exact heq ▸ (hs.fresh r' hr').trans_le hnext

theorem Rewrites.numbered {l : Link} {c : Cmd} (hs : Numbered s) :
    Rewrites l s t c → Numbered t := by
  intro h
  cases h with
  | kept hschedules hnext => exact hs.of_ids (by rw [hschedules]) hnext
  | inserted _ _ hschedules hnext =>
      next values _ _ =>
      refine ⟨?_, ?_⟩
      · rw [hschedules, List.map_append]
        refine List.nodup_append.mpr ⟨hs.ids, List.nodup_singleton _, ?_⟩
        intro a ha b hb
        obtain ⟨r, hr, rfl⟩ := List.mem_map.mp ha
        rw [List.map_singleton, List.mem_singleton] at hb
        exact hb ▸ (hs.fresh r hr).ne
      · intro r hr
        rw [hschedules, List.mem_append] at hr
        rw [hnext]
        rcases hr with hr | hr
        · exact (hs.fresh r hr).trans (lt_add_one _)
        · rw [List.mem_singleton.mp hr]
          exact lt_add_one s.nextScheduleId
  | updated _ _ _ hschedules hnext =>
      refine hs.of_ids ?_ hnext.ge
      rw [hschedules]
      exact Table.map_updateWhere fun _ => rfl

theorem Aside.numbered (hs : Numbered s) : Aside s t → Numbered t := by
  intro h
  refine hs.of_ids ?_ h.nextScheduleId.ge
  have hid : Schedule.id = Prod.fst ∘ Schedule.times := rfl
  rw [hid, ← List.map_map, ← List.map_map, h.times]

end Rows

end ScheduleHandlers
end Bookit
