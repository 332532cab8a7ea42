import Bookit.Lib.Expiring
import Bookit.Lib.Tasks
import Bookit.Schedules.Store

/-!
# Web.SeatCounts — the cached seat counts of a schedule

A list of schedules reads the total and the available seats of each schedule from two Redis keys, and
fills both from PostgreSQL where one is missing.  The payment processor adjusts the second key after it
has committed a booking or a cancellation.  Admins add seats and change their status.  What a list does
for one schedule is a task of its own: the schedules of a list are read and written concurrently.
-/

namespace Bookit
namespace SeatCounts

open Lib
open Payments (SeatStatus AppError)
open Schedules (ScheduleRow LifecycleState)

/-! ## Rows -/

/-- The columns of `schedule_seats` that the handlers read and write. -/
structure ScheduleSeat where
  id : ℤ
  scheduleId : ℤ
  seatIndex : ℤ
  rowLetter : String
  seatNumber : ℤ
  price : ℚ
  status : SeatStatus
  deriving DecidableEq

/-- A seat of an admin's request, with the decimal that its price parses to. -/
structure ExtraSeat where
  rowLetter : String
  seatNumber : ℤ
  priceText : String
  price : Option ℚ
  deriving DecidableEq

/-- A statement of an update of seats. -/
inductive SeatUpdate where
  | setPrice (seatId : ℤ) (price : ℚ)
  | setStatus (seatId : ℤ) (status : SeatStatus)
  deriving DecidableEq

structure World where
  /-- The clock, in milliseconds. -/
  now : ℕ
  schedules : List ScheduleRow
  seats : List ScheduleSeat
  /-- The next value of the serial column. -/
  nextSeatId : ℤ
  /-- `cache:schedule:{}:seats:total`. -/
  totalSeats : Expiring ℤ ℤ
  /-- `cache:schedule:{}:seats:available`. -/
  availableSeats : Expiring ℤ ℤ

namespace World

/-! ## Reads -/

def numberOfSeats (s : World) (scheduleId : ℤ) : ℤ :=
  (s.seats.countP fun r => decide (r.scheduleId = scheduleId) : ℕ)

def numberAvailable (s : World) (scheduleId : ℤ) : ℤ :=
  (s.seats.countP fun r =>
    decide (r.scheduleId = scheduleId) && decide (r.status = .available) : ℕ)

def cachedTotal (s : World) (scheduleId : ℤ) : Option ℤ :=
  s.totalSeats.lookup s.now scheduleId

def cachedAvailable (s : World) (scheduleId : ℤ) : Option ℤ :=
  s.availableSeats.lookup s.now scheduleId

/-! ## The cache -/

/-- `TTL_SCHEDULE_SEAT_COUNTS`, in milliseconds. -/
def ttlScheduleSeatCounts : ℕ := 24 * 60 * 60 * 1000

def setTotal (scheduleId total : ℤ) (s : World) : World :=
  { s with totalSeats := s.totalSeats.put scheduleId total (s.now + ttlScheduleSeatCounts) }

def setAvailable (scheduleId available : ℤ) (s : World) : World :=
  { s with
    availableSeats := s.availableSeats.put scheduleId available (s.now + ttlScheduleSeatCounts) }

/-- The script: nothing where the key does not exist, and else `INCRBY`, which keeps the deadline. -/
def adjustCachedAvailableSeats (scheduleId delta : ℤ) (s : World) : World :=
  match s.availableSeats.entry s.now scheduleId with
  | none => s
  | some (available, deadline) =>
      { s with availableSeats := s.availableSeats.put scheduleId (available + delta) deadline }

/-! ## Statements -/

/-- `UPDATE schedule_seats SET status = … WHERE …`. -/
def setStatusWhere (p : ScheduleSeat → Bool) (status : SeatStatus) (s : World) : World :=
  { s with seats := Table.updateWhere p (fun r => { r with status := status }) s.seats }

/-- The rows of the seat ids, of whatever schedule. -/
def commitCheckout (seatIds : List ℤ) : World → World :=
  setStatusWhere (fun r => decide (r.id ∈ seatIds)) .booked

def commitCancellation (seatIds : List ℤ) : World → World :=
  setStatusWhere (fun r => decide (r.id ∈ seatIds)) .available

def updateSeat (scheduleId : ℤ) (s : World) : SeatUpdate → World
  | .setPrice seatId price =>
      { s with
        seats := Table.updateWhere
          (fun r => decide (r.id = seatId) && decide (r.scheduleId = scheduleId))
          (fun r => { r with price := price }) s.seats }
  | .setStatus seatId status =>
      s.setStatusWhere (fun r => decide (r.id = seatId) && decide (r.scheduleId = scheduleId)) status

/-! ### Extra seats -/

/-- The keys of a schedule's seats. -/
def seatKeys (s : World) (scheduleId : ℤ) : List (String × ℤ) :=
  (s.seats.filter fun r => decide (r.scheduleId = scheduleId)).map fun r =>
    (r.rowLetter, r.seatNumber)

def maxSeatIndex (s : World) (scheduleId : ℤ) : ℤ :=
  (s.seats.filter fun r => decide (r.scheduleId = scheduleId)).foldl
    (fun m r => max m r.seatIndex) 0

/-- `checked_add(1)`. -/
def nextIndex (seatIndex : ℤ) : Except AppError ℤ :=
  if seatIndex + 1 < 2 ^ 31 then .ok (seatIndex + 1)
  else .error (.badRequest "Schedule contains too many seats")

/-- The loop over the seats of the request: a key that is taken is skipped. -/
def newSeats (scheduleId : ℤ) :
    List ExtraSeat → List (String × ℤ) → ℤ → ℤ → Except AppError (List ScheduleSeat)
  | [], _, _, _ => .ok []
  | seat :: seats, taken, seatIndex, seatId =>
      if (seat.rowLetter, seat.seatNumber) ∈ taken then
        newSeats scheduleId seats taken seatIndex seatId
      else
        match seat.price with
        | none => .error (.badRequest ("Invalid price: " ++ seat.priceText))
        | some price => do
            let next ← nextIndex seatIndex
            let rest ← newSeats scheduleId seats ((seat.rowLetter, seat.seatNumber) :: taken) next
              (seatId + 1)
            pure ({ id := seatId, scheduleId := scheduleId, seatIndex := seatIndex
                    rowLetter := seat.rowLetter, seatNumber := seat.seatNumber, price := price
                    status := .available } :: rest)

/-- What the loop does with a seat, where it succeeds. -/
theorem newSeats_cons_ok {k : ℤ} {seat : ExtraSeat} {seats : List ExtraSeat}
    {taken : List (String × ℤ)} {index id : ℤ} {new : List ScheduleSeat}
    (h : newSeats k (seat :: seats) taken index id = .ok new) :
    newSeats k seats taken index id = .ok new ∨
      ∃ price rest, nextIndex index = .ok (index + 1) ∧
        newSeats k seats ((seat.rowLetter, seat.seatNumber) :: taken) (index + 1) (id + 1) =
          .ok rest ∧
        new = { id := id, scheduleId := k, seatIndex := index, rowLetter := seat.rowLetter
                seatNumber := seat.seatNumber, price := price, status := .available } :: rest := by
  rw [newSeats] at h
  split at h
  · exact .inl h
  · split at h
    · cases h
    · next price _ =>
        cases hnext : nextIndex index with
        | error e => simp [hnext, bind, Except.bind] at h
        | ok next =>
            obtain rfl : next = index + 1 := by
              unfold nextIndex at hnext
              split at hnext
              · exact (Except.ok.inj hnext).symm
              · cases hnext
            cases hrest : newSeats k seats ((seat.rowLetter, seat.seatNumber) :: taken) (index + 1)
                (id + 1) with
            | error e => simp [hnext, hrest, bind, Except.bind] at h
            | ok rest =>
                simp only [hnext, hrest, bind, Except.bind, pure, Except.pure] at h
                exact .inr ⟨price, rest, rfl, rfl, (Except.ok.inj h).symm⟩

/-- The transaction of `add_extra_seats`; the row of the schedule is locked. -/
def addExtraSeats (scheduleId : ℤ) (seats : List ExtraSeat) (s : World) :
    World × Except AppError (List ScheduleSeat) :=
  match s.schedules.find? fun r => decide (r.id = scheduleId ∧ r.deletedAt = none) with
  | none => (s, .error (.notFound "Schedule not found"))
  | some schedule =>
      if schedule.lifecycleState = .scheduled then
        match nextIndex (s.maxSeatIndex scheduleId) with
        | .error e => (s, .error e)
        | .ok seatIndex =>
            match newSeats scheduleId seats (s.seatKeys scheduleId) seatIndex s.nextSeatId with
            | .error e => (s, .error e)
            | .ok inserted =>
                ({ s with
                    seats := s.seats ++ inserted
                    nextSeatId := s.nextSeatId + inserted.length }, .ok inserted)
      else
        (s, .error (.badRequest "Cannot add seats after the schedule has started"))

end World

/-! ## Tasks -/

/-- What is left of an operation on a schedule. -/
inductive Task where
  -- `load_schedule_seat_counts`
  | getTotal (scheduleId : ℤ) (retries : ℕ)
  | getAvailable (scheduleId : ℤ) (total : Option ℤ) (retries : ℕ)
  | countTotals (scheduleId : ℤ)
  | countAvailable (scheduleId total : ℤ)
  | setTotal (scheduleId total available : ℤ) (retries : ℕ)
  | setAvailable (scheduleId available : ℤ) (retries : ℕ)
  -- the payment processor
  | commitCheckout (scheduleId : ℤ) (seatIds : List ℤ)
  | commitCancellation (scheduleId : ℤ) (seatIds : List ℤ)
  | adjust (scheduleId delta : ℤ)
  -- the admin
  | addExtraSeats (scheduleId : ℤ) (seats : List ExtraSeat)
  | findSchedule (scheduleId : ℤ) (updates : List SeatUpdate)
  | updateSeats (scheduleId : ℤ) (updates : List SeatUpdate)
  deriving DecidableEq

/-- The schedule of a task. -/
def Task.scheduleId : Task → ℤ
  | getTotal scheduleId _ | getAvailable scheduleId .. | countTotals scheduleId
  | countAvailable scheduleId _ | setTotal scheduleId .. | setAvailable scheduleId ..
  | commitCheckout scheduleId _ | commitCancellation scheduleId _ | adjust scheduleId _
  | addExtraSeats scheduleId _ | findSchedule scheduleId _ | updateSeats scheduleId _ => scheduleId

/-- A command with retries: what follows its answer, and what follows the last failure. -/
def retry (retries : ℕ) (again : ℕ → Task) (gaveUp : Option Task) : Option Task :=
  match retries with
  | 0 => gaveUp
  | n + 1 => some (again n)

/-- The step of a task: its command over the link, and what the operation does next. -/
def exec (l : Link) (s : World) : Task → World × Option Task
  | .getTotal scheduleId retries =>
      match l with
      | .ok => (s, some (.getAvailable scheduleId (s.cachedTotal scheduleId) 3))
      | _ => (s, retry retries (.getTotal scheduleId) (some (.getAvailable scheduleId none 3)))
  | .getAvailable scheduleId total retries =>
      match l with
      | .ok =>
          match total, s.cachedAvailable scheduleId with
          | some _, some _ => (s, none)
          | _, _ => (s, some (.countTotals scheduleId))
      | _ => (s, retry retries (.getAvailable scheduleId total) (some (.countTotals scheduleId)))
  | .countTotals scheduleId =>
      match l with
      | .ok => (s, some (.countAvailable scheduleId (s.numberOfSeats scheduleId)))
      | _ => (s, none)
  | .countAvailable scheduleId total =>
      match l with
      | .ok => (s, some (.setTotal scheduleId total (s.numberAvailable scheduleId) 3))
      | _ => (s, none)
  | .setTotal scheduleId total available retries =>
      match l.deliver (fun s => (s.setTotal scheduleId total, ())) s with
      | (s, some ()) => (s, some (.setAvailable scheduleId available 3))
      | (s, none) => (s, retry retries (.setTotal scheduleId total available)
          (some (.setAvailable scheduleId available 3)))
  | .setAvailable scheduleId available retries =>
      match l.deliver (fun s => (s.setAvailable scheduleId available, ())) s with
      | (s, some ()) => (s, none)
      | (s, none) => (s, retry retries (.setAvailable scheduleId available) none)
  | .commitCheckout scheduleId seatIds =>
      match l.deliver (fun s => (s.commitCheckout seatIds, ())) s with
      | (s, some ()) => (s, some (.adjust scheduleId (-(seatIds.length : ℤ))))
      | (s, none) => (s, none)
  | .commitCancellation scheduleId seatIds =>
      match l.deliver (fun s => (s.commitCancellation seatIds, ())) s with
      | (s, some ()) => (s, some (.adjust scheduleId seatIds.length))
      | (s, none) => (s, none)
  | .adjust scheduleId delta =>
      ((l.deliver (fun s => (s.adjustCachedAvailableSeats scheduleId delta, ())) s).1, none)
  | .addExtraSeats scheduleId seats =>
      ((l.deliver (World.addExtraSeats scheduleId seats) s).1, none)
  | .findSchedule scheduleId updates =>
      match l with
      | .ok =>
          if s.schedules.any fun r => decide (r.id = scheduleId) then
            (s, some (.updateSeats scheduleId updates))
          else
            (s, none)
      | _ => (s, none)
  | .updateSeats _ [] => (s, none)
  | .updateSeats scheduleId (update :: updates) =>
      match l.deliver (fun s => (s.updateSeat scheduleId update, ())) s with
      | (s, some ()) => (s, some (.updateSeats scheduleId updates))
      | (s, none) => (s, none)

/-! ## Requests -/

/-- A seat of `update_schedule_seats`: its price where it is sent and parses, and its status. -/
structure UpdateSeat where
  seatId : ℤ
  price : Option ℚ
  status : Option SeatStatus

inductive Request where
  | list (scheduleId : ℤ)
  | checkout (scheduleId : ℤ) (seatIds : List ℤ)
  | cancellation (scheduleId : ℤ) (seatIds : List ℤ)
  | addExtraSeats (scheduleId : ℤ) (seats : List ExtraSeat)
  | updateScheduleSeats (scheduleId : ℤ) (seats : List UpdateSeat)

/-- The statements for the seats in order: the price of a seat, then its status. -/
def updateStatements (seats : List UpdateSeat) : List SeatUpdate :=
  seats.flatMap fun seat =>
    (seat.price.map (SeatUpdate.setPrice seat.seatId)).toList ++
      (seat.status.map (SeatUpdate.setStatus seat.seatId)).toList

/-- The first task of a request; one without seats is refused, except a cancellation. -/
def first : Request → Option Task
  | .list scheduleId => some (.getTotal scheduleId 3)
  | .checkout scheduleId seatIds =>
      if seatIds = [] then none else some (.commitCheckout scheduleId seatIds)
  | .cancellation scheduleId seatIds => some (.commitCancellation scheduleId seatIds)
  | .addExtraSeats scheduleId seats =>
      if seats = [] then none else some (.addExtraSeats scheduleId seats)
  | .updateScheduleSeats scheduleId seats =>
      if seats.isEmpty then none else some (.findSchedule scheduleId (updateStatements seats))

/-- Time passes; the schedules change their lifecycle. -/
inductive Environ where
  | tick (d : ℕ)
  | schedules (rows : List ScheduleRow)

def environ : Environ → World → World
  | .tick d, s => { s with now := s.now + d }
  | .schedules rows, s => { s with schedules := rows }

/-- The seats in the table have ids that are drawn from its serial column. -/
structure Seated (s : World) : Prop where
  nodup : (s.seats.map ScheduleSeat.id).Nodup
  drawn : ∀ r ∈ s.seats, r.id < s.nextSeatId

/-- From any seats, with nothing cached. -/
def handlers : Handlers World Task Link Environ Request where
  init s := Seated s ∧ s.totalSeats = .empty ∧ s.availableSeats = .empty
  environ := environ
  first := first
  exec l t s := exec l s t

end SeatCounts
end Bookit
