import Bookit.Gateway.Store
import Bookit.Web.SeatCounts
import Mathlib.Data.List.Sort

/-!
# Web.SeatNumbering — the seats of a schedule and their indices

A schedule is inserted first, and its seats by a second statement, which skips every row whose index or
whose letter and number are taken.  Until the schedule is started, admins add seats after the last
index; the row of the schedule is locked meanwhile, and so it is while it is started.  An insert of
seats checks the key of its schedule and waits for that lock, so that each statement here is one step.

Replicas of the ws-server load the seats of an open schedule once, and the gateway makes the actor of a
show with the seat count of its first request.
-/

namespace Bookit
namespace SeatNumbering

open Lib
open Payments (AppError SeatStatus)
open SeatCounts (ScheduleSeat ExtraSeat SeatUpdate)
open Schedules (ScheduleRow LifecycleState)

/-! ## Layouts -/

inductive LayoutSeatClass where
  | standard
  | premium
  | vip
  | ga
  deriving DecidableEq

/-- The key of a class in a request's prices. -/
def LayoutSeatClass.key : LayoutSeatClass → String
  | .standard => "Standard"
  | .premium => "Premium"
  | .vip => "VIP"
  | .ga => "GA"

/-- The columns of `seat_layout_seats` that are copied. -/
structure SeatLayoutSeat where
  id : ℤ
  layoutId : ℤ
  rowLetter : String
  seatNumber : ℤ
  seatClass : LayoutSeatClass
  deriving DecidableEq

/-- Not after in the order by letter, number and id. -/
def SeatLayoutSeat.before (left right : SeatLayoutSeat) : Bool :=
  if left.rowLetter = right.rowLetter then
    if left.seatNumber = right.seatNumber then decide (left.id ≤ right.id)
    else decide (left.seatNumber < right.seatNumber)
  else decide (left.rowLetter < right.rowLetter)

/-- The values of a row of `schedule_seats` that is to be inserted. -/
structure NewScheduleSeat where
  seatIndex : ℤ
  rowLetter : String
  seatNumber : ℤ
  price : ℚ
  deriving DecidableEq

/-- A request for a schedule: its layout, and for each class the decimal that its price parses to. -/
structure CreateSchedule where
  layoutId : ℤ
  prices : List (String × Option ℚ)
  deriving DecidableEq

/-- The price of a class, else of the standard one; zero without a price, or one that does not parse. -/
def CreateSchedule.price (body : CreateSchedule) (seatClass : LayoutSeatClass) : ℚ :=
  (((body.prices.lookup seatClass.key).orElse fun _ => body.prices.lookup "Standard").getD
    (some 0)).getD 0

-- Named, so that the definitions below hold no proof of their own.
local instance seatKey_lawfulBEq : LawfulBEq (String × ℤ) := inferInstance

/-- The loop over the sorted seats of the layout; `count` is how many have been copied. -/
def copySeats (body : CreateSchedule) :
    List SeatLayoutSeat → List (String × ℤ) → ℤ → Except AppError (List NewScheduleSeat)
  | [], _, _ => .ok []
  | seat :: seats, seen, count =>
      if (seat.rowLetter, seat.seatNumber) ∈ seen then
        copySeats body seats seen count
      else if count + 1 < 2 ^ 31 then do
        let rest ← copySeats body seats ((seat.rowLetter, seat.seatNumber) :: seen) (count + 1)
        pure ({ seatIndex := count + 1, rowLetter := seat.rowLetter, seatNumber := seat.seatNumber
                price := body.price seat.seatClass } :: rest)
      else
        .error (.badRequest "Seat layout contains too many seats")

def baseSeats (body : CreateSchedule) (layout : List SeatLayoutSeat) :
    Except AppError (List NewScheduleSeat) :=
  copySeats body (layout.insertionSort fun left right => left.before right = true) [] 0

/-! ## Rows -/

/-- The rows of a schedule, with their ids and indices. -/
def seatsOf (rows : List ScheduleSeat) (scheduleId : ℤ) : List (ℤ × ℤ) :=
  (rows.filter fun r => decide (r.scheduleId = scheduleId)).map fun r => (r.id, r.seatIndex)

/-- A row of the schedule has the index. -/
def IndexTaken (rows : List ScheduleSeat) (scheduleId : ℤ) (seat : NewScheduleSeat) : Prop :=
  ∃ r ∈ rows, r.scheduleId = scheduleId ∧ r.seatIndex = seat.seatIndex

/-- A row of the schedule has the letter and the number. -/
def KeyTaken (rows : List ScheduleSeat) (scheduleId : ℤ) (seat : NewScheduleSeat) : Prop :=
  ∃ r ∈ rows, r.scheduleId = scheduleId ∧
    (r.rowLetter, r.seatNumber) = (seat.rowLetter, seat.seatNumber)

section Decidable

variable (rows : List ScheduleSeat) (scheduleId : ℤ) (seat : NewScheduleSeat)

instance : Decidable (IndexTaken rows scheduleId seat) := by
  unfold IndexTaken
  infer_instance

instance : Decidable (KeyTaken rows scheduleId seat) := by
  unfold KeyTaken
  infer_instance

end Decidable

def NewScheduleSeat.row (seat : NewScheduleSeat) (id scheduleId : ℤ) : ScheduleSeat :=
  { id := id, scheduleId := scheduleId, seatIndex := seat.seatIndex, rowLetter := seat.rowLetter
    seatNumber := seat.seatNumber, price := seat.price, status := .available }

/-- One row of an insert that does nothing on a conflict; the serial column moves on in any case. -/
def insertSeat (scheduleId : ℤ) (db : SeatCounts.World) (seat : NewScheduleSeat) :
    SeatCounts.World :=
  if IndexTaken db.seats scheduleId seat ∨ KeyTaken db.seats scheduleId seat then
    { db with nextSeatId := db.nextSeatId + 1 }
  else
    { db with
      nextSeatId := db.nextSeatId + 1
      seats := db.seats ++ [seat.row db.nextSeatId scheduleId] }

/-! ## The world -/

/-- What a replica of the ws-server keeps of a schedule: the number of its seats, and the index of
each. -/
structure ScheduleSeatMetadata where
  totalSeatCount : ℤ
  seatIndices : List (ℤ × ℤ)
  deriving DecidableEq

structure World where
  db : SeatCounts.World
  nextScheduleId : ℤ
  layoutSeats : List SeatLayoutSeat
  /-- The metadata of each replica of the ws-server. -/
  metadata : ℕ → ℤ → Option ScheduleSeatMetadata
  /-- The seat counts with which each gateway has made its actors. -/
  actorSizes : ℕ → ℤ → Option ℤ

namespace World

/-! ### Statements -/

def insertSchedule (s : World) : World × ℤ :=
  ({ s with
      nextScheduleId := s.nextScheduleId + 1
      db := { s.db with
        schedules := s.db.schedules ++
          [{ id := s.nextScheduleId, lifecycleState := .scheduled, deletedAt := none }] } },
    s.nextScheduleId)

def insertSeats (scheduleId : ℤ) (seats : List NewScheduleSeat) (s : World) : World × Unit :=
  ({ s with db := seats.foldl (insertSeat scheduleId) s.db }, ())

/-- A transaction on the lifecycle of a schedule. -/
def lifecycle {ρ : Type} (run : Schedules.World → Schedules.World × ρ) (s : World) : World × ρ :=
  let r := run { Schedules.newWorld with now := s.db.now, schedules := s.db.schedules }
  ({ s with db := { s.db with schedules := r.1.schedules } }, r.2)

def addExtraSeats (scheduleId : ℤ) (seats : List ExtraSeat) (s : World) :
    World × Except AppError (List ScheduleSeat) :=
  let r := s.db.addExtraSeats scheduleId seats
  ({ s with db := r.1 }, r.2)

/-! ### Replicas and gateways -/

def setMetadata (s : World) (replica : ℕ) (scheduleId : ℤ) (m : Option ScheduleSeatMetadata) :
    World :=
  { s with
    metadata := Redis.setAt s.metadata replica (Redis.setAt (s.metadata replica) scheduleId m) }

def setActorSize (s : World) (gateway : ℕ) (scheduleId : ℤ) (size : Option ℤ) : World :=
  { s with
    actorSizes := Redis.setAt s.actorSizes gateway
      (Redis.setAt (s.actorSizes gateway) scheduleId size) }

end World

/-! ## Lock requests -/

/-- A lock request of a user, at a replica of the ws-server that asks a gateway. -/
structure LockRequest where
  replica : ℕ
  gateway : ℕ
  scheduleId : ℤ
  seatIds : List ℤ
  seatIndices : List ℤ
  totalSeatCount : ℤ
  deriving DecidableEq

def ScheduleSeatMetadata.index (m : ScheduleSeatMetadata) (seatId : ℤ) : Option ℤ :=
  m.seatIndices.lookup seatId

/-- The checks of `verified_seat_metadata` on the metadata. -/
def ScheduleSeatMetadata.verify (m : ScheduleSeatMetadata) (request : LockRequest) :
    Except String ℤ :=
  if request.totalSeatCount ≠ m.totalSeatCount then
    .error "total seat count does not match the schedule"
  else
    match (request.seatIds.zip request.seatIndices).find? fun x =>
        decide (m.index x.1 ≠ some x.2) with
    | some x => .error ("seat " ++ toString x.1 ++ " has an invalid schedule seat index")
    | none => .ok m.totalSeatCount

/-- The metadata of the rows that have been loaded. -/
def metadataOfRows (rows : List (ℤ × ℤ)) : Except String ScheduleSeatMetadata :=
  if 2 ^ 31 ≤ (rows.length : ℤ) then
    .error "schedule contains too many seats"
  else if rows = [] then
    .error "schedule has no seats"
  else
    .ok { totalSeatCount := rows.length, seatIndices := rows }

/-! ## Tasks -/

/-- What is left of an operation. -/
inductive Task where
  -- `create_schedule`
  | loadLayout (body : CreateSchedule)
  | insertSchedule (body : CreateSchedule) (layout : List SeatLayoutSeat)
  | insertSeats (scheduleId : ℤ) (seats : List NewScheduleSeat)
  | addExtraSeats (scheduleId : ℤ) (seats : List ExtraSeat)
  -- the lifecycle
  | startSchedule (scheduleId : ℤ)
  | closeSchedule (scheduleId : ℤ)
  | findSchedule (scheduleId : ℤ)
  | markDeleted (scheduleId : ℤ)
  -- a lock request
  | readMetadata (request : LockRequest)
  | findOpen (request : LockRequest)
  | loadSeats (request : LockRequest)
  | setMetadata (request : LockRequest) (m : ScheduleSeatMetadata)
  | lockSlot (request : LockRequest) (totalSeatCount : ℤ)
  deriving DecidableEq

/-- A request that passes the checks goes on to the gateway. -/
def verified (m : ScheduleSeatMetadata) (request : LockRequest) : Option Task :=
  match m.verify request with
  | .error _ => none
  | .ok totalSeatCount => some (.lockSlot request totalSeatCount)

/-- What follows a statement that was answered. -/
def andThen {ρ : Type} (x : World × Option ρ) (next : ρ → Option Task) : World × Option Task :=
  (x.1, x.2.bind next)

/-- The step of a task: its statement over the link, and what the operation does next. -/
def exec (l : Link) (s : World) : Task → World × Option Task
  | .loadLayout body =>
      andThen (l.deliver (fun s => (s, s.layoutSeats.filter fun seat =>
          decide (seat.layoutId = body.layoutId))) s)
        fun layout => if layout = [] then none else some (.insertSchedule body layout)
  | .insertSchedule body layout =>
      andThen (l.deliver World.insertSchedule s) fun scheduleId =>
        match baseSeats body layout with
        | .error _ => none
        | .ok seats => some (.insertSeats scheduleId seats)
  | .insertSeats scheduleId seats =>
      andThen (l.deliver (World.insertSeats scheduleId seats) s) fun _ => none
  | .addExtraSeats scheduleId seats =>
      andThen (l.deliver (World.addExtraSeats scheduleId seats) s) fun _ => none
  | .startSchedule scheduleId =>
      andThen (l.deliver (World.lifecycle (Schedules.World.start scheduleId)) s) fun _ => none
  | .closeSchedule scheduleId =>
      andThen (l.deliver (World.lifecycle (Schedules.World.close scheduleId)) s) fun _ => none
  | .findSchedule scheduleId =>
      andThen (l.deliver (World.lifecycle fun t => (t, t.findSchedule scheduleId)) s) fun found =>
        found.map fun _ => .markDeleted scheduleId
  | .markDeleted scheduleId =>
      andThen (l.deliver (World.lifecycle (Schedules.World.markDeleted scheduleId)) s) fun _ => none
  | .readMetadata request =>
      match s.metadata request.replica request.scheduleId with
      | some m => (s, verified m request)
      | none => (s, some (.findOpen request))
  | .findOpen request =>
      andThen (l.deliver (World.lifecycle fun t => (t, t.findSchedule request.scheduleId)) s)
        fun found =>
          match found with
          | none => none
          | some schedule =>
              if schedule.lifecycleState = .open_ then some (.loadSeats request) else none
  | .loadSeats request =>
      andThen (l.deliver (fun s => (s, seatsOf s.db.seats request.scheduleId)) s) fun rows =>
        match metadataOfRows rows with
        | .error _ => none
        | .ok m => some (.setMetadata request m)
  | .setMetadata request m =>
      -- a cell that another request has filled keeps its metadata
      match s.metadata request.replica request.scheduleId with
      | some m' => (s, verified m' request)
      | none => (s.setMetadata request.replica request.scheduleId (some m), verified m request)
  | .lockSlot request totalSeatCount =>
      if 0 < totalSeatCount ∧ totalSeatCount ≤ Gateway.maxSeatsPerShow then
        match s.actorSizes request.gateway request.scheduleId with
        | some _ => (s, none)
        | none =>
            match l with
            | .lost => (s, none)
            | _ => (s.setActorSize request.gateway request.scheduleId (some totalSeatCount), none)
      else
        (s, none)

/-! ## Requests -/

inductive Request where
  | createSchedule (body : CreateSchedule)
  | addExtraSeats (scheduleId : ℤ) (seats : List ExtraSeat)
  | startSchedule (scheduleId : ℤ)
  | closeSchedule (scheduleId : ℤ)
  | deleteSchedule (scheduleId : ℤ)
  | lock (request : LockRequest)

def first : Request → Option Task
  | .createSchedule body => some (.loadLayout body)
  | .addExtraSeats scheduleId seats =>
      if seats = [] then none else some (.addExtraSeats scheduleId seats)
  | .startSchedule scheduleId => some (.startSchedule scheduleId)
  | .closeSchedule scheduleId => some (.closeSchedule scheduleId)
  | .deleteSchedule scheduleId => some (.findSchedule scheduleId)
  | .lock request =>
      if request.seatIds = [] ∨ request.seatIds.length ≠ request.seatIndices.length then none
      else some (.readMetadata request)

/-- Time passes; layouts are edited; prices and states of seats are set; replicas and gateways start
anew, and gateways drop the actors of closed shows. -/
inductive Environ where
  | tick (d : ℕ)
  | editLayouts (rows : List SeatLayoutSeat)
  | updateSeat (scheduleId : ℤ) (update : SeatUpdate)
  | restartReplica (replica : ℕ)
  | dropActor (gateway : ℕ) (scheduleId : ℤ)

def environ : Environ → World → World
  | .tick d, s => { s with db := { s.db with now := s.db.now + d } }
  | .editLayouts rows, s => { s with layoutSeats := rows }
  | .updateSeat scheduleId update, s => { s with db := s.db.updateSeat scheduleId update }
  | .restartReplica replica, s =>
      { s with metadata := Redis.setAt s.metadata replica fun _ => none }
  | .dropActor gateway scheduleId, s => s.setActorSize gateway scheduleId none

/-! ## Runs -/

/-- The numbers from 1 to `n`. -/
def oneTo (n : ℕ) : List ℤ :=
  (List.range n).map fun i : ℕ => (i : ℤ) + 1

/-- The indices of the schedule's rows are 1 to their number. -/
def Numbered (rows : List ScheduleSeat) (scheduleId : ℤ) : Prop :=
  ((seatsOf rows scheduleId).map Prod.snd).Perm (oneTo (seatsOf rows scheduleId).length)

/-- The ids of the schedules are drawn from their serial column, and the seats of each are numbered;
the migration has numbered the rows that were there. -/
structure World.Tidy (s : World) : Prop where
  nodup : (s.db.schedules.map ScheduleRow.id).Nodup
  drawn : ∀ r ∈ s.db.schedules, r.id < s.nextScheduleId
  numbered : ∀ scheduleId, Numbered s.db.seats scheduleId

/-- The schedule has been started, and may have been closed since. -/
def World.Started (s : World) (scheduleId : ℤ) : Prop :=
  ∃ r ∈ s.db.schedules, r.id = scheduleId ∧ r.lifecycleState ≠ .scheduled

instance (s : World) (scheduleId : ℤ) : Decidable (s.Started scheduleId) := by
  unfold World.Started
  infer_instance

/-- All the seats conflict. -/
def AllTaken (rows : List ScheduleSeat) (scheduleId : ℤ) (seats : List NewScheduleSeat) : Prop :=
  ∀ seat ∈ seats, IndexTaken rows scheduleId seat ∨ KeyTaken rows scheduleId seat

/-- Of the seats whose indices are free, those whose keys are taken come last. -/
def InOrder (rows : List ScheduleSeat) (scheduleId : ℤ) (seats : List NewScheduleSeat) : Prop :=
  ∀ x ∈ seats, ∀ y ∈ seats, ¬IndexTaken rows scheduleId x → ¬IndexTaken rows scheduleId y →
    x.seatIndex < y.seatIndex → KeyTaken rows scheduleId x → KeyTaken rows scheduleId y

/-- The seats of a layout can be inserted: the schedule has not been started, or they all conflict,
and those that are skipped leave no gap. -/
def World.Fits (s : World) (scheduleId : ℤ) (seats : List NewScheduleSeat) : Prop :=
  (s.Started scheduleId → AllTaken s.db.seats scheduleId seats) ∧
    InOrder s.db.seats scheduleId seats

instance (s : World) (scheduleId : ℤ) (seats : List NewScheduleSeat) :
    Decidable (s.Fits scheduleId seats) := by
  unfold World.Fits AllTaken InOrder
  infer_instance

/-- The seats of a layout are inserted where they fit. -/
def Orderly (p : Crew World Task) : CrewAct Link Environ Request → Prop
  | .run i l =>
      match p.tasks[i]? with
      | some (some (.insertSeats scheduleId seats)) => l = .lost ∨ p.store.Fits scheduleId seats
      | _ => True
  | _ => True

instance (p : Crew World Task) (a : CrewAct Link Environ Request) : Decidable (Orderly p a) := by
  unfold Orderly
  split
  · split
    · infer_instance
    · infer_instance
  · infer_instance

/-- From any schedules and seats, before the replicas and the gateways have started. -/
def handlers : Handlers World Task Link Environ Request where
  init s := s.Tidy ∧ (∀ replica scheduleId, s.metadata replica scheduleId = none) ∧
    ∀ gateway scheduleId, s.actorSizes gateway scheduleId = none
  environ := environ
  first := first
  exec l t s := exec l s t

end SeatNumbering
end Bookit
