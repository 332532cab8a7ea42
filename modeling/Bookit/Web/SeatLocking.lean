import Bookit.Redis.Events

/-!
# Web.SeatLocking — from a room event to the seats on the page

The socket adapter of the ws-server rewrites the two seat events of the lock path and forwards every
other room event as it is.  In the browser a hook keeps four lists of seats, from which the page
computes the status of each seat.
-/

namespace Bookit

/-! ## The socket adapter -/

namespace PubSubEvent

/-- The fields of the two seat events. -/
def seatFields (payload : Json) : Option (ℤ × ℤ × ℤ) :=
  match (payload.get "user_id").bind Json.asI64, (payload.get "showtime_id").bind Json.asI64,
      (payload.get "seat_id").bind Json.asI64 with
  | some userId, some showtimeId, some seatId => some (userId, showtimeId, seatId)
  | _, _, _ => none

/-- A payload read as one of the two seat events; any other, well formed or not, is forwarded as it
is. -/
def seatEvent (payload : Json) : Option PubSubEvent :=
  match (payload.get "event").bind Json.asStr with
  | none => none
  | some tag =>
      if tag = "SeatLocked" then
        (seatFields payload).map fun f => seatLocked f.1 f.2.1 f.2.2
      else if tag = "SeatUnlocked" then
        (seatFields payload).map fun f => seatUnlocked f.1 f.2.1 f.2.2
      else
        none

end PubSubEvent

namespace Web

/-- What the adapter broadcasts to the sockets of a room. -/
def forward (showtimeId : ℤ) (payload : Json) : Json :=
  match PubSubEvent.seatEvent payload with
  | some (.seatLocked userId _ seatId) =>
      .obj [("event", .str "seat_locked"), ("seat_id", .num seatId),
        ("showtime_id", .num showtimeId), ("user_id", .num userId)]
  | some (.seatUnlocked _ _ seatId) =>
      .obj [("event", .str "seat_unlocked"), ("seat_id", .num seatId),
        ("showtime_id", .num showtimeId)]
  | _ => payload

/-! ## The seat hook -/

/-- The seat lists of `useSeatLocking`. -/
structure SeatHook where
  lockedSeatIds : List ℤ
  myLockedSeats : List ℤ
  bookedSeatIds : List ℤ
  externallyLockedSeats : List ℤ

/-- `[...new Set([...prev, id])]`. -/
def withSeat (seatId : ℤ) (prev : List ℤ) : List ℤ :=
  (prev ++ [seatId]).eraseDups

def withoutSeats (seatIds prev : List ℤ) : List ℤ :=
  prev.filter fun id => !decide (id ∈ seatIds)

/-- `msg.seat_id` where it is truthy. -/
def seatIdOf (msg : Json) : Option ℤ :=
  match (msg.get "seat_id").bind Json.asI64 with
  | none => none
  | some seatId => if seatId = 0 then none else some seatId

/-- `msg.seat_ids || (msg.seat_id ? [msg.seat_id] : [])`. -/
def seatIdsOf (msg : Json) : List ℤ :=
  match (msg.get "seat_ids").bind Json.asArray with
  | some values => values.filterMap Json.asI64
  | none => (seatIdOf msg).toList

def eventOf (msg : Json) : Option String := (msg.get "event").bind Json.asStr

namespace SeatHook

def onLocked (wsUserId : Option ℤ) (msg : Json) (h : SeatHook) : SeatHook :=
  match seatIdOf msg with
  | none => h
  | some seatId =>
      if eventOf msg = some "seat_locked" then
        if wsUserId ≠ none ∧ (msg.get "user_id").bind Json.asI64 = wsUserId then
          { h with
            lockedSeatIds := withSeat seatId h.lockedSeatIds
            myLockedSeats := withSeat seatId h.myLockedSeats }
        else
          { h with
            lockedSeatIds := withSeat seatId h.lockedSeatIds
            externallyLockedSeats := withSeat seatId h.externallyLockedSeats }
      else
        h

def onBooked (msg : Json) (h : SeatHook) : SeatHook :=
  match seatIdOf msg with
  | none => h
  | some seatId =>
      if eventOf msg = some "seat_booked" then
        { h with
          bookedSeatIds := withSeat seatId h.bookedSeatIds
          lockedSeatIds := withoutSeats [seatId] h.lockedSeatIds
          myLockedSeats := withoutSeats [seatId] h.myLockedSeats }
      else
        h

def onUnlocked (msg : Json) (h : SeatHook) : SeatHook :=
  if eventOf msg = some "SeatUnlocked" ∨ eventOf msg = some "unlock_slot" ∨
      eventOf msg = some "seat_unlocked" then
    { h with
      lockedSeatIds := withoutSeats (seatIdsOf msg) h.lockedSeatIds
      myLockedSeats := withoutSeats (seatIdsOf msg) h.myLockedSeats }
  else
    h

/-- The seat events of `useSeatLocking`, for the user of the socket. -/
def onMessage (wsUserId : Option ℤ) (msg : Json) (h : SeatHook) : SeatHook :=
  ((h.onLocked wsUserId msg).onBooked msg).onUnlocked msg

/-- The status the page computes from the lists. -/
def status (h : SeatHook) (seatId : ℤ) : SeatState :=
  if seatId ∈ h.myLockedSeats then
    .locked
  else if seatId ∈ h.bookedSeatIds then
    .booked
  else if seatId ∈ h.lockedSeatIds then
    .locked
  else
    .available

end SeatHook

@[simp] theorem mem_withSeat {seatId k : ℤ} {prev : List ℤ} :
    k ∈ withSeat seatId prev ↔ k ∈ prev ∨ k = seatId := by
  simp [withSeat]

@[simp] theorem mem_withoutSeats {seatIds prev : List ℤ} {k : ℤ} :
    k ∈ withoutSeats seatIds prev ↔ k ∈ prev ∧ k ∉ seatIds := by
  simp [withoutSeats]

end Web
end Bookit
