import Bookit.Redis.SingleNodeLock

/-!
# Redis.Events — the events of a show's room

The lock-server and the gateway publish `PubSubEvent` values, which serialize to an object tagged
with the variant's name.
-/

namespace Bookit

inductive PubSubEvent where
  | seatLocked (userId showtimeId seatId : ℤ)
  | seatUnlocked (userId showtimeId seatId : ℤ)
  | lockSlotsResponse (userId showtimeId : ℤ) (success : Bool)
      (lockedSeatIds failedSeatIds : List ℤ)
  deriving DecidableEq

namespace PubSubEvent

def toJson : PubSubEvent → Json
  | seatLocked userId showtimeId seatId =>
      .obj [("event", .str "SeatLocked"), ("user_id", .num userId),
        ("showtime_id", .num showtimeId), ("seat_id", .num seatId)]
  | seatUnlocked userId showtimeId seatId =>
      .obj [("event", .str "SeatUnlocked"), ("user_id", .num userId),
        ("showtime_id", .num showtimeId), ("seat_id", .num seatId)]
  | lockSlotsResponse userId showtimeId success lockedSeatIds failedSeatIds =>
      .obj [("event", .str "LockSlotsResponse"), ("user_id", .num userId),
        ("showtime_id", .num showtimeId), ("success", .bool success),
        ("locked_seat_ids", .arr (lockedSeatIds.map Json.num)),
        ("failed_seat_ids", .arr (failedSeatIds.map Json.num))]

/-- The room of an event; a response is not for a room. -/
def room : PubSubEvent → Option ℤ
  | seatLocked _ showtimeId _ => some showtimeId
  | seatUnlocked _ showtimeId _ => some showtimeId
  | lockSlotsResponse .. => none

end PubSubEvent

namespace SingleNodeLock

def publishRoomEvent (event : PubSubEvent) : Op Unit :=
  match event.room with
  | none => pure ()
  | some showtimeId => publishEvent (.room showtimeId) event.toJson

def publishGlobalEvent (event : PubSubEvent) : Op Unit :=
  publishEvent .globalEvents event.toJson

end SingleNodeLock
end Bookit
