import Bookit.Payments.Store
import Bookit.Redis.Events

/-!
# LockServer.Handlers — lock messages and due entries of the delayed queue

`process_lock_request` handles one message of the locking queue, and the seat-layout updater handles
the due entries of the delayed queue one by one: a seat that the database has as booked is booked in
Redis, any other is released.
-/

namespace Bookit
namespace LockServer

open Lib Payments SingleNodeLock

/-- `LOCK_TTL_SECS`. -/
def lockTtlSecs : ℤ := 300

/-- A message of `locking_queue`. -/
structure SeatLockMessage where
  action : String
  userId : ℤ
  showtimeId : ℤ
  seatIds : List ℤ
  deriving DecidableEq

/-! ## Lock and unlock messages -/

/-- Each seat released in turn, with an event where the release went through. -/
def unlockSeats (showtimeId userId : ℤ) : List ℤ → Op Unit
  | [] => pure ()
  | seatId :: seatIds => do
      if ← releaseLock showtimeId seatId userId then do
        publishRoomEvent (.seatUnlocked userId showtimeId seatId)
        unlockSeats showtimeId userId seatIds
      else
        unlockSeats showtimeId userId seatIds

/-- The metadata of the seats, in at most this many attempts. -/
def updateMetadata (message : SeatLockMessage) : ℕ → Op Bool
  | 0 => pure false
  | attempts + 1 => do
      if ← updateSeatMetadataLua message.showtimeId message.seatIds message.userId lockTtlSecs then
        pure true
      else
        updateMetadata message attempts

def announceLocked (showtimeId userId : ℤ) : List ℤ → Op Unit
  | [] => pure ()
  | seatId :: seatIds => do
      publishRoomEvent (.seatLocked userId showtimeId seatId)
      announceLocked showtimeId userId seatIds

def processLockRequest (message : SeatLockMessage) : Op Unit :=
  if message.action = "unlock" then
    unlockSeats message.showtimeId message.userId message.seatIds
  else do
    if ← updateMetadata message 3 then do
      announceLocked message.showtimeId message.userId message.seatIds
      publishGlobalEvent
        (.lockSlotsResponse message.userId message.showtimeId true message.seatIds [])
    else
      publishGlobalEvent
        (.lockSlotsResponse message.userId message.showtimeId false [] message.seatIds)

/-! ## The seat-layout updater -/

/-- `is_seat_booked_in_db`: a booked row of the seat, or any active ticket of the schedule; false
also where a query fails. -/
def isSeatBookedInDb (scheduleId seatId : ℤ) : Service Bool := do
  match ← Prog.perform Cmd.connect with
  | none => pure false
  | some () =>
      let booked ← Prog.perform (Cmd.bookedCount scheduleId seatId)
      if 0 < booked.getD 0 then
        pure true
      else do
        let tickets ← Prog.perform (Cmd.activeTicketCount scheduleId)
        pure (decide (0 < tickets.getD 0))

/-- The release of a due entry; the event is published whatever the script answered. -/
def releaseDueEntry (entry : QueueEntry) : Op Unit := do
  let _ ← releaseExpiredLockLua entry.scheduleId entry.seatId entry.userId entry
  publishRoomEvent (.seatUnlocked entry.userId entry.scheduleId entry.seatId)

/-- One due entry of a scan of the queue. -/
def processDueEntry (entry : QueueEntry) : Service Unit := do
  if ← isSeatBookedInDb entry.scheduleId entry.seatId then
    onRedis (forceBookSeatLua entry.scheduleId entry.seatId entry.userId entry)
  else
    onRedis (releaseDueEntry entry)

end LockServer
end Bookit
