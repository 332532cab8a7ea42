import Bookit.Gateway.Store

/-!
# Gateway.Keeper — lock and cancel requests, the show actor and the expiry worker

A lock request admits its seats, hands them to the actor of the show and waits for the answer; the
actor acquires the locks.  The slot of a seat that was locked stays `PROCESSING`, and is cleared by a
cancel request, by a room event, or by the expiry worker.  A schedule that closes takes its actor out
of the map.
-/

namespace Bookit
namespace Gateway

open Lib LockServer SingleNodeLock

/-! ## The actor of a request -/

/-- Whether the schedule is closed in Redis, asked for a show that has no cell. -/
def closedInRedis (g : ℕ) (showtimeId : ℤ) : Service Bool := do
  if ← Prog.perform (Cmd.hasCell g showtimeId) then
    pure false
  else do
    match ← Prog.perform (Cmd.service (.redis .connect)) with
    | none => pure false
    | some () => do
        let closed ← Prog.perform (Cmd.existsClosedKey showtimeId)
        if closed.getD false then do
          Prog.perform (Cmd.insertClosed g showtimeId)
          pure true
        else
          pure false

/-- The cell of a show with its actor in it, from the seat count on. -/
def openActor (g : ℕ) (showtimeId totalSeatCount : ℤ) : Service (Except String ℕ) :=
  if ¬(0 < totalSeatCount ∧ totalSeatCount ≤ maxSeatsPerShow) then
    pure (.error "total_seat_count must be between 1 and 200000")
  else do
    let cell ← Prog.perform (Cmd.actorCell g showtimeId)
    match ← Prog.perform (Cmd.initCell g cell totalSeatCount.toNat) with
    | .error e => pure (.error e)
    | .ok () =>
        match ← Prog.perform (Cmd.checkOpen g cell showtimeId totalSeatCount.toNat) with
        | .error e => pure (.error e)
        | .ok () => pure (.ok cell)

def getOrCreateShowActor (g : ℕ) (showtimeId totalSeatCount : ℤ) : Service (Except String ℕ) := do
  if ← Prog.perform (Cmd.isClosed g showtimeId) then
    pure (.error "schedule is closed")
  else do
    if ← closedInRedis g showtimeId then
      pure (.error "schedule is closed")
    else
      openActor g showtimeId totalSeatCount

/-- The actor of a request, which it may use from `begin_request` on. -/
def beginRequest (g : ℕ) (showtimeId totalSeatCount : ℤ) : Service (Except String ℕ) := do
  match ← getOrCreateShowActor g showtimeId totalSeatCount with
  | .error e => pure (.error e)
  | .ok cell =>
      if ← Prog.perform (Cmd.isClosing g cell) then
        pure (.error "show actor is closing")
      else
        pure (.ok cell)

/-! ## Lock requests -/

/-- The slot of each seat, up to the first that is refused. -/
def registerSeats (g : ℕ) (cell : ℕ) : List (ℤ × ℤ) → Service (Except String (List (ℤ × ℕ)))
  | [] => pure (.ok [])
  | (seatId, seatIndex) :: seats => do
      match ← Prog.perform (Cmd.registerSeat g cell seatId seatIndex) with
      | .error e => pure (.error e)
      | .ok index =>
          match ← registerSeats g cell seats with
          | .error e => pure (.error e)
          | .ok rest => pure (.ok ((seatId, index) :: rest))

/-- The seats whose slots were free, and those whose slots were not. -/
def admitSeats (g : ℕ) (cell : ℕ) :
    List (ℤ × ℕ) → List ℤ → List ℤ → Service (List ℤ × List ℤ)
  | [], admitted, failed => pure (admitted, failed)
  | (seatId, index) :: seats, admitted, failed => do
      if ← Prog.perform (Cmd.tryAdmit g cell index) then
        admitSeats g cell seats (admitted ++ [seatId]) failed
      else
        admitSeats g cell seats admitted (failed ++ [seatId])

/-- The locked seats of an answer; a request is only ever sent answers to its own task. -/
def Answer.lockResult (admitted : List ℤ) : Answer → LockResult
  | .lock result => result
  | .cancel _ => ⟨[], admitted⟩

/-- From the admission on: the task, the answer, and the slots of the seats that failed. -/
def lockAdmitted (g : ℕ) (cell : ℕ) (userId showtimeId : ℤ) (admitted failed : List ℤ) :
    Service LockResult := do
  if ← Prog.perform (Cmd.trySend g cell userId admitted) then do
    let a ← Prog.perform (Cmd.awaitAnswer g)
    let result := a.lockResult admitted
    Prog.perform (Cmd.clearAdmission g showtimeId result.failedSeatIds)
    pure ⟨result.lockedSeatIds, result.failedSeatIds ++ failed⟩
  else do
    Prog.perform (Cmd.clearAdmission g showtimeId admitted)
    pure ⟨[], failed ++ admitted⟩

def lock (g : ℕ) (userId showtimeId : ℤ) (seatIds seatIndices : List ℤ) (totalSeatCount : ℤ) :
    Service (Except String LockResult) :=
  if seatIds.length ≠ seatIndices.length then
    pure (.error "seat_ids and seat_indices must have the same length")
  else do
    match ← beginRequest g showtimeId totalSeatCount with
    | .error e => pure (.error e)
    | .ok cell =>
        match ← registerSeats g cell (seatIds.zip seatIndices) with
        | .error e => pure (.error e)
        | .ok seats => do
            let r ← admitSeats g cell seats [] []
            if r.1 = [] then
              pure (.ok ⟨[], r.2⟩)
            else do
              let result ← lockAdmitted g cell userId showtimeId r.1 r.2
              pure (.ok result)

/-! ## Cancel requests -/

/-- Whether a checkout key of one of the seats exists. -/
def anyCheckout (showtimeId : ℤ) : List ℤ → Op Bool
  | [] => pure false
  | seatId :: seatIds => do
      let found ← Prog.perform (Redis.Cmd.existsCheckout showtimeId seatId)
      if found.getD false then
        pure true
      else
        anyCheckout showtimeId seatIds

/-- Without a connection the seats pass for free of checkouts. -/
def checkoutInProgress (showtimeId : ℤ) (seatIds : List ℤ) : Op Bool := do
  match ← Prog.perform Redis.Cmd.connect with
  | none => pure false
  | some () => anyCheckout showtimeId seatIds

def cancel (g : ℕ) (userId showtimeId : ℤ) (seatIds seatIndices : List ℤ) (totalSeatCount : ℤ) :
    Service (Except String (List ℤ)) :=
  if seatIds.length ≠ seatIndices.length then
    pure (.error "seat_ids and seat_indices must have the same length")
  else do
    match ← beginRequest g showtimeId totalSeatCount with
    | .error e => pure (.error e)
    | .ok cell =>
        match ← registerSeats g cell (seatIds.zip seatIndices) with
        | .error e => pure (.error e)
        | .ok _ => do
            if ← onRedis (checkoutInProgress showtimeId seatIds) then
              pure (.error "Cannot cancel seats while checkout is in progress")
            else do
              Prog.perform (Cmd.clearAdmission g showtimeId seatIds)
              Prog.perform (Cmd.send g cell userId seatIds)
              match ← Prog.perform (Cmd.awaitAnswer g) with
              | .cancel cancelled => pure (.ok cancelled)
              | .lock _ => pure (.ok [])

/-! ## The show actor -/

/-- The lock of each seat in turn: the seats that were locked, and those that were not. -/
def acquireSeats (showtimeId userId : ℤ) : List ℤ → LockResult → Op LockResult
  | [], result => pure result
  | seatId :: seatIds, result => do
      if ← acquireDistributedLock showtimeId seatId userId 300 then
        acquireSeats showtimeId userId seatIds
          { result with lockedSeatIds := result.lockedSeatIds ++ [seatId] }
      else
        acquireSeats showtimeId userId seatIds
          { result with failedSeatIds := result.failedSeatIds ++ [seatId] }

/-- Locks that could not be published stay acquired. -/
def acquireAndPublish (userId showtimeId : ℤ) (seatIds : List ℤ) : Service LockResult := do
  let result ← onRedis (acquireSeats showtimeId userId seatIds ⟨[], []⟩)
  if result.lockedSeatIds = [] then
    pure result
  else do
    let _ ← Prog.perform (Cmd.publishLocking
      { action := "lock", userId := userId, showtimeId := showtimeId,
        seatIds := result.lockedSeatIds })
    pure result

def cancelCommitted (userId showtimeId : ℤ) (seatIds : List ℤ) : Service (List ℤ) := do
  if ← Prog.perform (Cmd.publishLocking
      { action := "unlock", userId := userId, showtimeId := showtimeId, seatIds := seatIds }) then
    pure seatIds
  else
    pure []

def serve (g : ℕ) (showtimeId : ℤ) : GatewayTask → Service Unit
  | .lock ticket userId seatIds => do
      let result ← acquireAndPublish userId showtimeId seatIds
      Prog.perform (Cmd.answer g ticket (.lock result))
  | .cancel ticket userId seatIds => do
      let cancelled ← cancelCommitted userId showtimeId seatIds
      Prog.perform (Cmd.answer g ticket (.cancel cancelled))

/-- The tasks of a show's actor, one after the other, for a number of rounds. -/
def runShowActor (g : ℕ) (showtimeId : ℤ) (cell : ℕ) : ℕ → Service Unit
  | 0 => pure ()
  | rounds + 1 => do
      let task ← Prog.perform (Cmd.recv g cell)
      serve g showtimeId task
      runShowActor g showtimeId cell rounds

/-! ## Closing a schedule -/

def markScheduleClosed (g : ℕ) (showtimeId : ℤ) : Service Unit := do
  Prog.perform (Cmd.insertClosed g showtimeId)
  match ← Prog.perform (Cmd.removeCell g showtimeId) with
  | none => pure ()
  | some cell => Prog.perform (Cmd.setClosing g cell)

/-! ## The expiry worker -/

/-- What the worker does before it clears the slot; whether it goes on to do so.  Where the lookup
fails, the seat passes for unlocked. -/
def checkDueEntry (now : ℤ) (entry : QueueEntry) : Op Bool := do
  let owner ← getLockOwner entry.scheduleId entry.seatId
  if owner = none then
    pure true
  else if owner ≠ some entry.userId then do
    zremClusterQueue entry
    pure false
  else do
    let checkout ← Prog.perform (Redis.Cmd.existsCheckout entry.scheduleId entry.seatId)
    if checkout.getD false then do
      zaddClusterQueue entry (now + 300)
      pure false
    else do
      let _ ← releaseLock entry.scheduleId entry.seatId entry.userId
      pure true

/-- What follows the clearing of the slot. -/
def finishDueEntry (entry : QueueEntry) : Op Unit := do
  zremClusterQueue entry
  setScheduleSeatBitmapStateCluster entry.scheduleId entry.seatId .available
  publishRoomEvent (.seatUnlocked entry.userId entry.scheduleId entry.seatId)

/-- One due entry of a scan of the queue at time `now`. -/
def releaseExpiredEntry (g : ℕ) (now : ℤ) (entry : QueueEntry) : Service Unit := do
  if ← onRedis (checkDueEntry now entry) then do
    Prog.perform (Cmd.clearAdmission g entry.scheduleId [entry.seatId])
    onRedis (finishDueEntry entry)
  else
    pure ()

end Gateway
end Bookit
