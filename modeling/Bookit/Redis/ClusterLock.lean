import Bookit.Lib.Lockstep
import Bookit.Redis.Pools

/-!
# Redis.ClusterLock — the lock over a Redis cluster

The second implementation of the seat lock.  Scores are in milliseconds, a queue member is `seat:user`
or the text of an entry, and the context key is deleted but never set.  A script whose keys lie in
different slots of the cluster is refused.
-/

namespace Bookit

open Lib

/-- The keys that the cluster lock uses; queue and room members are texts. -/
structure ClusterRedis where
  now : ℕ
  seatLock : Expiring (ℤ × ℤ) ℤ
  seatContext : Expiring (ℤ × ℤ × ℤ) Unit
  userLocks : ℤ × ℤ → SortedSet ℤ
  roomLocks : ℤ → SortedSet String
  queue : SortedSet String
  bitmap : ℤ × ℤ → SeatState

namespace ClusterRedis

open Redis (setAt maxExpiry)

def empty : ClusterRedis :=
  { now := 0, seatLock := .empty, seatContext := .empty, userLocks := fun _ => .empty,
    roomLocks := fun _ => .empty, queue := .empty, bitmap := fun _ => .available }

def lockOwner (s : ClusterRedis) (showtimeId seatId : ℤ) : Option ℤ :=
  s.seatLock.lookup s.now (showtimeId, seatId)

/-- `current_owner == false or current_owner == user_id`. -/
def freeOrOwnedBy (s : ClusterRedis) (showtimeId seatId userId : ℤ) : Bool :=
  match s.lockOwner showtimeId seatId with
  | none => true
  | some owner => decide (owner = userId)

/-- `SystemTime::now()` in seconds. -/
def timestamp (s : ClusterRedis) : ℤ := ((s.now / 1000 : ℕ) : ℤ)

/-- `PX` takes a positive time that does not overflow. -/
def validTtl (s : ClusterRedis) (ttlMs : ℕ) : Bool :=
  decide (0 < ttlMs ∧ s.now + ttlMs ≤ maxExpiry)

/-! ## Updates of one structure -/

def putLock (s : ClusterRedis) (showtimeId seatId userId : ℤ) (ttlMs : ℕ) : ClusterRedis :=
  { s with seatLock := s.seatLock.put (showtimeId, seatId) userId (s.now + ttlMs) }

def delLock (s : ClusterRedis) (showtimeId seatId userId : ℤ) : ClusterRedis :=
  { s with
    seatLock := s.seatLock.del (showtimeId, seatId)
    seatContext := s.seatContext.del (showtimeId, seatId, userId) }

def zaddUser (s : ClusterRedis) (showtimeId userId seatId score : ℤ) : ClusterRedis :=
  { s with userLocks :=
      setAt s.userLocks (showtimeId, userId) ((s.userLocks (showtimeId, userId)).add seatId score) }

def zremUser (s : ClusterRedis) (showtimeId userId seatId : ℤ) : ClusterRedis :=
  { s with userLocks :=
      setAt s.userLocks (showtimeId, userId) ((s.userLocks (showtimeId, userId)).rem seatId) }

def zaddRoom (s : ClusterRedis) (showtimeId : ℤ) (member : String) (score : ℤ) : ClusterRedis :=
  { s with roomLocks :=
      setAt s.roomLocks showtimeId ((s.roomLocks showtimeId).add member score) }

def zremRoom (s : ClusterRedis) (showtimeId : ℤ) (member : String) : ClusterRedis :=
  { s with roomLocks := setAt s.roomLocks showtimeId ((s.roomLocks showtimeId).rem member) }

def zaddQueue (s : ClusterRedis) (member : String) (score : ℤ) : ClusterRedis :=
  { s with queue := s.queue.add member score }

def zremQueue (s : ClusterRedis) (member : String) : ClusterRedis :=
  { s with queue := s.queue.rem member }

/-- `BITFIELD SET u2` at twice a seat id that is not negative. -/
def setBits (s : ClusterRedis) (showtimeId seatId : ℤ) (state : SeatState) : ClusterRedis :=
  { s with bitmap := setAt s.bitmap (showtimeId, seatId) state }

end ClusterRedis

namespace ClusterLock

/-! ## Keys -/

def seatLockKey (scheduleId seatId : ℤ) : String :=
  toString scheduleId ++ ":" ++ toString seatId

def seatUserContextKey (scheduleId seatId userId : ℤ) : String :=
  "seat_ctx:\x7b" ++ toString scheduleId ++ "\x7d:" ++ toString seatId ++ ":" ++ toString userId

def roomZsetKey (showtimeId : ℤ) : String :=
  "\x7b" ++ toString showtimeId ++ "\x7d:locks"

def userZsetKey (showtimeId userId : ℤ) : String :=
  "\x7b" ++ toString showtimeId ++ "\x7d:user:" ++ toString userId

def scheduleSeatBitmap (scheduleId : ℤ) : String :=
  "\x7b" ++ toString scheduleId ++ "\x7d:seats_bitmap"

def seatProcessingQueueKey : String := "cache:seat_processing:queue"

/-- The keys of the script that acquires a lock. -/
def acquireKeys (showtimeId seatId userId : ℤ) : List String :=
  [seatLockKey showtimeId seatId, roomZsetKey showtimeId, userZsetKey showtimeId userId,
    seatProcessingQueueKey, scheduleSeatBitmap showtimeId]

/-- The keys of the script that releases a lock. -/
def releaseKeys (showtimeId seatId userId : ℤ) : List String :=
  [seatLockKey showtimeId seatId, seatUserContextKey showtimeId seatId userId]

/-- The keys of the scripts for a due entry and for a booking. -/
def allKeys (showtimeId seatId userId : ℤ) : List String :=
  [seatLockKey showtimeId seatId, seatUserContextKey showtimeId seatId userId,
    roomZsetKey showtimeId, userZsetKey showtimeId userId, seatProcessingQueueKey,
    scheduleSeatBitmap showtimeId]

/-- The keys of the script that writes metadata. -/
def metadataKeys (showtimeId userId : ℤ) : List String :=
  [roomZsetKey showtimeId, userZsetKey showtimeId userId, scheduleSeatBitmap showtimeId]

/-- Every key is in the slot of the first. -/
def OneSlot (slot : String → ℕ) : List String → Prop
  | [] => True
  | key :: keys => ∀ other ∈ keys, slot other = slot key

instance {slot : String → ℕ} {keys : List String} : Decidable (OneSlot slot keys) := by
  cases keys with
  | nil => exact .isTrue trivial
  | cons key keys => exact inferInstanceAs (Decidable (∀ other ∈ keys, _))

/-- What is between the first `{` and the next `}`, where that is not empty, and else the key. -/
def hashTag (key : List Char) : List Char :=
  match key.dropWhile (· ≠ '\x7b') with
  | [] => key
  | _ :: rest =>
      let tag := rest.takeWhile (· ≠ '\x7d')
      if tag = [] ∨ tag = rest then key else tag

/-- The slot of a key in a Redis cluster. -/
def hashSlot (key : String) : ℕ :=
  (SingleNodeLock.crc16 (String.ofList (hashTag key.toList)).toUTF8.data.toList).toNat % 16384

/-- A script, refused where its keys are not in one slot. -/
def evalScript (slot : String → ℕ) (keys : List String)
    (script : ClusterRedis → ClusterRedis × Option ℤ) (s : ClusterRedis) :
    ClusterRedis × Option ℤ :=
  if OneSlot slot keys then script s else (s, none)

/-! ## Times and members -/

/-- `(expires_in_sec * 1000) as u64`; the product is one of 32 bits. -/
def ttlMs (expiresInSec : ℤ) : ℕ :=
  ((expiresInSec * 1000).bmod (2 ^ 32) % 2 ^ 64).toNat

/-- `now + ttl_ms as i64`. -/
def expiry (now ttlMs : ℕ) : ℤ :=
  now + (ttlMs : ℤ).bmod (2 ^ 64)

/-- `now + (expires_in_sec as i64 * 1000) + 15000`. -/
def processingExpiry (now : ℕ) (expiresInSec : ℤ) : ℤ :=
  now + expiresInSec * 1000 + 15000

/-- `"{seat_id}:{user_id}"`. -/
def pairMember (seatId userId : ℤ) : String :=
  toString seatId ++ ":" ++ toString userId

/-- The text of an entry, its fields in the order in which they are given. -/
def objectText (entry : QueueEntry) : String :=
  "\x7b\"seat_id\":" ++ toString entry.seatId ++ ",\"schedule_id\":" ++ toString entry.scheduleId ++
    ",\"user_id\":" ++ toString entry.userId ++ "\x7d"

/-! ## Scripts -/

def acquireScript (showtimeId seatId userId : ℤ) (ttlMs : ℕ) (expiry : ℤ) (queueMember : String)
    (processingExpiry : ℤ) (s : ClusterRedis) : ClusterRedis × Option ℤ :=
  if s.freeOrOwnedBy showtimeId seatId userId then
    if s.validTtl ttlMs then
      (((((s.putLock showtimeId seatId userId ttlMs).zaddRoom showtimeId queueMember
        expiry).zaddUser showtimeId userId seatId expiry).zaddQueue queueMember
          processingExpiry).setBits showtimeId seatId .locked, some 1)
    else
      (s, none)
  else
    (s, some 0)

/-- The metadata of each seat in turn. -/
def metadataScript (showtimeId userId expiry : ℤ) :
    List (ℤ × String) → ClusterRedis → ClusterRedis × Option ℤ
  | [], s => (s, some 1)
  | (seatId, queueMember) :: seats, s =>
      metadataScript showtimeId userId expiry seats
        (((s.zaddRoom showtimeId queueMember expiry).zaddUser showtimeId userId seatId
          expiry).setBits showtimeId seatId .locked)

def releaseScript (showtimeId seatId userId : ℤ) (s : ClusterRedis) : ClusterRedis × Option ℤ :=
  if s.freeOrOwnedBy showtimeId seatId userId then
    if s.lockOwner showtimeId seatId = none then
      (s, some 1)
    else
      (s.delLock showtimeId seatId userId, some 1)
  else
    (s, some 0)

/-- What the scripts for a due entry and for a booking do to the keys of a seat. -/
def dropKeys (showtimeId seatId userId : ℤ) (queueMember : String) (state : SeatState)
    (s : ClusterRedis) : ClusterRedis :=
  ((((s.delLock showtimeId seatId userId).zremRoom showtimeId queueMember).zremUser
    showtimeId userId seatId).zremQueue queueMember).setBits showtimeId seatId state

def releaseExpiredScript (showtimeId seatId userId : ℤ) (queueMember : String) (s : ClusterRedis) :
    ClusterRedis × Option ℤ :=
  if s.freeOrOwnedBy showtimeId seatId userId then
    (dropKeys showtimeId seatId userId queueMember .available s, some 1)
  else
    (s, some 0)

/-- `if current_owner == user_id`: the lock of another user does not count, nor does none. -/
def bookScript (showtimeId seatId userId : ℤ) (queueMember : String) (s : ClusterRedis) :
    ClusterRedis × Option ℤ :=
  if s.lockOwner showtimeId seatId = some userId then
    (dropKeys showtimeId seatId userId queueMember .booked s, some 1)
  else
    (s, some 0)

/-- The lock is deleted whoever owns it. -/
def forceBookScript (showtimeId seatId userId : ℤ) (queueMember : String) (s : ClusterRedis) :
    ClusterRedis × Option ℤ :=
  (dropKeys showtimeId seatId userId queueMember .booked s, some 1)

/-! ## The operations -/

section Operations

-- The slot of a key, and the text of the JSON object of an entry.
variable (slot : String → ℕ) (entryText : QueueEntry → String)

def acquireSeatLockLua (showtimeId seatId userId expiresInSec : ℤ) (s : ClusterRedis) :
    ClusterRedis × Bool :=
  if seatId < 0 then
    (s, false)
  else
    let ttl := ttlMs expiresInSec
    let result := evalScript slot (acquireKeys showtimeId seatId userId)
      (acquireScript showtimeId seatId userId ttl (expiry s.now ttl) (pairMember seatId userId)
        (processingExpiry s.now expiresInSec)) s
    (result.1, decide (result.2 = some 1))

/-- `SET NX PX` and nothing else. -/
def acquireDistributedLock (showtimeId seatId userId expiresInSec : ℤ) (s : ClusterRedis) :
    ClusterRedis × Bool :=
  let ttl := ttlMs expiresInSec
  if s.validTtl ttl ∧ s.lockOwner showtimeId seatId = none then
    (s.putLock showtimeId seatId userId ttl, true)
  else
    (s, false)

/-- One `ZADD` of an entry for each seat, in order. -/
def enqueue (showtimeId userId processingExpiry : ℤ) : List ℤ → ClusterRedis → ClusterRedis
  | [], s => s
  | seatId :: seatIds, s =>
      enqueue showtimeId userId processingExpiry seatIds
        (s.zaddQueue (entryText (SingleNodeLock.queueMember showtimeId seatId userId))
          processingExpiry)

/-- A seat without a bit offset is left out of the script, not of the queue. -/
def updateSeatMetadataLua (showtimeId : ℤ) (seatIds : List ℤ) (userId expiresInSec : ℤ)
    (s : ClusterRedis) : ClusterRedis × Bool :=
  let seats := (seatIds.filter fun seatId => decide (0 ≤ seatId)).map fun seatId =>
    (seatId, entryText (SingleNodeLock.queueMember showtimeId seatId userId))
  let result := evalScript slot (metadataKeys showtimeId userId)
    (metadataScript showtimeId userId (expiry s.now (ttlMs expiresInSec)) seats) s
  let queued :=
    if result.2 = none then result.1
    else enqueue entryText showtimeId userId (processingExpiry s.now expiresInSec) seatIds result.1
  (queued, decide (result.2 = some 1))

def setScheduleSeatBitmapStateCluster (showtimeId seatId : ℤ) (state : SeatState)
    (s : ClusterRedis) : ClusterRedis :=
  if seatId < 0 then s else s.setBits showtimeId seatId state

def releaseLock (showtimeId seatId userId : ℤ) (s : ClusterRedis) : ClusterRedis × Bool :=
  let result := evalScript slot (releaseKeys showtimeId seatId userId)
    (releaseScript showtimeId seatId userId) s
  if result.2 = some 1 then
    let queueMember := pairMember seatId userId
    (setScheduleSeatBitmapStateCluster showtimeId seatId .available
      (((result.1.zremUser showtimeId userId seatId).zremRoom showtimeId queueMember).zremQueue
        queueMember), true)
  else
    (result.1, false)

/-- A script with all the keys of a seat, for a seat that has a bit offset. -/
def evalAllKeys (script : ClusterRedis → ClusterRedis × Option ℤ)
    (showtimeId seatId userId : ℤ) (s : ClusterRedis) : ClusterRedis × Bool :=
  if seatId < 0 then
    (s, false)
  else
    let result := evalScript slot (allKeys showtimeId seatId userId) script s
    (result.1, decide (result.2 = some 1))

def releaseExpiredLockLua (showtimeId seatId userId : ℤ) (queueMember : String) :
    ClusterRedis → ClusterRedis × Bool :=
  evalAllKeys slot (releaseExpiredScript showtimeId seatId userId queueMember)
    showtimeId seatId userId

def bookSeatLua (showtimeId seatId userId : ℤ) : ClusterRedis → ClusterRedis × Bool :=
  evalAllKeys slot (bookScript showtimeId seatId userId (pairMember seatId userId))
    showtimeId seatId userId

def forceBookSeatLua (showtimeId seatId userId : ℤ) (queueMember : String) (s : ClusterRedis) :
    ClusterRedis :=
  (evalAllKeys slot (forceBookScript showtimeId seatId userId queueMember)
    showtimeId seatId userId s).1

def getLockOwner (showtimeId seatId : ℤ) (s : ClusterRedis) : Option ℤ :=
  s.lockOwner showtimeId seatId

def userHoldsLock (showtimeId seatId userId : ℤ) (s : ClusterRedis) : Bool :=
  (s.seatContext.lookup s.now (showtimeId, seatId, userId)).isSome

/-- The scores are in milliseconds, the bound is in seconds. -/
def getUserLockedSeats (showtimeId userId : ℤ) (s : ClusterRedis) : List ℤ :=
  (s.userLocks (showtimeId, userId)).rangeFrom SingleNodeLock.textLe s.timestamp

def seatBitmap (showtimeId : ℤ) (s : ClusterRedis) (seatId : ℤ) : SeatState :=
  s.bitmap (showtimeId, seatId)

end Operations

/-! ## The trait -/

/-- The operations on locks, and the reads; a queue member is any text. -/
inductive Operation where
  | acquireSeatLockLua (showtimeId seatId userId expiresInSec : ℤ)
  | acquireDistributedLock (showtimeId seatId userId expiresInSec : ℤ)
  | updateSeatMetadataLua (showtimeId : ℤ) (seatIds : List ℤ) (userId expiresInSec : ℤ)
  | releaseLock (showtimeId seatId userId : ℤ)
  | releaseExpiredLockLua (showtimeId seatId userId : ℤ) (queueMember : String)
  | getLockOwner (showtimeId seatId : ℤ)
  | userHoldsLock (showtimeId seatId userId : ℤ)
  | getUserLockedSeats (showtimeId userId : ℤ)
  | getScheduleSeatBitmapStateCluster (showtimeId : ℤ)
  | setScheduleSeatBitmapStateCluster (showtimeId seatId : ℤ) (state : SeatState)
  | bookSeatLua (showtimeId seatId userId : ℤ)
  | forceBookSeatLua (showtimeId seatId userId : ℤ) (queueMember : String)

/-- Time passes, or an operation is completed. -/
inductive Step where
  | tick (d : ℕ)
  | perform (operation : Operation)

open SingleNodeLock (Answer Pools)

section Trait

variable (slot : String → ℕ) (entryText : QueueEntry → String)
variable (entryOf : String → Option QueueEntry)

def perform (s : ClusterRedis) : Operation → ClusterRedis × Answer
  | .acquireSeatLockLua showtimeId seatId userId expiresInSec =>
      (acquireSeatLockLua slot showtimeId seatId userId expiresInSec s).map id .flag
  | .acquireDistributedLock showtimeId seatId userId expiresInSec =>
      (acquireDistributedLock showtimeId seatId userId expiresInSec s).map id .flag
  | .updateSeatMetadataLua showtimeId seatIds userId expiresInSec =>
      (updateSeatMetadataLua slot entryText showtimeId seatIds userId expiresInSec s).map id .flag
  | .releaseLock showtimeId seatId userId =>
      (releaseLock slot showtimeId seatId userId s).map id .flag
  | .releaseExpiredLockLua showtimeId seatId userId queueMember =>
      (releaseExpiredLockLua slot showtimeId seatId userId queueMember s).map id .flag
  | .getLockOwner showtimeId seatId => (s, .owner (getLockOwner showtimeId seatId s))
  | .userHoldsLock showtimeId seatId userId => (s, .flag (userHoldsLock showtimeId seatId userId s))
  | .getUserLockedSeats showtimeId userId => (s, .seats (getUserLockedSeats showtimeId userId s))
  | .getScheduleSeatBitmapStateCluster showtimeId => (s, .bitmap (seatBitmap showtimeId s))
  | .setScheduleSeatBitmapStateCluster showtimeId seatId state =>
      (setScheduleSeatBitmapStateCluster showtimeId seatId state s, .done)
  | .bookSeatLua showtimeId seatId userId =>
      (bookSeatLua slot showtimeId seatId userId s).map id .flag
  | .forceBookSeatLua showtimeId seatId userId queueMember =>
      (forceBookSeatLua slot showtimeId seatId userId queueMember s, .done)

/-- The cluster lock as an implementation of the trait. -/
def onCluster : Implementation ClusterRedis Step Answer
  | s, .tick d => ({ s with now := s.now + d }, .done)
  | s, .perform operation => perform slot entryText s operation

/-- An operation of the single-node lock on a queue member given as a text.  One that is the text of no
entry is in no queue: for another member in its place, everything but the queue is as for it. -/
def performText (s : Pools 0) (queueMember : String) (other : QueueEntry)
    (operation : QueueEntry → SingleNodeLock.Operation) : Pools 0 × Answer :=
  match entryOf queueMember with
  | some entry => SingleNodeLock.perform s (operation entry)
  | none =>
      let after := SingleNodeLock.perform s (operation other)
      (fun i => { after.1 i with queue := (s i).queue }, after.2)

/-- The single-node lock with one pool, its queue members given as texts. -/
def performSingle (s : Pools 0) : Operation → Pools 0 × Answer
  | .acquireSeatLockLua showtimeId seatId userId expiresInSec =>
      SingleNodeLock.perform s (.acquireSeatLockLua showtimeId seatId userId expiresInSec)
  | .acquireDistributedLock showtimeId seatId userId expiresInSec =>
      SingleNodeLock.perform s (.acquireDistributedLock showtimeId seatId userId expiresInSec)
  | .updateSeatMetadataLua showtimeId seatIds userId expiresInSec =>
      SingleNodeLock.perform s (.updateSeatMetadataLua showtimeId seatIds userId expiresInSec)
  | .releaseLock showtimeId seatId userId =>
      SingleNodeLock.perform s (.releaseLock showtimeId seatId userId)
  | .releaseExpiredLockLua showtimeId seatId userId queueMember =>
      performText entryOf s queueMember (SingleNodeLock.queueMember showtimeId seatId userId)
        (.releaseExpiredLockLua showtimeId seatId userId)
  | .getLockOwner showtimeId seatId => SingleNodeLock.perform s (.getLockOwner showtimeId seatId)
  | .userHoldsLock showtimeId seatId userId =>
      SingleNodeLock.perform s (.userHoldsLock showtimeId seatId userId)
  | .getUserLockedSeats showtimeId userId =>
      SingleNodeLock.perform s (.getUserLockedSeats showtimeId userId)
  | .getScheduleSeatBitmapStateCluster showtimeId =>
      SingleNodeLock.perform s (.getScheduleSeatBitmapStateCluster showtimeId)
  | .setScheduleSeatBitmapStateCluster showtimeId seatId state =>
      SingleNodeLock.perform s (.setScheduleSeatBitmapStateCluster showtimeId seatId state)
  | .bookSeatLua showtimeId seatId userId =>
      SingleNodeLock.perform s (.bookSeatLua showtimeId seatId userId)
  | .forceBookSeatLua showtimeId seatId userId queueMember =>
      performText entryOf s queueMember (SingleNodeLock.queueMember showtimeId seatId userId)
        (.forceBookSeatLua showtimeId seatId userId)

def onSingleNode : Implementation (Pools 0) Step Answer
  | s, .tick d => (fun i => { s i with now := (s i).now + d }, .done)
  | s, .perform operation => performSingle entryOf s operation

end Trait

end ClusterLock
end Bookit
