import Bookit.Redis.Effects
import Bookit.Redis.SingleNodeLock
import Mathlib.Logic.Function.Iterate

/-!
# Redis.Pools — the single-node lock over several nodes

A seat is locked on the node that the hash of the seat selects; the zsets, the delayed queue and the
bitmap are written on every node, and read on the first.  The operations are those of one node: a
script, a `MULTI` block and the commands on the lock keys go to the node of the seat, the commands of
`zadd_cluster` and its like to every node.
-/

namespace Bookit
namespace SingleNodeLock

open Lib Redis

/-! ## The node of a seat -/

def crc16Bit (crc : BitVec 16) : BitVec 16 :=
  if crc &&& 0x8000#16 ≠ 0#16 then (crc <<< 1) ^^^ 0x1021#16 else crc <<< 1

def crc16Byte (crc : BitVec 16) (byte : UInt8) : BitVec 16 :=
  crc16Bit^[8] (crc ^^^ (byte.toBitVec.setWidth 16 <<< 8))

/-- CRC16 (CCITT/XMODEM, polynomial 0x1021). -/
def crc16 (data : List UInt8) : BitVec 16 :=
  data.foldl crc16Byte 0

example : crc16 "123456789".toUTF8.data.toList = 0x31C3#16 := by decide +kernel

/-- The nodes, of which there is at least one. -/
abbrev Pools (n : ℕ) := Fin (n + 1) → Redis

def poolForSeat (n : ℕ) (showtimeId seatId : ℤ) : Fin (n + 1) :=
  Fin.ofNat (n + 1)
    (crc16 (toString showtimeId ++ ":" ++ toString seatId).toUTF8.data.toList).toNat

/-! ## Commands on the nodes -/

/-- Where a command is sent. -/
inductive Target (n : ℕ) where
  | node (i : Fin (n + 1))
  | every

def target (n : ℕ) : Cmd → Target n
  | .setLockNx showtimeId seatId .. => .node (poolForSeat n showtimeId seatId)
  | .getLock showtimeId seatId => .node (poolForSeat n showtimeId seatId)
  | .pexpireLock showtimeId seatId _ => .node (poolForSeat n showtimeId seatId)
  | .eval _ showtimeId seatId .. => .node (poolForSeat n showtimeId seatId)
  | .writeMetadata showtimeId seatId .. => .node (poolForSeat n showtimeId seatId)
  | .existsContext showtimeId seatId _ => .node (poolForSeat n showtimeId seatId)
  | .zaddUser .. | .zremUser .. | .zaddRoom .. | .zremRoom .. | .zaddQueue .. | .zremQueue _
  | .setBits .. | .publish .. => .every
  | _ => .node 0

def execPools {n : ℕ} (c : Cmd) (s : Pools n) : Pools n × Rep c :=
  match target n c with
  | .node i => (Function.update s i (exec .ok c (s i)).1, (exec .ok c (s i)).2)
  | .every => (fun i => (exec .ok c (s i)).1, (exec .ok c (s 0)).2)

/-- An operation that completes, with no connection lost. -/
def evalPools {β : Type} {n : ℕ} : Op β → Pools n → Pools n × β
  | .ret b, s => (s, b)
  | .call c k, s => evalPools (k (execPools c s).2) (execPools c s).1

theorem evalPools_bind {α β : Type} {n : ℕ} (p : Op α) (f : α → Op β) (s : Pools n) :
    evalPools (p >>= f) s = evalPools (f (evalPools p s).2) (evalPools p s).1 := by
  induction p generalizing s with
  | ret a => rfl
  | call c k ih => exact ih _ _

/-- With one node an operation does what it does on that node. -/
theorem evalPools_one {β : Type} (p : Op β) (s : Redis) :
    evalPools p (fun _ => s : Pools 0) = (fun _ => (evalOp p s).1, (evalOp p s).2) := by
  induction p generalizing s with
  | ret b => rfl
  | call c k ih =>
      have hexec : execPools c (fun _ => s : Pools 0) =
          (fun _ => (exec .ok c s).1, (exec .ok c s).2) := by
        unfold execPools
        cases target 0 c with
        | every => rfl
        | node i =>
            refine Prod.ext (funext fun j => ?_) rfl
            obtain rfl : j = i := by omega
            show Function.update (fun _ => s : Pools 0) j (exec .ok c s).1 j = _
            rw [Function.update_self]
      show evalPools (k (execPools c fun _ => s).2) (execPools c fun _ => s).1 = _
      rw [hexec]
      exact ih _ _

/-! ## Reads of the first node -/

/-- Members with the same score come in the order of their texts. -/
def textLe (a b : ℤ) : Bool :=
  decide (toString a ≤ toString b)

def lockedSeats (showtimeId userId : ℤ) (s : Redis) : List ℤ :=
  (s.userLocks (showtimeId, userId)).rangeFrom textLe s.timestamp

def seatBitmap (showtimeId : ℤ) (s : Redis) (seatId : ℤ) : SeatState :=
  s.bitmap (showtimeId, seatId)

/-! ## The trait -/

/-- A member of a zset. -/
inductive Member where
  | user (showtimeId userId seatId : ℤ)
  | room (showtimeId seatId userId : ℤ)
  | queue (entry : QueueEntry)
  deriving DecidableEq

/-- A zset by its key. -/
inductive ZsetKey where
  | user (showtimeId userId : ℤ)
  | room (showtimeId : ℤ)
  | queue
  deriving DecidableEq

inductive Operation where
  | acquireSeatLockLua (showtimeId seatId userId expiresInSec : ℤ)
  | acquireDistributedLock (showtimeId seatId userId expiresInSec : ℤ)
  | updateSeatMetadataLua (showtimeId : ℤ) (seatIds : List ℤ) (userId expiresInSec : ℤ)
  | releaseLock (showtimeId seatId userId : ℤ)
  | releaseExpiredLockLua (showtimeId seatId userId : ℤ) (entry : QueueEntry)
  | getLockOwner (showtimeId seatId : ℤ)
  | userHoldsLock (showtimeId seatId userId : ℤ)
  | getUserLockedSeats (showtimeId userId : ℤ)
  | getScheduleSeatBitmapStateCluster (showtimeId : ℤ)
  | setScheduleSeatBitmapStateCluster (showtimeId seatId : ℤ) (state : SeatState)
  | zremCluster (member : Member)
  | zaddCluster (member : Member) (score : ℤ)
  | zrembyscoreCluster (zset : ZsetKey) (range : ℤ → Bool)
  | publishEvent (channel : Channel) (payload : Json)
  | bookSeatLua (showtimeId seatId userId : ℤ)
  | forceBookSeatLua (showtimeId seatId userId : ℤ) (entry : QueueEntry)

inductive Answer where
  | done
  | flag (b : Bool)
  | owner (userId : Option ℤ)
  | seats (seatIds : List ℤ)
  | bitmap (states : ℤ → SeatState)

def zremMember : Member → Op Unit
  | .user showtimeId userId seatId => zremClusterUser showtimeId userId seatId
  | .room showtimeId seatId userId => zremClusterRoom showtimeId seatId userId
  | .queue entry => zremClusterQueue entry

def zaddMember (score : ℤ) : Member → Op Unit
  | .user showtimeId userId seatId => zaddClusterUser showtimeId userId seatId score
  | .room showtimeId seatId userId => zaddClusterRoom showtimeId seatId userId score
  | .queue entry => zaddClusterQueue entry score

/-- `ZREMRANGEBYSCORE`. -/
def zrembyscore (range : ℤ → Bool) (s : Redis) : ZsetKey → Redis
  | .user showtimeId userId =>
      { s with
        userLocks := setAt s.userLocks (showtimeId, userId)
          ((s.userLocks (showtimeId, userId)).remWhere range) }
  | .room showtimeId =>
      { s with
        roomLocks := setAt s.roomLocks showtimeId ((s.roomLocks showtimeId).remWhere range) }
  | .queue => { s with queue := s.queue.remWhere range }

/-- What an operation does to the nodes, and its answer. -/
def perform {n : ℕ} (s : Pools n) : Operation → Pools n × Answer
  | .acquireSeatLockLua showtimeId seatId userId expiresInSec =>
      (evalPools (acquireSeatLockLua showtimeId seatId userId expiresInSec) s).map id .flag
  | .acquireDistributedLock showtimeId seatId userId expiresInSec =>
      (evalPools (acquireDistributedLock showtimeId seatId userId expiresInSec) s).map id .flag
  | .updateSeatMetadataLua showtimeId seatIds userId expiresInSec =>
      (evalPools (updateSeatMetadataLua showtimeId seatIds userId expiresInSec) s).map id .flag
  | .releaseLock showtimeId seatId userId =>
      (evalPools (releaseLock showtimeId seatId userId) s).map id .flag
  | .releaseExpiredLockLua showtimeId seatId userId entry =>
      (evalPools (releaseExpiredLockLua showtimeId seatId userId entry) s).map id .flag
  | .getLockOwner showtimeId seatId =>
      (evalPools (getLockOwner showtimeId seatId) s).map id .owner
  | .userHoldsLock showtimeId seatId userId =>
      (evalPools (userHoldsLock showtimeId seatId userId) s).map id .flag
  | .getUserLockedSeats showtimeId userId => (s, .seats (lockedSeats showtimeId userId (s 0)))
  | .getScheduleSeatBitmapStateCluster showtimeId => (s, .bitmap (seatBitmap showtimeId (s 0)))
  | .setScheduleSeatBitmapStateCluster showtimeId seatId state =>
      (evalPools (setScheduleSeatBitmapStateCluster showtimeId seatId state) s).map id fun _ => .done
  | .zremCluster member => (evalPools (zremMember member) s).map id fun _ => .done
  | .zaddCluster member score => (evalPools (zaddMember score member) s).map id fun _ => .done
  | .zrembyscoreCluster zset range => (fun i => zrembyscore range (s i) zset, .done)
  | .publishEvent channel payload =>
      (evalPools (publishEvent channel payload) s).map id fun _ => .done
  | .bookSeatLua showtimeId seatId userId =>
      (evalPools (bookSeatLua showtimeId seatId userId) s).map id .flag
  | .forceBookSeatLua showtimeId seatId userId entry =>
      (evalPools (forceBookSeatLua showtimeId seatId userId entry) s).map id fun _ => .done

/-- Time passes, or an operation is completed. -/
inductive Step where
  | tick (d : ℕ)
  | perform (operation : Operation)

/-- The operations one after the other, from nodes that are empty. -/
def poolsSystem (n : ℕ) : System (Pools n) Step where
  init s := ∀ i, s i = Redis.empty
  step s
    | .tick d => some fun i => { s i with now := (s i).now + d }
    | .perform operation => some (perform s operation).1

end SingleNodeLock
end Bookit
