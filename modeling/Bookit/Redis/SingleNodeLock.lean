import Bookit.Redis.Store
import Mathlib.Algebra.Group.Int.Defs

/-!
# Redis.SingleNodeLock — the operations of the single-node seat lock

Each operation is a program over the Redis commands, in the order in which the service issues them.
There is one pool; `connect` is taking a connection from it.
-/

namespace Bookit
namespace SingleNodeLock

open Lib Redis

abbrev Op := Prog Redis.Rep

/-- `(expires_in_sec as u64) * 1000`. -/
def ttlMs (expiresInSec : ℤ) : ℕ :=
  (expiresInSec % 2 ^ 64).toNat * 1000 % 2 ^ 64

/-- The queue member of a seat, a showtime and a user. -/
def queueMember (showtimeId seatId userId : ℤ) : QueueEntry :=
  { seatId := seatId, scheduleId := showtimeId, userId := userId }

/-! ## Replicated commands -/

/-- A command sent to every pool, its outcome ignored. -/
def cluster (c : Cmd) : Op Unit := do
  match ← Prog.perform Cmd.connect with
  | some () =>
      let _ ← Prog.perform c
      pure ()
  | none => pure ()

def zaddClusterUser (showtimeId userId seatId score : ℤ) : Op Unit :=
  cluster (.zaddUser showtimeId userId seatId score)

def zaddClusterRoom (showtimeId seatId userId score : ℤ) : Op Unit :=
  cluster (.zaddRoom showtimeId seatId userId score)

def zaddClusterQueue (entry : QueueEntry) (score : ℤ) : Op Unit :=
  cluster (.zaddQueue entry score)

def zremClusterUser (showtimeId userId seatId : ℤ) : Op Unit :=
  cluster (.zremUser showtimeId userId seatId)

def zremClusterRoom (showtimeId seatId userId : ℤ) : Op Unit :=
  cluster (.zremRoom showtimeId seatId userId)

def zremClusterQueue (entry : QueueEntry) : Op Unit :=
  cluster (.zremQueue entry)

/-- Nothing is sent for a seat id that has no bit offset. -/
def setScheduleSeatBitmapStateCluster (showtimeId seatId : ℤ) (state : SeatState) : Op Unit :=
  if seatId < 0 then pure () else cluster (.setBits showtimeId seatId state)

/-- The replicated clean-up after a release, an expiry or a booking. -/
def cleanUp (showtimeId seatId userId : ℤ) (entry : QueueEntry) (state : SeatState) : Op Unit := do
  zremClusterUser showtimeId userId seatId
  zremClusterRoom showtimeId seatId userId
  zremClusterQueue entry
  setScheduleSeatBitmapStateCluster showtimeId seatId state

/-! ## Acquiring -/

/-- The extension of a lock that the user already holds, after `SET NX` did not set it. -/
def extendLock (showtimeId seatId userId : ℤ) (ttlMs : ℕ) : Op Bool := do
  let currentOwner ← Prog.perform (Cmd.getLock showtimeId seatId)
  if currentOwner.join = some userId then do
    let _ ← Prog.perform (Cmd.pexpireLock showtimeId seatId ttlMs)
    pure true
  else
    pure false

/-- `SET NX PX`, and the extension where it did not answer that the key was set. -/
def setOrExtendLock (showtimeId seatId userId : ℤ) (ttlMs : ℕ) : Op Bool := do
  let setRes ← Prog.perform (Cmd.setLockNx showtimeId seatId userId ttlMs)
  if setRes = some true then
    pure true
  else
    extendLock showtimeId seatId userId ttlMs

def acquireLock (showtimeId seatId userId : ℤ) (ttlMs : ℕ) : Op Bool := do
  match ← Prog.perform Cmd.connect with
  | none => pure false
  | some () => setOrExtendLock showtimeId seatId userId ttlMs

def acquireDistributedLock (showtimeId seatId userId expiresInSec : ℤ) : Op Bool :=
  acquireLock showtimeId seatId userId (ttlMs expiresInSec)

def acquireSeatLockLua (showtimeId seatId userId expiresInSec : ℤ) : Op Bool := do
  let now ← Prog.perform Cmd.utcNow
  let expiry := now + expiresInSec
  let processingExpiry := expiry + 15
  let entry := queueMember showtimeId seatId userId
  match ← Prog.perform Cmd.connect with
  | none => pure false
  | some () =>
      let result ← Prog.perform (Cmd.eval (.acquire (ttlMs expiresInSec) expiry processingExpiry)
        showtimeId seatId userId entry)
      if result = some 1 then do
        zaddClusterUser showtimeId userId seatId expiry
        zaddClusterRoom showtimeId seatId userId expiry
        zaddClusterQueue entry processingExpiry
        setScheduleSeatBitmapStateCluster showtimeId seatId .locked
        pure true
      else
        pure false

/-! ## The metadata of locked seats -/

/-- The metadata of each seat in turn; whether all of them were written. -/
def updateSeats (showtimeId userId expiry processingExpiry : ℤ) :
    List ℤ → Bool → Op Bool
  | [], success => pure success
  | seatId :: seatIds, success => do
      match ← Prog.perform Cmd.connect with
      | none => updateSeats showtimeId userId expiry processingExpiry seatIds false
      | some () =>
          match ← Prog.perform (Cmd.writeMetadata showtimeId seatId userId expiry processingExpiry
              (queueMember showtimeId seatId userId)) with
          | none => updateSeats showtimeId userId expiry processingExpiry seatIds false
          | some () => updateSeats showtimeId userId expiry processingExpiry seatIds success

def updateSeatMetadataLua (showtimeId : ℤ) (seatIds : List ℤ) (userId expiresInSec : ℤ) :
    Op Bool := do
  let now ← Prog.perform Cmd.utcNow
  let expiry := now + expiresInSec
  updateSeats showtimeId userId expiry (expiry + 15) seatIds true

/-! ## Releasing and booking -/

/-- The clean-up follows the script whatever it answered. -/
def releaseExpiredLockLua (showtimeId seatId userId : ℤ) (entry : QueueEntry) : Op Bool := do
  match ← Prog.perform Cmd.connect with
  | none => pure false
  | some () =>
      let result ← Prog.perform (Cmd.eval .releaseExpired showtimeId seatId userId entry)
      cleanUp showtimeId seatId userId entry .available
      pure (decide (result = some 1))

/-- A script followed by its clean-up where it answered `1`. -/
def evalThenCleanUp (script : Script) (state : SeatState) (showtimeId seatId userId : ℤ) :
    Op Bool := do
  let entry := queueMember showtimeId seatId userId
  match ← Prog.perform Cmd.connect with
  | none => pure false
  | some () =>
      let result ← Prog.perform (Cmd.eval script showtimeId seatId userId entry)
      if result = some 1 then do
        cleanUp showtimeId seatId userId entry state
        pure true
      else
        pure false

def releaseLock (showtimeId seatId userId : ℤ) : Op Bool :=
  evalThenCleanUp .release .available showtimeId seatId userId

def bookSeatLua (showtimeId seatId userId : ℤ) : Op Bool :=
  evalThenCleanUp .book .booked showtimeId seatId userId

def forceBookSeatLua (showtimeId seatId userId : ℤ) (entry : QueueEntry) : Op Unit := do
  match ← Prog.perform Cmd.connect with
  | none => pure ()
  | some () =>
      let _ ← Prog.perform (Cmd.eval .forceBook showtimeId seatId userId entry)
      cleanUp showtimeId seatId userId entry .booked

/-! ## Queries -/

def getLockOwner (showtimeId seatId : ℤ) : Op (Option ℤ) := do
  match ← Prog.perform Cmd.connect with
  | none => pure none
  | some () =>
      let owner ← Prog.perform (Cmd.getLock showtimeId seatId)
      pure owner.join

def userHoldsLock (showtimeId seatId userId : ℤ) : Op Bool := do
  match ← Prog.perform Cmd.connect with
  | none => pure false
  | some () =>
      let present ← Prog.perform (Cmd.existsContext showtimeId seatId userId)
      pure (present.getD false)

/-- `publish_event` and the services' own publications: one connection, one `PUBLISH`. -/
def publishEvent (channel : Channel) (payload : Json) : Op Unit :=
  cluster (.publish channel payload)

/-! ## Running an operation by itself -/

/-- The outcome of an operation that runs alone and loses no request. -/
def evalOp {β : Type} : Op β → Redis → Redis × β
  | .ret b, s => (s, b)
  | .call c k, s => evalOp (k (exec .ok c s).2) (exec .ok c s).1

theorem evalOp_bind {α β : Type} (p : Op α) (f : α → Op β) (s : Redis) :
    evalOp (p >>= f) s = evalOp (f (evalOp p s).2) (evalOp p s).1 := by
  induction p generalizing s with
  | ret a => rfl
  | call c k ih => exact ih _ _

theorem evalOp_getLockOwner (s : Redis) (showtimeId seatId : ℤ) :
    (evalOp (getLockOwner showtimeId seatId) s).2 = s.lockOwner showtimeId seatId := rfl

theorem evalOp_userHoldsLock (s : Redis) (showtimeId seatId userId : ℤ) :
    (evalOp (userHoldsLock showtimeId seatId userId) s).2 = s.hasContext showtimeId seatId userId :=
  rfl

/-! ## The commands of an operation -/

section Issues

variable {φ : Cmd → Prop}

theorem issues_cluster {c : Cmd} (hconn : φ .connect) (hc : φ c) : (cluster c).Issues φ := by
  refine ⟨hconn, fun r => ?_⟩
  match r with
  | some () => exact ⟨hc, fun _ => trivial⟩
  | none => trivial

theorem issues_setBitmap {showtimeId seatId : ℤ} {state : SeatState} (hconn : φ .connect)
    (hbits : φ (.setBits showtimeId seatId state)) :
    (setScheduleSeatBitmapStateCluster showtimeId seatId state).Issues φ := by
  unfold setScheduleSeatBitmapStateCluster
  split_ifs
  · trivial
  · exact issues_cluster hconn hbits

theorem issues_cleanUp {showtimeId seatId userId : ℤ} {entry : QueueEntry} {state : SeatState}
    (hconn : φ .connect) (huser : φ (.zremUser showtimeId userId seatId))
    (hroom : φ (.zremRoom showtimeId seatId userId)) (hqueue : φ (.zremQueue entry))
    (hbits : φ (.setBits showtimeId seatId state)) :
    (cleanUp showtimeId seatId userId entry state).Issues φ :=
  (issues_cluster hconn huser).bind fun _ => (issues_cluster hconn hroom).bind fun _ =>
    (issues_cluster hconn hqueue).bind fun _ => issues_setBitmap hconn hbits

theorem issues_acquireLock {showtimeId seatId userId : ℤ} {ttlMs : ℕ} (hconn : φ .connect)
    (hset : φ (.setLockNx showtimeId seatId userId ttlMs)) (hget : φ (.getLock showtimeId seatId))
    (hexp : φ (.pexpireLock showtimeId seatId ttlMs)) :
    (acquireLock showtimeId seatId userId ttlMs).Issues φ := by
  have hextend : (extendLock showtimeId seatId userId ttlMs).Issues φ := by
    refine ⟨hget, fun owner => ?_⟩
    show Prog.Issues φ (if owner.join = some userId then _ else _)
    split_ifs
    · exact ⟨hexp, fun _ => trivial⟩
    · trivial
  refine ⟨hconn, fun r => ?_⟩
  match r with
  | none => trivial
  | some () =>
      refine ⟨hset, fun r => ?_⟩
      show Prog.Issues φ (if r = some true then _ else _)
      split_ifs
      · trivial
      · exact hextend

theorem issues_updateSeats {showtimeId userId expiry processingExpiry : ℤ} {seatIds : List ℤ}
    {success : Bool} (hconn : φ .connect)
    (hmeta : ∀ seatId ∈ seatIds, φ (.writeMetadata showtimeId seatId userId expiry processingExpiry
      (queueMember showtimeId seatId userId))) :
    (updateSeats showtimeId userId expiry processingExpiry seatIds success).Issues φ := by
  induction seatIds generalizing success with
  | nil => trivial
  | cons seatId seatIds ih =>
      have hrest : ∀ ok, (updateSeats showtimeId userId expiry processingExpiry seatIds ok).Issues φ :=
        fun ok => ih fun k hk => hmeta k (List.mem_cons_of_mem _ hk)
      refine ⟨hconn, fun r => ?_⟩
      match r with
      | none => exact hrest _
      | some () =>
          refine ⟨hmeta seatId List.mem_cons_self, fun r => ?_⟩
          match r with
          | none => exact hrest _
          | some () => exact hrest _

theorem issues_releaseExpired {showtimeId seatId userId : ℤ} {entry : QueueEntry}
    (hconn : φ .connect) (heval : φ (.eval .releaseExpired showtimeId seatId userId entry))
    (hclean : (cleanUp showtimeId seatId userId entry .available).Issues φ) :
    (releaseExpiredLockLua showtimeId seatId userId entry).Issues φ := by
  refine ⟨hconn, fun r => ?_⟩
  match r with
  | none => trivial
  | some () => exact ⟨heval, fun _ => hclean.bind fun _ => trivial⟩

theorem issues_evalThenCleanUp {script : Script} {state : SeatState}
    {showtimeId seatId userId : ℤ} (hconn : φ .connect)
    (heval : φ (.eval script showtimeId seatId userId (queueMember showtimeId seatId userId)))
    (hclean : (cleanUp showtimeId seatId userId (queueMember showtimeId seatId userId)
      state).Issues φ) :
    (evalThenCleanUp script state showtimeId seatId userId).Issues φ := by
  refine ⟨hconn, fun r => ?_⟩
  match r with
  | none => trivial
  | some () =>
      refine ⟨heval, fun r => ?_⟩
      show Prog.Issues φ (if r = some 1 then _ else _)
      split_ifs
      · exact hclean.bind fun _ => trivial
      · trivial

theorem issues_forceBook {showtimeId seatId userId : ℤ} {entry : QueueEntry}
    (hconn : φ .connect) (heval : φ (.eval .forceBook showtimeId seatId userId entry))
    (hclean : (cleanUp showtimeId seatId userId entry .booked).Issues φ) :
    (forceBookSeatLua showtimeId seatId userId entry).Issues φ := by
  refine ⟨hconn, fun r => ?_⟩
  match r with
  | none => trivial
  | some () => exact ⟨heval, fun _ => hclean⟩

end Issues

/-! ## Operations run side by side -/

/-- What happens around running operations: time passes, an operation starts. -/
inductive Environ (O : Type) where
  | tick (d : ℕ)
  | start (operation : O)

def environ {O : Type} (program : O → Op Bool) :
    Environ O → Redis → Option (Redis × List (O × Op Bool))
  | .tick d, s => some ({ s with now := s.now + d }, [])
  | .start operation, s => some (s, [(operation, program operation)])

/-- Any number of operations on one node, interleaved command by command. -/
def machine {O : Type} (program : O → Op Bool) :
    Machine Redis Redis.Rep O Bool Link (Environ O) where
  init s := s = Redis.empty
  exec _ _ l c s := some (Redis.exec l c s)
  environ := environ program
  close _ s := s

end SingleNodeLock
end Bookit
