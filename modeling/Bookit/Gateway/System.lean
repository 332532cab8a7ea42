import Bookit.Gateway.Keeper
import Bookit.Payments.System

/-!
# Gateway.System — all services side by side

Any number of gateway replicas, lock-servers and payment processors on one Redis and one PostgreSQL.
Published lock messages are delivered late, repeatedly and in any order; an entry of the delayed queue
that was due is handled by any worker at any later time, which covers every scan of the queue;
checkouts and cancellations are delivered for committed outbox rows; a schedule closes and opens at
any time, in each replica for itself.
-/

namespace Bookit
namespace Gateway

open Lib LockServer

/-- What a thread was started for. -/
inductive Task where
  /-- An operation of the seat lock, or anything else that a service does with Redis. -/
  | operation
  /-- A delivery of the `n`-th message of the locking queue. -/
  | lockMessage (n : ℕ) (message : SeatLockMessage)
  | updater (entry : QueueEntry)
  | expiry (g : ℕ) (entry : QueueEntry)
  | lock (g : ℕ) (userId showtimeId : ℤ) (seatIds : List ℤ)
  | cancel (g : ℕ) (userId showtimeId : ℤ) (seatIds : List ℤ)
  | actor (g : ℕ) (showtimeId : ℤ)
  | closing (g : ℕ) (showtimeId : ℤ)
  | listener (g : ℕ)
  | request (userId : ℤ) (request : Payments.PaymentRequest)
  | cancelOrder (userId : ℤ) (orderId : ℕ)
  | checkout (message : Payments.CheckoutMessage) (orderId : ℕ)
  | cancellation (message : Payments.CancellationMessage)

inductive Result where
  | locked (r : Except String LockResult)
  | cancelled (r : Except String (List ℤ))
  | done

/-- A program whose value nothing reads. -/
def forget {β : Type} (p : Service β) : Service Result := do
  let _ ← p
  pure .done

def lockTask (g : ℕ) (userId showtimeId : ℤ) (seatIds seatIndices : List ℤ)
    (totalSeatCount : ℤ) : Service Result := do
  let r ← lock g userId showtimeId seatIds seatIndices totalSeatCount
  pure (.locked r)

def cancelTask (g : ℕ) (userId showtimeId : ℤ) (seatIds seatIndices : List ℤ)
    (totalSeatCount : ℤ) : Service Result := do
  let r ← cancel g userId showtimeId seatIds seatIndices totalSeatCount
  pure (.cancelled r)

inductive Environ where
  | tick (d : ℕ)
  | operation (p : SingleNodeLock.Op Bool)
  | lockMessage (n : ℕ)
  | updater (entry : QueueEntry)
  | expiry (g : ℕ) (entry : QueueEntry)
  | lock (g : ℕ) (userId showtimeId : ℤ) (seatIds seatIndices : List ℤ) (totalSeatCount : ℤ)
  | cancel (g : ℕ) (userId showtimeId : ℤ) (seatIds seatIndices : List ℤ) (totalSeatCount : ℤ)
  /-- The actor of a cell starts. -/
  | actor (g : ℕ) (cell rounds : ℕ)
  /-- The listener of a replica takes up the next published event. -/
  | handle (g : ℕ)
  /-- A replica hears that a schedule is closed, or open; the administrator sets the key. -/
  | scheduleClosed (g : ℕ) (showtimeId : ℤ)
  | scheduleOpened (g : ℕ) (showtimeId : ℤ)
  | setClosedKey (showtimeId : ℤ) (closed : Bool)
  | request (provider : Payments.Provider) (userId : ℤ) (request : Payments.PaymentRequest)
      (paymentRequestId : ℕ)
  | cancelOrder (userId : ℤ) (orderId : ℕ) (idempotencyKey : String)
  /-- A delivery of the checkout or the cancellation in the `n`-th outbox row. -/
  | deliver (n : ℕ) (orderId : ℕ) (mockMode : Bool)

/-- The entry is in the queue and due. -/
def due (entry : QueueEntry) (s : World) : Bool :=
  decide (entry ∈ s.services.redis.queue.upTo s.services.redis.timestamp)

def deliver (orderId : ℕ) (mockMode : Bool) : Payments.OutboxRow → Option (Task × Service Result)
  | .paymentRequested message =>
      some (.checkout message orderId,
        forget (onServices (Payments.processCheckout message orderId)))
  | .cancellationRequested message =>
      some (.cancellation message,
        forget (onServices (Payments.processCancellation mockMode message)))
  | _ => none

def environ : Environ → World → Option (World × List (Task × Service Result))
  | .tick d, s =>
      some ({ s with services := { s.services with redis :=
        { s.services.redis with now := s.services.redis.now + d } } }, [])
  | .operation p, s => some (s, [(.operation, forget (onRedis p))])
  | .lockMessage n, s =>
      (s.lockingQueue[n]?).map fun message =>
        (s, [(.lockMessage n message, forget (onRedis (processLockRequest message)))])
  | .updater entry, s =>
      if due entry s then
        some (s, [(.updater entry, forget (onServices (processDueEntry entry)))])
      else
        none
  | .expiry g entry, s =>
      if due entry s then
        some (s, [(.expiry g entry,
          forget (releaseExpiredEntry g s.services.redis.timestamp entry))])
      else
        none
  | .lock g userId showtimeId seatIds seatIndices totalSeatCount, s =>
      some (s, [(.lock g userId showtimeId seatIds,
        lockTask g userId showtimeId seatIds seatIndices totalSeatCount)])
  | .cancel g userId showtimeId seatIds seatIndices totalSeatCount, s =>
      some (s, [(.cancel g userId showtimeId seatIds,
        cancelTask g userId showtimeId seatIds seatIndices totalSeatCount)])
  | .actor g cell rounds, s =>
      ((s.gateways g).cells[cell]?).map fun x =>
        (s, [(.actor g x.showtimeId, forget (runShowActor g x.showtimeId cell rounds))])
  | .handle g, s => some (s, [(.listener g, forget (Prog.perform (Cmd.handleEvent g)))])
  | .scheduleClosed g showtimeId, s =>
      some (s, [(.closing g showtimeId, forget (markScheduleClosed g showtimeId))])
  | .scheduleOpened g showtimeId, s =>
      some (s.setGateway g { s.gateways g with
        closedShows := Redis.setAt (s.gateways g).closedShows showtimeId false }, [])
  | .setClosedKey showtimeId closed, s =>
      some ({ s with closedKeys := Redis.setAt s.closedKeys showtimeId closed }, [])
  | .request provider userId request paymentRequestId, s =>
      some (s, [(.request userId request, forget (onServices
        (Payments.requestPayment provider userId request paymentRequestId)))])
  | .cancelOrder userId orderId idempotencyKey, s =>
      some (s, [(.cancelOrder userId orderId, forget (onServices
        (Payments.cancelOrder userId orderId idempotencyKey)))])
  | .deliver n orderId mockMode, s =>
      match s.services.pg.outbox[n]? with
      | none => none
      | some row => (deliver orderId mockMode row).map fun t => (s, [t])

/-- No replica has opened a show. -/
def newWorld (seats : List Payments.SeatRow) : World :=
  { services := Payments.newWorld seats, gateways := fun _ => State.new, lockingQueue := [],
    closedKeys := fun _ => false }

/-- The loss of a session: a dropped future or a crashed worker leaves the slots as they are. -/
def close (i : ℕ) (s : World) : World :=
  { s with services := { s.services with pg := s.services.pg.rollback i } }

def machine : Machine World Rep Task Result Link Environ where
  init s := ∃ seats : List Payments.SeatRow, s = newWorld seats
  exec _ := exec
  environ := environ
  close := close

/-! ## Runs -/

/-- Steps of one thread, all of whose requests get through. -/
def steps (i n : ℕ) : List (Act Link Environ) :=
  List.replicate n (.run i .ok)

/-- User 42 locks seat 1 of show 1, and the lock message is published. -/
def locksSeat : List (Act Link Environ) :=
  .environ (.lock 0 42 1 [1] [1] 10) :: steps 0 11 ++ .environ (.actor 0 0 1) :: steps 1 5

/-- User 42 acquires the seat with both keys, asks for the payment, and the checkout is delivered. -/
def paysSeat (i : ℕ) : List (Act Link Environ) :=
  .environ (.operation (SingleNodeLock.acquireSeatLockLua 1 1 42 300)) :: steps i 11 ++
    .environ (.request ⟨"secret", fun _ _ => ""⟩ 42 ⟨1, [1], "key", none, none, none⟩ 10) ::
      steps (i + 1) 10 ++ [.environ (.deliver 0 100 true)]

/-- User 43 locks the seat that user 42 let expire, and the lock messages of both are handled. -/
def relocksSeat : List (Act Link Environ) :=
  locksSeat ++ .environ (.lockMessage 0) :: steps 2 3 ++ .environ (.tick 301000) ::
    .environ (.lock 1 43 1 [1] [1] 10) :: steps 3 11 ++ .environ (.actor 1 0 1) :: steps 4 5 ++
      .environ (.lockMessage 1) :: steps 5 3 ++ [.environ (.tick 15000)]

end Gateway
end Bookit
