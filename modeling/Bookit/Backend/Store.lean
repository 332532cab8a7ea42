import Bookit.Outbox.Store
import Bookit.Payments.Processor

/-!
# Backend.Store — the payment path with its outbox and its queue

Payment requests, checkouts and cancellations run against one database together with the outbox
servers, which publish the rows of `outbox_events` to the queue `payment_processing`.  An outbox row
is named by its place in the table; its columns for the outbox server stand beside it.  A message is
in the queue until its delivery is settled, it expires, or the broker restarts.
-/

namespace Bookit
namespace Backend

open Lib Payments

/-! ## The rows as the outbox server has them -/

def eventType : OutboxRow → String
  | .paymentRequested _ => "payment.requested"
  | .cancellationRequested _ => "payment.cancellation_requested"
  | .orderCompleted _ => "OrderCompleted"
  | .ticketCancelled _ => "TicketCancelled"

def aggregateId : OutboxRow → ℕ
  | .paymentRequested message => message.paymentRequestId
  | .cancellationRequested message => message.orderId
  | .orderCompleted event => event.orderId
  | .ticketCancelled event => event.orderId

def toServer : RequestStatus → Outbox.RequestStatus
  | .pending => .pending
  | .processing => .processing
  | .succeeded => .succeeded
  | .failed => .failed

def ofServer : Outbox.RequestStatus → RequestStatus
  | .pending => .pending
  | .processing => .processing
  | .succeeded => .succeeded
  | .failed => .failed

/-- The columns of a request row that the outbox server has to do with. -/
def serverRow (r : RequestRow) : Outbox.PaymentRequest :=
  { id := r.id, status := toServer r.status, failureReason := r.failureReason }

def putRow (r : RequestRow) (q : Outbox.PaymentRequest) : RequestRow :=
  { r with status := ofServer q.status, failureReason := q.failureReason }

/-! ## The store -/

structure Store where
  world : World
  /-- The clock of the database, in milliseconds. -/
  now : ℕ
  /-- The columns of `outbox_events` for the outbox server, row by row. -/
  events : List Outbox.OutboxEvent
  /-- Every publication that reached for the broker, with its outcome. -/
  broker : List (Outbox.Publication × Outbox.BrokerAnswer)
  /-- The messages of `payment_processing`, delivered or not, by outbox row. -/
  queue : List ℕ
  /-- The messages of `payment_failed`, which no service reads. -/
  failed : List ℕ

namespace Store

abbrev pg (s : Store) : Postgres := s.world.pg

/-- The tables of the outbox server. -/
def server (s : Store) : Outbox.Store :=
  { now := s.now, events := s.events, requests := s.pg.requests.map serverRow, broker := s.broker }

def putServer (s : Store) (v : Outbox.Store) : Store :=
  { s with
    events := v.events
    broker := v.broker
    world := { s.world with
      pg := { s.pg with requests := List.zipWith putRow s.pg.requests v.requests } } }

/-- The world after a command, with the columns of the outbox row that it may have inserted; the
row's transaction began `age` ago. -/
def putWorld (encode : OutboxRow → Json) (age : ℕ) (s : Store) (w : World) : Store :=
  { s with
    world := w
    events := s.events ++ ((w.pg.outbox[s.events.length]?).map fun row =>
      Outbox.newEvent s.now s.events.length (aggregateId row) (eventType row) (encode row) age).toList }

/-- A message leaves the queue for the dead letters. -/
def deadLetter (n : ℕ) (s : Store) : Store :=
  { s with
    queue := s.queue.erase n
    failed := s.failed ++ [n] }

/-- A delivery is acknowledged, or rejected without being queued again. -/
def settle (n : ℕ) (verdict : Verdict) (s : Store) : Store :=
  match verdict with
  | .ack => { s with queue := s.queue.erase n }
  | .nack => s.deadLetter n

end Store

/-! ## Commands -/

inductive Cmd where
  | pay (c : Payments.Cmd)
  | outbox (c : Outbox.Cmd)
  | settle (n : ℕ) (verdict : Verdict)

abbrev Rep : Cmd → Type
  | .pay c => Payments.Rep c
  | .outbox c => Outbox.Rep c
  | .settle .. => Unit

/-- What the run decides about one command: its fate and the age of its transaction, or the outcome
of a command of the outbox server, and whether a message without a confirmation got through. -/
inductive Outcome where
  | link (l : Link) (age : ℕ)
  | server (e : Outbox.Outcome) (queued : Bool)

/-- The fate of a command of the payment path. -/
def Outcome.fate : Outcome → Link
  | link l _ => l
  | server .. => .ok

/-- A confirmed message is in its queue, a returned one is not. -/
def accepted (queued : Bool) : Outbox.BrokerAnswer → Bool
  | .ok (.ack returned) => !returned
  | _ => queued

/-- The queue after a command of the outbox server. -/
def enqueued (queue : List ℕ) (queued : Bool) : Outbox.Cmd → Outbox.Outcome → List ℕ
  | .basicPublish m, .broker answer =>
      if m.routingKey = "payment_processing" ∧ accepted queued answer = true then
        queue ++ [m.messageId]
      else queue
  | _, _ => queue

def exec (encode : OutboxRow → Json) (i : ℕ) : Outcome → (c : Cmd) → Store → Option (Store × Rep c)
  | .link l age, .pay c, s =>
      (Payments.exec i l c s.world).map fun x => (s.putWorld encode age x.1, x.2)
  | .server e queued, .outbox c, s =>
      (Outbox.exec i e c s.server).map fun x =>
        ({ s.putServer x.1 with queue := enqueued s.queue queued c e }, x.2)
  -- a settlement that is lost with its connection leaves the message in the queue
  | .link l _, .settle n verdict, s => some (if l = .lost then s else s.settle n verdict, ())
  | _, _, _ => none

/-! ## Services -/

abbrev Service := Prog Rep

/-- A program of the payment path. -/
def paying {β : Type} (p : Payments.Service β) : Service β :=
  p.hoist fun c => .call (Cmd.pay c) fun r => .ret r

/-- A program of the outbox server. -/
def serving {β : Type} (p : Outbox.Server β) : Service β :=
  p.hoist fun c => .call (Cmd.outbox c) fun r => .ret r

def requestTask (provider : Provider) (userId : ℤ) (request : PaymentRequest)
    (paymentRequestId : ℕ) : Service Unit := do
  let _ ← paying (requestPayment provider userId request paymentRequestId)
  pure ()

def cancelOrderTask (userId : ℤ) (orderId : ℕ) (idempotencyKey : String) : Service Unit := do
  let _ ← paying (cancelOrder userId orderId idempotencyKey)
  pure ()

/-- The delivery of the message of outbox row `n`. -/
def checkoutTask (n : ℕ) (message : CheckoutMessage) (orderId : ℕ) : Service Unit := do
  let verdict ← paying (processCheckout message orderId)
  Prog.perform (Cmd.settle n verdict)

def cancellationTask (n : ℕ) (mockMode : Bool) (message : CancellationMessage) : Service Unit := do
  let verdict ← paying (processCancellation mockMode message)
  Prog.perform (Cmd.settle n verdict)

def serverTask (paymentMessageTtlMs : Option String) (rounds : ℕ) : Service Unit := do
  let _ ← serving (Outbox.run paymentMessageTtlMs rounds)
  pure ()

def redisTask (p : SingleNodeLock.Op Bool) : Service Unit := do
  let _ ← paying (onRedis p)
  pure ()

/-! ## The system -/

inductive Environ where
  /-- Time passes in the database. -/
  | tick (d : ℕ)
  /-- Time passes in Redis. -/
  | tickRedis (d : ℕ)
  | request (provider : Provider) (userId : ℤ) (request : PaymentRequest) (paymentRequestId : ℕ)
  | cancelOrder (userId : ℤ) (orderId : ℕ) (idempotencyKey : String)
  /-- A delivery, or another one, of the message of the `n`-th outbox row. -/
  | deliver (n : ℕ) (orderId : ℕ) (mockMode : Bool)
  | startServer (paymentMessageTtlMs : Option String) (rounds : ℕ)
  /-- Anything else that a service does with Redis. -/
  | onRedis (p : SingleNodeLock.Op Bool)
  /-- The time to live of a message is over. -/
  | expire (n : ℕ)
  /-- The broker restarts; its queues are not durable. -/
  | restart

def environ : Environ → Store → Option (Store × List (Unit × Service Unit))
  | .tick d, s => some ({ s with now := s.now + d }, [])
  | .tickRedis d, s =>
      some ({ s with world := { s.world with
        redis := { s.world.redis with now := s.world.redis.now + d } } }, [])
  | .request provider userId request paymentRequestId, s =>
      some (s, [((), requestTask provider userId request paymentRequestId)])
  | .cancelOrder userId orderId idempotencyKey, s =>
      some (s, [((), cancelOrderTask userId orderId idempotencyKey)])
  | .deliver n orderId mockMode, s =>
      match s.pg.outbox[n]? with
      | some (.paymentRequested message) => some (s, [((), checkoutTask n message orderId)])
      | some (.cancellationRequested message) =>
          some (s, [((), cancellationTask n mockMode message)])
      | _ => none
  | .startServer ttl rounds, s => some (s, [((), serverTask ttl rounds)])
  | .onRedis p, s => some (s, [((), redisTask p)])
  | .expire n, s => if n ∈ s.queue then some (s.deadLetter n, []) else none
  | .restart, s =>
      some ({ s with
        queue := []
        failed := [] }, [])

def newStore (seats : List SeatRow) : Store :=
  { world := newWorld seats, now := 0, events := [], broker := [], queue := [], failed := [] }

/-- Any number of requests, deliveries and outbox servers; `encode` renders a payload. -/
def machine (encode : OutboxRow → Json) : Machine Store Rep Unit Unit Outcome Environ where
  init s := ∃ seats : List SeatRow, (seats.map (·.id)).Nodup ∧ s = newStore seats
  exec _ := exec encode
  environ := environ
  close i s := { s with world := { s.world with pg := s.pg.rollback i } }

abbrev BackendPool := Pool Store Rep Unit Unit

end Backend
end Bookit
