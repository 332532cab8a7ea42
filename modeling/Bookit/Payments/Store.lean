import Bookit.Lib.Table
import Bookit.Redis.SingleNodeLock
import Mathlib.Algebra.Order.Field.Rat

/-!
# Payments.Store — the tables of the payment path

PostgreSQL with the tables that a payment request, a checkout and a cancellation read and write, next
to Redis and the payment provider.  A transaction that one function runs in one go is one command;
the transaction of `request_payment` is split into its statements, with uncommitted rows kept per
session.  Identifiers that the code draws as UUIDs are numbers; amounts are exact decimals.
-/

namespace Bookit
namespace Payments

open Lib

/-! ## Rows -/

inductive SeatStatus where
  | available
  | locked
  | booked
  deriving DecidableEq

/-- A row of `schedule_seats`. -/
structure SeatRow where
  id : ℤ
  scheduleId : ℤ
  price : ℚ
  status : SeatStatus
  deriving DecidableEq

inductive RequestStatus where
  | pending
  | processing
  | succeeded
  | failed
  deriving DecidableEq

def RequestStatus.text : RequestStatus → String
  | pending => "pending"
  | processing => "processing"
  | succeeded => "succeeded"
  | failed => "failed"

/-- A row of `payment_requests`. -/
structure RequestRow where
  id : ℕ
  idempotencyKey : String
  userId : ℤ
  scheduleId : ℤ
  seatIds : List ℤ
  status : RequestStatus
  failureReason : Option String
  deriving DecidableEq

inductive OrderStatus where
  | completed
  | cancelling
  | refunded
  deriving DecidableEq

/-- A row of `orders`. -/
structure OrderRow where
  id : ℕ
  paymentRequestId : ℕ
  userId : ℤ
  scheduleId : ℤ
  seatIds : List ℤ
  totalAmount : ℚ
  razorpayOrderId : String
  razorpayPaymentId : Option String
  status : OrderStatus
  deriving DecidableEq

inductive TicketStatus where
  | active
  | cancelled
  deriving DecidableEq

/-- A row of `tickets`. -/
structure TicketRow where
  orderId : ℕ
  scheduleId : ℤ
  status : TicketStatus
  deriving DecidableEq

/-- A row of `user_audits`. -/
structure AuditRow where
  userId : ℤ
  action : String
  orderId : ℕ
  amount : ℚ
  seatIds : List ℤ
  deriving DecidableEq

/-! ## Messages -/

/-- The payload of `payment.requested`, which the payment processor reads as a checkout. -/
structure CheckoutMessage where
  paymentRequestId : ℕ
  userId : ℤ
  scheduleId : ℤ
  seatIds : List ℤ
  amount : ℚ
  razorpayOrderId : Option String
  razorpayPaymentId : Option String
  deriving DecidableEq

/-- The payload of `payment.cancellation_requested`. -/
structure CancellationMessage where
  orderId : ℕ
  userId : ℤ
  scheduleId : ℤ
  seatIds : List ℤ
  amount : ℚ
  razorpayPaymentId : Option String
  idempotencyKey : String
  deriving DecidableEq

/-- The payload of `OrderCompleted` and `TicketCancelled`. -/
structure OrderEvent where
  orderId : ℕ
  userId : ℤ
  scheduleId : ℤ
  seatIds : List ℤ
  amount : ℚ
  deriving DecidableEq

/-- The rows of `outbox_events` by event type; the aggregate is the payment request or the order. -/
inductive OutboxRow where
  | paymentRequested (message : CheckoutMessage)
  | cancellationRequested (message : CancellationMessage)
  | orderCompleted (event : OrderEvent)
  | ticketCancelled (event : OrderEvent)
  deriving DecidableEq

/-! ## Tables -/

/-- The uncommitted writes of a `request_payment` transaction. -/
structure Txn where
  row : RequestRow
  event : Option CheckoutMessage
  deriving DecidableEq

structure Postgres where
  seats : List SeatRow
  requests : List RequestRow
  orders : List OrderRow
  tickets : List TicketRow
  audits : List AuditRow
  outbox : List OutboxRow
  /-- Open transactions, by session. -/
  open_ : List (ℕ × Txn)
  deriving DecidableEq

structure CheckoutCommit where
  orderId : ℕ
  paymentRequestId : ℕ
  userId : ℤ
  scheduleId : ℤ
  seatIds : List ℤ
  totalAmount : ℚ
  razorpayOrderId : String
  razorpayPaymentId : Option String
  deriving DecidableEq

structure CancellationCommit where
  orderId : ℕ
  userId : ℤ
  scheduleId : ℤ
  seatIds : List ℤ
  amount : ℚ
  deriving DecidableEq

namespace Postgres

/-! ## Statements of a payment request -/

/-- The row under a user's idempotency key. -/
def findRequest (s : Postgres) (userId : ℤ) (idempotencyKey : String) : Option RequestRow :=
  s.requests.find? fun r => decide (r.userId = userId ∧ r.idempotencyKey = idempotencyKey)

/-- The seat rows with these ids in the schedule. -/
def loadSeats (s : Postgres) (seatIds : List ℤ) (scheduleId : ℤ) : List SeatRow :=
  s.seats.filter fun r => decide (r.id ∈ seatIds ∧ r.scheduleId = scheduleId)

/-- The open transactions of the other sessions. -/
def others (s : Postgres) (i : ℕ) : List (ℕ × Txn) :=
  s.open_.filter fun t => !decide (t.1 = i)

/-- The open transaction of a session. -/
def txnOf (s : Postgres) (i : ℕ) : Option Txn :=
  (s.open_.find? fun t => decide (t.1 = i)).map Prod.snd

/-- Two request rows that one of the two unique indexes does not admit together. -/
def conflicts (r r' : RequestRow) : Bool :=
  decide (r.id = r'.id ∨ (r.userId = r'.userId ∧ r.idempotencyKey = r'.idempotencyKey))

/-- `INSERT … ON CONFLICT (user_id, idempotency_key) DO NOTHING`: blocked while another session has
a conflicting row uncommitted; otherwise the number of rows inserted, or an error where the primary
key is taken. -/
def insertRequest (i : ℕ) (row : RequestRow) (s : Postgres) : Option (Postgres × Option ℕ) :=
  if (s.others i).any fun t => conflicts t.2.row row then
    none
  else if (s.findRequest row.userId row.idempotencyKey).isSome then
    some (s, some 0)
  else if s.requests.any fun r => decide (r.id = row.id) then
    some (s, none)
  else
    some ({ s with open_ := s.others i ++ [(i, ⟨row, none⟩)] }, some 1)

/-- The outbox row added to the transaction of session `i`. -/
def setEvent (i : ℕ) (message : CheckoutMessage) (t : ℕ × Txn) : ℕ × Txn :=
  if t.1 = i then (t.1, { t.2 with event := some message }) else t

/-- The insertion of the outbox row in the same transaction. -/
def insertRequested (i : ℕ) (message : CheckoutMessage) (s : Postgres) : Postgres :=
  { s with open_ := s.open_.map (setEvent i message) }

/-- The rows of the session become visible. -/
def commit (i : ℕ) (s : Postgres) : Postgres :=
  match s.txnOf i with
  | none => s
  | some txn =>
      { s with
        requests := s.requests ++ [txn.row]
        outbox := s.outbox ++ (txn.event.map OutboxRow.paymentRequested).toList
        open_ := s.others i }

def rollback (i : ℕ) (s : Postgres) : Postgres :=
  { s with open_ := s.others i }

/-! ## Transactions of the payment processor -/

def orderExists (s : Postgres) (paymentRequestId : ℕ) : Bool :=
  s.orders.any fun o => decide (o.paymentRequestId = paymentRequestId)

/-- The order row a checkout inserts. -/
def newOrder (c : CheckoutCommit) : OrderRow :=
  { id := c.orderId, paymentRequestId := c.paymentRequestId, userId := c.userId,
    scheduleId := c.scheduleId, seatIds := c.seatIds, totalAmount := c.totalAmount,
    razorpayOrderId := c.razorpayOrderId, razorpayPaymentId := c.razorpayPaymentId,
    status := .completed }

/-- The primary key and the unique index on the payment request of `orders`. -/
def orderRefused (s : Postgres) (c : CheckoutCommit) : Bool :=
  s.orders.any fun o => decide (o.id = c.orderId ∨ o.paymentRequestId = c.paymentRequestId)

/-- `UPDATE schedule_seats SET status WHERE id = ANY(…)`. -/
def setSeats (s : Postgres) (seatIds : List ℤ) (status : SeatStatus) : List SeatRow :=
  Table.updateWhere (fun r => decide (r.id ∈ seatIds)) (fun r => { r with status := status }) s.seats

/-- The transaction of `commit_checkout`; the seats are booked whatever their status is. -/
def commitCheckout (c : CheckoutCommit) (s : Postgres) : Postgres × Option Unit :=
  if s.orderRefused c then
    (s, none)
  else
    ({ s with
        seats := s.setSeats c.seatIds .booked
        orders := s.orders ++ [newOrder c]
        requests := Table.updateWhere (fun r => decide (r.id = c.paymentRequestId))
          (fun r => { r with status := .succeeded, failureReason := none }) s.requests
        audits := s.audits ++ [⟨c.userId, "order_completed", c.orderId, c.totalAmount, c.seatIds⟩]
        outbox := s.outbox ++
          [.orderCompleted ⟨c.orderId, c.userId, c.scheduleId, c.seatIds, c.totalAmount⟩] },
      some ())

/-- The transaction of `commit_cancellation`; it asks for no status of the order. -/
def commitCancellation (c : CancellationCommit) (s : Postgres) : Postgres × Unit :=
  ({ s with
      seats := s.setSeats c.seatIds .available
      orders := Table.updateWhere (fun o => decide (o.id = c.orderId))
        (fun o => { o with status := .refunded }) s.orders
      tickets := Table.updateWhere (fun t => decide (t.orderId = c.orderId))
        (fun t => { t with status := .cancelled }) s.tickets
      audits := s.audits ++ [⟨c.userId, "ticket_cancelled", c.orderId, c.amount, c.seatIds⟩]
      outbox := s.outbox ++
        [.ticketCancelled ⟨c.orderId, c.userId, c.scheduleId, c.seatIds, c.amount⟩] }, ())

/-- The failure update of a checkout whose locks are gone. -/
def failRequest (id : ℕ) (reason : String) (s : Postgres) : Postgres :=
  { s with
    requests := Table.updateWhere (fun r => decide (r.id = id ∧ r.status ≠ .succeeded))
      (fun r => { r with status := .failed, failureReason := some reason }) s.requests }

/-! ## Transactions of `cancel_order` -/

def findOrder (s : Postgres) (id : ℕ) : Option OrderRow :=
  s.orders.find? fun o => decide (o.id = id)

/-- The guarded update to `cancelling`, with its outbox row where it updated the order. -/
def startCancellation (id : ℕ) (message : CancellationMessage) (s : Postgres) : Postgres :=
  if s.orders.any fun o => decide (o.id = id ∧ o.status = .completed) then
    { s with
      orders := Table.updateWhere (fun o => decide (o.id = id ∧ o.status = .completed))
        (fun o => { o with status := .cancelling }) s.orders
      outbox := s.outbox ++ [.cancellationRequested message] }
  else
    s

/-! ## Queries of the seat-layout updater -/

/-- `COUNT(*)` of the booked rows of a seat. -/
def bookedCount (s : Postgres) (scheduleId seatId : ℤ) : ℕ :=
  (s.seats.filter fun r =>
    decide (r.scheduleId = scheduleId ∧ r.id = seatId ∧ r.status = .booked)).length

/-- `COUNT(*)` of the active tickets of a schedule. -/
def activeTicketCount (s : Postgres) (scheduleId : ℤ) : ℕ :=
  (s.tickets.filter fun t => decide (t.scheduleId = scheduleId ∧ t.status = .active)).length

end Postgres

/-! ## The world and its commands -/

structure World where
  redis : Redis
  pg : Postgres
  /-- Refund requests the payment provider has received: payment id and paise. -/
  refunds : List (String × ℤ)

/-- A world with a seat map and nothing else. -/
def newWorld (seats : List SeatRow) : World :=
  { redis := .empty, refunds := []
    pg := { seats := seats, requests := [], orders := [], tickets := [], audits := [], outbox := [],
            open_ := [] } }

/-- A seat map of one seat. -/
def oneSeat : List SeatRow := [⟨1, 1, 100, .available⟩]

inductive Cmd where
  | redis (c : Redis.Cmd)
  | connect
  | findRequest (userId : ℤ) (idempotencyKey : String)
  | loadSeats (seatIds : List ℤ) (scheduleId : ℤ)
  | insertRequest (row : RequestRow)
  | insertRequested (message : CheckoutMessage)
  | commit
  | rollback
  | orderExists (paymentRequestId : ℕ)
  | failRequest (id : ℕ) (reason : String)
  | commitCheckout (c : CheckoutCommit)
  | commitCancellation (c : CancellationCommit)
  | findOrder (id : ℕ)
  | startCancellation (id : ℕ) (message : CancellationMessage)
  | bookedCount (scheduleId seatId : ℤ)
  | activeTicketCount (scheduleId : ℤ)
  | refund (paymentId : String) (paise : ℤ)

/-- Replies; a command whose answer does not arrive, or is an error, has none. -/
abbrev Rep : Cmd → Type
  | .redis c => Redis.Rep c
  | .findRequest .. => Option (Option RequestRow)
  | .loadSeats .. => Option (List SeatRow)
  | .insertRequest _ => Option ℕ
  | .orderExists _ => Option Bool
  | .findOrder _ => Option (Option OrderRow)
  | .bookedCount .. => Option ℕ
  | .activeTicketCount _ => Option ℕ
  | _ => Option Unit

namespace World

/-- A transaction or an update on PostgreSQL over a link. -/
def onPg {ρ : Type} (l : Link) (run : Postgres → Postgres × ρ) (s : World) : World × Option ρ :=
  l.deliver (fun s => ({ s with pg := (run s.pg).1 }, (run s.pg).2)) s

/-- A query. -/
def query {ρ : Type} (l : Link) (v : Postgres → ρ) (s : World) : World × Option ρ :=
  l.deliver (fun s => (s, v s.pg)) s

end World

open World in
/-- The effect of a command in session `i`.  A `COMMIT` that does not get through, and every
`ROLLBACK`, ends the transaction without its rows. -/
def exec (i : ℕ) (l : Link) : (c : Cmd) → World → Option (World × Rep c)
  | .redis c, s => some ({ s with redis := (Redis.exec l c s.redis).1 }, (Redis.exec l c s.redis).2)
  | .connect, s => some (query l (fun _ => ()) s)
  | .findRequest userId idempotencyKey, s => some (query l (·.findRequest userId idempotencyKey) s)
  | .loadSeats seatIds scheduleId, s => some (query l (·.loadSeats seatIds scheduleId) s)
  | .insertRequest row, s =>
      match l with
      | .lost => some (s, none)
      | _ =>
          match s.pg.insertRequest i row with
          | none => none
          | some (pg, r) => some ({ s with pg := pg }, if l = .ok then r else none)
  | .insertRequested message, s =>
      some (onPg l (fun pg => (pg.insertRequested i message, ())) s)
  | .commit, s =>
      match l with
      | .ok => some ({ s with pg := s.pg.commit i }, some ())
      | .unacked => some ({ s with pg := s.pg.commit i }, none)
      | .lost => some ({ s with pg := s.pg.rollback i }, none)
  | .rollback, s => some ({ s with pg := s.pg.rollback i }, some ())
  | .orderExists paymentRequestId, s => some (query l (·.orderExists paymentRequestId) s)
  | .failRequest id reason, s => some (onPg l (fun pg => (pg.failRequest id reason, ())) s)
  | .commitCheckout c, s =>
      some ((onPg l (Postgres.commitCheckout c) s).1, (onPg l (Postgres.commitCheckout c) s).2.join)
  | .commitCancellation c, s => some (onPg l (Postgres.commitCancellation c) s)
  | .findOrder id, s => some (query l (·.findOrder id) s)
  | .startCancellation id message, s =>
      some (onPg l (fun pg => (pg.startCancellation id message, ())) s)
  | .bookedCount scheduleId seatId, s => some (query l (·.bookedCount scheduleId seatId) s)
  | .activeTicketCount scheduleId, s => some (query l (·.activeTicketCount scheduleId) s)
  | .refund paymentId paise, s =>
      some (l.deliver (fun s => ({ s with refunds := s.refunds ++ [(paymentId, paise)] }, ())) s)

/-- Programs of the payment path. -/
abbrev Service := Prog Rep

/-- An operation of the seat lock, run by a service. -/
def onRedis {β : Type} (p : SingleNodeLock.Op β) : Service β :=
  Prog.hoist (fun c => Prog.perform (Cmd.redis c)) p

end Payments
end Bookit
