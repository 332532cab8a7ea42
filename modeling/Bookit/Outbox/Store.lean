import Bookit.Data.Json
import Bookit.Lib.Threads
import Bookit.Lib.Table
import Mathlib.Algebra.Group.Nat.Defs
import Mathlib.Data.List.MinMax

/-!
# Outbox.Store — the transactional outbox and its server

The rows of `outbox_events`, the statements the outbox server issues against them, the broker it
publishes to, and the server's loop.  Times are in milliseconds; a statement is answered, or its
request or its answer is lost.
-/

namespace Bookit
namespace Outbox

open Lib

/-! ## Routing -/

structure Route where
  exchange : String
  routingKey : String
  deriving DecidableEq

def routeFor (eventType : String) : Option Route :=
  if eventType = "payment.requested" ∨ eventType = "payment.cancellation_requested" then
    some { exchange := "", routingKey := "payment_processing" }
  else if eventType = "OrderCompleted" ∨ eventType = "TicketCancelled" then
    some { exchange := "booking_events_exchange", routingKey := "" }
  else
    none

/-! ## Retry policy -/

def maxAttempts : ℕ := 10

def retryDelaySeconds (attempts : ℕ) : ℕ :=
  min (2 ^ max 1 (min attempts 8)) 300

def shouldDeadLetter (attempts : ℕ) (permanentFailure : Bool) : Bool :=
  permanentFailure && decide (maxAttempts ≤ attempts)

/-- `str::parse::<u64>`: an optional plus sign, then digits, below `2 ^ 64`. -/
def parseU64 (value : String) : Option ℕ :=
  let digits := match value.toList with
    | '+' :: ds => ds
    | ds => ds
  if digits ≠ [] ∧ digits.all Char.isDigit then
    let n := digits.foldl (fun n d => 10 * n + (d.toNat - '0'.toNat)) 0
    if n < 2 ^ 64 then some n else none
  else
    none

def parsePaymentMessageTtl (value : Option String) : ℕ :=
  ((value.bind parseU64).filter fun v => decide (1000 ≤ v)).getD 300000

/-! ## Rows -/

inductive RequestStatus where
  | pending
  | processing
  | succeeded
  | failed
  deriving DecidableEq

/-- The columns of `payment_requests` that the outbox server writes. -/
structure PaymentRequest where
  id : ℕ
  status : RequestStatus
  failureReason : Option String
  deriving DecidableEq

structure OutboxEvent where
  id : ℕ
  aggregateId : ℕ
  eventType : String
  payload : Json
  createdAt : ℕ
  publishedAt : Option ℕ
  attempts : ℕ
  processingAt : Option ℕ
  nextAttemptAt : ℕ
  lastError : Option String
  deadLetteredAt : Option ℕ

structure ClaimedEvent where
  id : ℕ
  aggregateId : ℕ
  eventType : String
  payload : Json
  attempts : ℕ

/-- What a publisher confirm says; `returned` is set where the message came back as unroutable. -/
inductive Confirmation where
  | ack (returned : Bool)
  | nack
  | notRequested
  deriving DecidableEq

structure Publication where
  messageId : ℕ
  eventType : String
  exchange : String
  routingKey : String
  mandatory : Bool
  expiration : Option ℕ
  body : Json

/-- The outcome of a publication: a confirmation, or the text of a connection error. -/
abbrev BrokerAnswer := Except String Confirmation

structure Store where
  now : ℕ
  events : List OutboxEvent
  requests : List PaymentRequest
  /-- Every publication that reached for the broker, with its outcome. -/
  broker : List (Publication × BrokerAnswer)

/-! ## Statements -/

/-- Five minutes. -/
def claimTimeout : ℕ := 300000

/-- The largest value of the `attempts` column. -/
def maxInteger : ℕ := 2147483647

/-- The condition of the claim query. -/
def OutboxEvent.claimable (now : ℕ) (o : OutboxEvent) : Bool :=
  o.publishedAt.isNone && o.deadLetteredAt.isNone && decide (o.nextAttemptAt ≤ now) &&
    match o.processingAt with
    | none => true
    | some t => decide (t + claimTimeout < now)

inductive Cmd where
  | claimNext
  | markPublished (event : ClaimedEvent)
  | deadLetter (event : ClaimedEvent) (message : String)
  | scheduleRetry (event : ClaimedEvent) (delay : ℕ) (message : String)
  | basicPublish (publication : Publication)

/-- Replies; a statement whose answer does not arrive has none. -/
abbrev Rep : Cmd → Type
  | .claimNext => Option (Option ClaimedEvent)
  | .basicPublish _ => BrokerAnswer
  | _ => Option Unit

/-- The oldest due row that no other transaction has locked. -/
def candidate (skip : List ℕ) (s : Store) : Option OutboxEvent :=
  (s.events.filter fun o => o.claimable s.now && !skip.contains o.id).argmin (·.createdAt)

/-- `UPDATE … RETURNING` of the claimed row; incrementing `attempts` out of range is an error. -/
def execClaim (skip : List ℕ) (s : Store) : Store × Option (Option ClaimedEvent) :=
  match candidate skip s with
  | none => (s, some none)
  | some o =>
      if o.attempts < maxInteger then
        ({ s with
            events := Table.updateWhere (fun r => decide (r.id = o.id))
              (fun r => { r with processingAt := some s.now, attempts := r.attempts + 1 })
              s.events },
          some (some
            { id := o.id, aggregateId := o.aggregateId, eventType := o.eventType,
              payload := o.payload, attempts := o.attempts + 1 }))
      else
        (s, none)

def execMarkPublished (event : ClaimedEvent) (s : Store) : Store × Unit :=
  ({ s with
      events := Table.updateWhere (fun o => decide (o.id = event.id))
        (fun o => { o with publishedAt := some s.now, processingAt := none, lastError := none })
        s.events
      requests :=
        if event.eventType = "payment.requested" then
          Table.updateWhere
            (fun r => decide (r.id = event.aggregateId ∧ r.status = .pending))
            (fun r => { r with status := .processing }) s.requests
        else s.requests }, ())

def execDeadLetter (event : ClaimedEvent) (message : String) (s : Store) : Store × Unit :=
  ({ s with
      events := Table.updateWhere (fun o => decide (o.id = event.id))
        (fun o => { o with
          deadLetteredAt := some s.now, processingAt := none, lastError := some message })
        s.events
      requests :=
        if event.eventType = "payment.requested" then
          Table.updateWhere
            (fun r => decide (r.id = event.aggregateId ∧ r.status ≠ .succeeded))
            (fun r => { r with status := .failed, failureReason := some message }) s.requests
        else s.requests }, ())

def execScheduleRetry (event : ClaimedEvent) (delay : ℕ) (message : String) (s : Store) :
    Store × Unit :=
  ({ s with
      events := Table.updateWhere (fun o => decide (o.id = event.id))
        (fun o => { o with
          processingAt := none, nextAttemptAt := s.now + delay * 1000, lastError := some message })
        s.events }, ())

/-- What the run decides about one command: the fate of a statement and the rows that other
transactions hold locked, or the broker's answer. -/
inductive Outcome where
  | db (link : Link) (skip : List ℕ)
  | broker (answer : BrokerAnswer)

def exec (_ : ℕ) : Outcome → (c : Cmd) → Store → Option (Store × Rep c)
  | .db link skip, .claimNext, s =>
      some ((link.deliver (execClaim skip) s).1, (link.deliver (execClaim skip) s).2.join)
  | .db link _, .markPublished event, s => some (link.deliver (execMarkPublished event) s)
  | .db link _, .deadLetter event message, s => some (link.deliver (execDeadLetter event message) s)
  | .db link _, .scheduleRetry event delay message, s =>
      some (link.deliver (execScheduleRetry event delay message) s)
  | .broker answer, .basicPublish publication, s =>
      some ({ s with broker := s.broker ++ [(publication, answer)] }, answer)
  | _, _, _ => none

/-! ## The server -/

abbrev Server := Prog Rep

def claimNext : Server (Except String (Option ClaimedEvent)) := do
  match ← Prog.perform Cmd.claimNext with
  | some event => pure (.ok event)
  | none => pure (.error "failed to claim outbox event")

/-- The result of a transaction from its reply. -/
def transactionResult : Option Unit → Except String Unit
  | some () => .ok ()
  | none => .error "database error"

def markPublished (event : ClaimedEvent) : Server (Except String Unit) := do
  let reply ← Prog.perform (Cmd.markPublished event)
  pure (transactionResult reply)

def markFailed (event : ClaimedEvent) (message : String) (permanentFailure : Bool) :
    Server (Except String Unit) :=
  if shouldDeadLetter event.attempts permanentFailure then do
    let reply ← Prog.perform (Cmd.deadLetter event message)
    pure (transactionResult reply)
  else do
    let reply ← Prog.perform
      (Cmd.scheduleRetry event (retryDelaySeconds event.attempts) message)
    pure (transactionResult reply)

/-- The body and properties of the message for an event with route `route`. -/
def publication (paymentMessageTtlMs : Option String) (route : Route) (event : ClaimedEvent) :
    Publication :=
  { messageId := event.id
    eventType := event.eventType
    exchange := route.exchange
    routingKey := route.routingKey
    mandatory := !decide (route.exchange = "booking_events_exchange")
    expiration :=
      if route.routingKey = "payment_processing" then
        some (parsePaymentMessageTtl paymentMessageTtlMs)
      else none
    body :=
      if route.exchange = "booking_events_exchange" then
        event.payload.insert "event_type" (.str event.eventType)
      else event.payload }

def publish (paymentMessageTtlMs : Option String) (event : ClaimedEvent) :
    Server (Except String Unit) :=
  match routeFor event.eventType with
  | none => pure (.error ("unsupported outbox event type " ++ event.eventType))
  | some route => do
      let answer : BrokerAnswer ←
        Prog.perform (Cmd.basicPublish (publication paymentMessageTtlMs route event))
      match answer with
      | .error e => pure (.error e)
      | .ok (.ack false) => pure (.ok ())
      | .ok (.ack true) => pure (.error "broker returned unroutable event")
      | .ok .nack => pure (.error "broker negatively acknowledged event")
      | .ok .notRequested => pure (.error "publisher confirm was not requested")

/-- The server's loop, up to `rounds` passes; an error ends it. -/
def run (paymentMessageTtlMs : Option String) : ℕ → Server (Except String Unit)
  | 0 => pure (.ok ())
  | rounds + 1 => do
      match ← claimNext with
      | .error e => pure (.error e)
      | .ok none => run paymentMessageTtlMs rounds
      | .ok (some event) =>
          match ← publish paymentMessageTtlMs event with
          | .ok () =>
              match ← markPublished event with
              | .error e => pure (.error e)
              | .ok () => run paymentMessageTtlMs rounds
          | .error error =>
              match ← markFailed event error (routeFor event.eventType).isNone with
              | .error e => pure (.error e)
              | .ok () => pure (.error error)

/-! ## The system -/

/-- What happens around the servers: time passes, another service commits an event, the status of a
payment request changes, a server starts. -/
inductive Environ where
  | tick (d : ℕ)
  | commitEvent (id aggregateId : ℕ) (eventType : String) (payload : Json) (age : ℕ)
  | setRequest (id : ℕ) (status : RequestStatus) (failureReason : Option String)
  | startServer (paymentMessageTtlMs : Option String) (rounds : ℕ)

/-- A row as the other services insert it, its transaction having begun `age` ago. -/
def newEvent (now id aggregateId : ℕ) (eventType : String) (payload : Json) (age : ℕ) :
    OutboxEvent :=
  { id := id, aggregateId := aggregateId, eventType := eventType, payload := payload,
    createdAt := now - age, publishedAt := none, attempts := 0, processingAt := none,
    nextAttemptAt := now - age, lastError := none, deadLetteredAt := none }

def environ : Environ → Store → Option (Store × List (Unit × Server (Except String Unit)))
  | .tick d, s => some ({ s with now := s.now + d }, [])
  | .commitEvent id aggregateId eventType payload age, s =>
      if s.events.any fun o => decide (o.id = id) then none
      else
        some ({ s with
          events := s.events ++ [newEvent s.now id aggregateId eventType payload age] }, [])
  | .setRequest id status failureReason, s =>
      some ({ s with
        requests :=
          s.requests.filter (fun r => !decide (r.id = id)) ++ [⟨id, status, failureReason⟩] }, [])
  | .startServer ttl rounds, s => some (s, [((), run ttl rounds)])

/-- Any number of outbox servers over one database and one broker. -/
def machine : Machine Store Rep Unit (Except String Unit) Outcome Environ where
  init s := s.events = [] ∧ s.broker = []
  exec _ := exec
  environ := environ
  close _ s := s

end Outbox
end Bookit
