import Bookit.Payments.Processor
import Mathlib.Data.List.Infix

/-!
# Notifications.Store — tickets and the notification workers

A worker is delivered `OrderCompleted` and `TicketCancelled`, makes the ticket of an order, and sends
emails.  Around the workers checkouts and cancellations commit; any committed event is delivered any
number of times.
-/

namespace Bookit
namespace Notifications

open Lib Payments

/-! ## Ticket documents -/

/-- What the URL library makes of a text. -/
structure Url where
  scheme : String
  host : Option String
  path : String

/-- `value.contains(part)`. -/
def contains (value part : String) : Bool :=
  decide (part.toList <:+: value.toList)

/-- A URL that an upload has returned, and not one of the old fallbacks. -/
def validPdfUrl (parse : String → Option Url) (value : String) : Bool :=
  match parse value with
  | none => false
  | some url =>
      (decide (url.scheme = "http") || decide (url.scheme = "https")) && url.host.isSome &&
        !contains url.path "/tickets/default"

/-! ## The store -/

inductive Email where
  | booking (event : OrderEvent) (ticketUrl : String)
  | cancellation (event : OrderEvent)
  deriving DecidableEq

structure Store where
  pg : Postgres
  /-- The column `pdf_url` of the tickets, by order. -/
  pdfUrls : List (ℕ × String)
  emails : List Email

/-- A ticket as a worker loads it. -/
structure Ticket where
  orderId : ℕ
  status : TicketStatus
  pdfUrl : String

namespace Store

def pdfUrl (s : Store) (orderId : ℕ) : String :=
  ((s.pdfUrls.find? fun x => decide (x.1 = orderId)).map Prod.snd).getD ""

def findTicket (orderId : ℕ) (s : Store) : Option Ticket :=
  (s.pg.tickets.find? fun t => decide (t.orderId = orderId)).map fun t =>
    ⟨t.orderId, t.status, s.pdfUrl t.orderId⟩

/-- Whether the audit of the booking email exists. -/
def emailSent (orderId : ℕ) (s : Store) : Bool :=
  s.pg.audits.any fun a => decide (a.orderId = orderId ∧ a.action = "booking_email_sent")

def setPdfUrl (ticket : Ticket) (url : String) (s : Store) : Store × Unit :=
  ({ s with
      pdfUrls := Table.updateWhere (fun x => decide (x.1 = ticket.orderId))
        (fun x => (x.1, url)) s.pdfUrls }, ())

/-- The unique constraint on the order of a ticket, and the reference to the order. -/
def ticketRefused (s : Store) (orderId : ℕ) : Bool :=
  (s.pg.tickets.any fun t => decide (t.orderId = orderId)) ||
    !s.pg.orders.any fun o => decide (o.id = orderId)

/-- The ticket, which is active, and its audit in one transaction. -/
def insertTicket (event : OrderEvent) (url : String) (s : Store) : Store × Option Unit :=
  if s.ticketRefused event.orderId then
    (s, none)
  else
    ({ s with
        pg := { s.pg with
          tickets := s.pg.tickets ++ [⟨event.orderId, event.scheduleId, .active⟩]
          audits := s.pg.audits ++
            [⟨event.userId, "ticket_created", event.orderId, event.amount, event.seatIds⟩] }
        pdfUrls := s.pdfUrls ++ [(event.orderId, url)] }, some ())

def insertEmailSent (event : OrderEvent) (s : Store) : Store × Unit :=
  ({ s with
      pg := { s.pg with
        audits := s.pg.audits ++
          [⟨event.userId, "booking_email_sent", event.orderId, event.amount, []⟩] } }, ())

end Store

/-! ## Commands -/

inductive Cmd where
  | connect
  | findTicket (orderId : ℕ)
  | emailSent (orderId : ℕ)
  /-- Making the PDF and uploading it. -/
  | generateTicketPdf (event : OrderEvent)
  | setPdfUrl (ticket : Ticket) (url : String)
  | insertTicket (event : OrderEvent) (url : String)
  | sendEmail (email : Email)
  | insertEmailSent (event : OrderEvent)

/-- Replies; a command that fails, or whose answer does not arrive, has none. -/
abbrev Rep : Cmd → Type
  | .findTicket _ => Option (Option Ticket)
  | .emailSent _ => Option Bool
  | .generateTicketPdf _ => Option String
  | _ => Option Unit

/-- What the run decides about one command: its fate, or the URL of an upload that succeeds. -/
inductive Outcome where
  | link (l : Link)
  | uploaded (url : Option String)

def exec (_ : ℕ) : Outcome → (c : Cmd) → Store → Option (Store × Rep c)
  | .link l, .connect, s => some (l.deliver (fun s => (s, ())) s)
  | .link l, .findTicket orderId, s => some (l.deliver (fun s => (s, s.findTicket orderId)) s)
  | .link l, .emailSent orderId, s => some (l.deliver (fun s => (s, s.emailSent orderId)) s)
  | .uploaded url, .generateTicketPdf _, s => some (s, url)
  | .link l, .setPdfUrl ticket url, s => some (l.deliver (Store.setPdfUrl ticket url) s)
  | .link l, .insertTicket event url, s =>
      some ((l.deliver (Store.insertTicket event url) s).1,
        (l.deliver (Store.insertTicket event url) s).2.join)
  | .link l, .sendEmail email, s =>
      some (l.deliver (fun s => ({ s with emails := s.emails ++ [email] }, ())) s)
  | .link l, .insertEmailSent event, s => some (l.deliver (Store.insertEmailSent event) s)
  | _, _, _ => none

/-! ## The worker -/

abbrev Worker := Prog Rep

/-- The URL of the ticket's document: the one on record where it is valid, else a new upload. -/
def ticketPdf (parse : String → Option Url) (event : OrderEvent) (existing : Option Ticket) :
    Worker (Option String) :=
  match (existing.map Ticket.pdfUrl).filter (validPdfUrl parse) with
  | some url => pure (some url)
  | none => Prog.perform (Cmd.generateTicketPdf event)

/-- The transaction: a ticket that was found gets its document, or the ticket is made. -/
def writeTicket (event : OrderEvent) (existing : Option Ticket) (url : String) :
    Worker (Option Unit) :=
  match existing with
  | some ticket => Prog.perform (Cmd.setPdfUrl ticket url)
  | none => Prog.perform (Cmd.insertTicket event url)

/-- The booking email and its audit. -/
def confirmBooking (event : OrderEvent) (url : String) : Worker Verdict := do
  match ← Prog.perform (Cmd.sendEmail (.booking event url)) with
  | none => pure .nack
  | some () =>
      match ← Prog.perform (Cmd.insertEmailSent event) with
      | none => pure .nack
      | some () => pure .ack

/-- From the ticket that was found on. -/
def completeTicket (parse : String → Option Url) (event : OrderEvent) (existing : Option Ticket) :
    Worker Verdict := do
  match ← ticketPdf parse event existing with
  | none => pure .nack
  | some url =>
      match ← writeTicket event existing url with
      | none => pure .nack
      | some () => confirmBooking event url

/-- A delivery of `OrderCompleted`. -/
def processOrderCompleted (parse : String → Option Url) (event : OrderEvent) : Worker Verdict := do
  match ← Prog.perform Cmd.connect with
  | none => pure .nack
  | some () =>
      match ← Prog.perform (Cmd.findTicket event.orderId) with
      | none => pure .nack
      | some existing =>
          match ← Prog.perform (Cmd.emailSent event.orderId) with
          | none => pure .nack
          | some true => pure .ack
          | some false =>
              if existing.any fun t => decide (t.status ≠ .active) then
                pure .ack
              else
                completeTicket parse event existing

/-- A delivery of `TicketCancelled`. -/
def processTicketCancelled (event : OrderEvent) : Worker Verdict := do
  match ← Prog.perform Cmd.connect with
  | none => pure .nack
  | some () =>
      match ← Prog.perform (Cmd.sendEmail (.cancellation event)) with
      | none => pure .nack
      | some () => pure .ack

/-! ## The system -/

inductive Environ where
  /-- A checkout commits. -/
  | checkout (c : CheckoutCommit)
  /-- A cancellation is asked for. -/
  | cancelOrder (userId : ℤ) (orderId : ℕ) (idempotencyKey : String)
  /-- The cancellation in the `n`-th outbox row commits. -/
  | cancel (n : ℕ)
  /-- A delivery of the event in the `n`-th outbox row. -/
  | deliver (n : ℕ)

def environ (parse : String → Option Url) :
    Environ → Store → Option (Store × List (ℕ × Worker Verdict))
  | .checkout c, s => some ({ s with pg := (s.pg.commitCheckout c).1 }, [])
  | .cancelOrder userId orderId idempotencyKey, s =>
      match s.pg.findOrder orderId with
      | none => none
      | some order =>
          some ({ s with
            pg := s.pg.startCancellation order.id
              (cancellationMessage order userId idempotencyKey) }, [])
  | .cancel n, s =>
      match s.pg.outbox[n]? with
      | some (.cancellationRequested message) =>
          some ({ s with pg := (s.pg.commitCancellation (cancellationCommit message)).1 }, [])
      | _ => none
  | .deliver n, s =>
      match s.pg.outbox[n]? with
      | some (.orderCompleted event) => some (s, [(n, processOrderCompleted parse event)])
      | some (.ticketCancelled event) => some (s, [(n, processTicketCancelled event)])
      | _ => none

/-- Any number of notification workers; a thread stands for one delivery of an outbox row. -/
def machine (parse : String → Option Url) : Machine Store Rep ℕ Verdict Outcome Environ where
  init s := ∃ seats : List SeatRow, s = ⟨(newWorld seats).pg, [], []⟩
  exec _ := exec
  environ := environ parse
  close _ s := s

abbrev TicketPool := Pool Store Rep ℕ Verdict

/-- Every event has been delivered, and every delivery has been acknowledged. -/
def allProcessed (p : TicketPool) : Bool :=
  p.threads.all (fun t =>
    match t.prog with
    | some (.ret .ack) => true
    | _ => false) &&
  (List.range p.store.pg.outbox.length).all fun n =>
    match p.store.pg.outbox[n]? with
    | some (.orderCompleted _) | some (.ticketCancelled _) =>
        p.threads.any fun t => decide (t.info = n)
    | _ => true

end Notifications
end Bookit
