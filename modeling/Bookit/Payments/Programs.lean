import Bookit.Payments.CheckoutRun
import Bookit.Payments.System

/-!
# Payments.Programs — the commands of each program of the payment path

A payment request writes its own row and its own outbox row, a checkout its commit, a cancellation its
refund and its commit; `cancel_order` starts a cancellation.  Everything else that these programs do
disturbs no session, and of the seats they write to Redis only in checkouts.
-/

namespace Bookit

open Lib

/-- Commands that leave fields, memberships and the queue alone. -/
def Redis.Cmd.Quiet : Redis.Cmd → Prop
  | .eval .. => False
  | .writeMetadata .. => False
  | .zaddUser .. => False
  | .zremUser .. => False
  | .zaddRoom .. => False
  | .zremRoom .. => False
  | .zaddQueue .. => False
  | .zremQueue _ => False
  | .setBits .. => False
  | _ => True

namespace Payments

open SingleNodeLock

def Cmd.Quiet : Cmd → Prop
  | .redis k => k.Quiet
  | _ => True

/-- Commands that disturb no session and write nothing about seats to Redis. -/
structure Asks (c : Cmd) : Prop where
  calm : Calm c
  quiet : c.Quiet

/-! ## Payment requests -/

/-- The commands of a payment request, whose signature verifies before any is issued. -/
inductive RequestCmd (provider : Provider) (userId : ℤ) (request : PaymentRequest)
    (paymentRequestId : ℕ) : Cmd → Prop where
  | asks {c : Cmd} (h : Asks c) : RequestCmd provider userId request paymentRequestId c
  | row : RequestCmd provider userId request paymentRequestId
      (.insertRequest (requestRow userId request paymentRequestId))
  | event (amount : ℚ) (hsig : checkSignature provider request = .ok ()) :
      RequestCmd provider userId request paymentRequestId
        (.insertRequested (checkoutMessage userId request paymentRequestId amount))
  | commit : RequestCmd provider userId request paymentRequestId .commit
  | rollback : RequestCmd provider userId request paymentRequestId .rollback

theorem asks_delCheckouts (scheduleId : ℤ) (seatIds : List ℤ) :
    (delCheckouts scheduleId seatIds).Issues Asks := by
  induction seatIds with
  | nil => trivial
  | cons seatId seatIds ih => exact ⟨⟨trivial, trivial⟩, fun _ => ih⟩

theorem asks_holdCheckouts (scheduleId : ℤ) (owner : ℤ × String) (seatIds created : List ℤ) :
    (holdCheckouts scheduleId owner seatIds created).Issues Asks := by
  induction seatIds generalizing created with
  | nil => trivial
  | cons seatId seatIds ih =>
      refine ⟨⟨trivial, trivial⟩, fun r => ?_⟩
      match r with
      | none => trivial
      | some true => exact ih _
      | some false =>
          refine ⟨⟨trivial, trivial⟩, fun r => ?_⟩
          match r with
          | none => trivial
          | some current =>
              show Prog.Issues _ (if current = some owner then _ else _)
              split_ifs
              · exact ih _
              · exact (asks_delCheckouts scheduleId created).bind fun _ => trivial

theorem asks_checkSeatLocks (scheduleId userId : ℤ) (seatIds : List ℤ) :
    (onRedis (Locks.checkSeatLocks scheduleId userId seatIds)).Issues Asks := by
  refine issues_onRedis_of ?_
  induction seatIds with
  | nil => trivial
  | cons seatId seatIds ih =>
      have hholds : (userHoldsLock scheduleId seatId userId).Issues fun k => Asks (.redis k) := by
        refine ⟨⟨trivial, trivial⟩, fun r => ?_⟩
        match r with
        | none => trivial
        | some () => exact ⟨⟨trivial, trivial⟩, fun _ => trivial⟩
      refine hholds.bind fun held => ?_
      cases held with
      | true => exact ih
      | false => trivial

section Requests

variable {provider : Provider} {userId : ℤ} {request : PaymentRequest} {paymentRequestId : ℕ}

theorem issues_insertTransaction (hsig : checkSignature provider request = .ok ()) (amount : ℚ) :
    (insertTransaction (requestRow userId request paymentRequestId)
      (checkoutMessage userId request paymentRequestId amount)).Issues
        (RequestCmd provider userId request paymentRequestId) := by
  refine ⟨.row, fun r => ?_⟩
  cases r with
  | none => exact ⟨.rollback, fun _ => trivial⟩
  | some inserted =>
      show Prog.Issues _ (if inserted = 1 then _ else _)
      split_ifs
      · refine ⟨.event amount hsig, fun r => ?_⟩
        cases r with
        | none => exact ⟨.rollback, fun _ => trivial⟩
        | some _ => exact ⟨.commit, fun r => by cases r <;> trivial⟩
      · exact ⟨.commit, fun r => by cases r <;> trivial⟩

theorem issues_storeRequest (hsig : checkSignature provider request = .ok ()) (amount : ℚ) :
    (storeRequest userId request paymentRequestId amount).Issues
      (RequestCmd provider userId request paymentRequestId) := by
  refine ⟨.asks ⟨trivial, trivial⟩, fun r => ?_⟩
  match r with
  | none => trivial
  | some () =>
  refine ((asks_holdCheckouts _ _ _ _).mono fun _ hc => .asks hc).bind fun r => ?_
  match r with
  | .error e => trivial
  | .ok created =>
  refine (issues_insertTransaction hsig amount).bind fun r => ?_
  match r with
  | none => exact ((asks_delCheckouts _ _).mono fun _ hc => .asks hc).bind fun _ => trivial
  | some inserted =>
  show Prog.Issues _ (if inserted = 1 then _ else _)
  split_ifs
  · trivial
  · refine ⟨.asks ⟨trivial, trivial⟩, fun r => ?_⟩
    match r with
    | none => trivial
    | some none => trivial
    | some (some existing) => trivial

theorem issues_checkAndStore (hsig : checkSignature provider request = .ok ()) :
    (checkAndStore userId request paymentRequestId).Issues
      (RequestCmd provider userId request paymentRequestId) := by
  refine ((asks_checkSeatLocks _ _ _).mono fun _ hc => .asks hc).bind fun r => ?_
  match r with
  | .error message => trivial
  | .ok () =>
  refine ⟨.asks ⟨trivial, trivial⟩, fun r => ?_⟩
  match r with
  | none => trivial
  | some dbSeats =>
  dsimp only [Prog.bind]
  cases checkSeats request dbSeats with
  | error e => trivial
  | ok _ => exact issues_storeRequest hsig _

end Requests

theorem issues_requestPayment (provider : Provider) (userId : ℤ) (request : PaymentRequest)
    (paymentRequestId : ℕ) : (requestPayment provider userId request paymentRequestId).Issues
      (RequestCmd provider userId request paymentRequestId) := by
  unfold requestPayment
  split
  · trivial
  split
  · trivial
  next hsig =>
  refine ⟨.asks ⟨trivial, trivial⟩, fun r => ?_⟩
  match r with
  | none => trivial
  | some () =>
  refine ⟨.asks ⟨trivial, trivial⟩, fun r => ?_⟩
  match r with
  | none => trivial
  | some (some existing) => trivial
  | some none => exact issues_checkAndStore hsig

/-! ## Checkouts -/

theorem asks_clearCheckouts (scheduleId : ℤ) (seatIds : List ℤ) :
    (clearCheckouts scheduleId seatIds).Issues Asks := by
  refine ⟨⟨trivial, trivial⟩, fun r => ?_⟩
  match r with
  | none => trivial
  | some () => exact asks_delCheckouts scheduleId seatIds

theorem asks_rejectCheckout (message : CheckoutMessage) (reason : String) :
    (rejectCheckout message reason).Issues Asks :=
  ⟨⟨trivial, trivial⟩, fun _ => asks_clearCheckouts _ _⟩

/-- The one statement of a checkout that is not calm is its commit. -/
theorem issues_processCheckout (message : CheckoutMessage) (orderId : ℕ) :
    (processCheckout message orderId).Issues
      fun c => Calm c ∨ c = .commitCheckout (checkoutCommit message orderId) := by
  have hcalm : ∀ {β : Type} {p : Service β}, p.Issues Calm →
      p.Issues fun c => Calm c ∨ c = .commitCheckout (checkoutCommit message orderId) :=
    fun hp => hp.mono fun _ hc => .inl hc
  have hclear : ∀ v : Verdict, (clearCheckouts message.scheduleId message.seatIds >>=
      fun _ => pure v).Issues
        fun c => Calm c ∨ c = .commitCheckout (checkoutCommit message orderId) :=
    fun v => (hcalm (calm_clearCheckouts _ _)).bind fun _ => trivial
  refine (hcalm (calm_orderExists _)).bind fun found => ?_
  cases found with
  | true => trivial
  | false =>
  show Prog.Issues _ (if message.seatIds = [] then _ else _)
  split_ifs
  · trivial
  refine (hcalm (calm_checkOwnership _ _ _)).bind fun reason => ?_
  match reason with
  | some reason => exact (hcalm (calm_rejectCheckout _ _)).bind fun _ => trivial
  | none =>
  refine ⟨.inr rfl, fun r => ?_⟩
  match r with
  | some () =>
      exact Prog.Issues.bind (p := announceCheckout message)
        (hcalm (calm_announceCheckout message)) fun _ => hclear .ack
  | none => exact hclear .nack

/-! ## Cancellations -/

theorem asks_cluster {k : Redis.Cmd} (hk : k.Quiet) : (onRedis (cluster k)).Issues Asks :=
  issues_onRedis_of (issues_cluster (φ := fun c => Asks (.redis c)) ⟨trivial, trivial⟩ ⟨trivial, hk⟩)

theorem asks_adjust (scheduleId delta : ℤ) :
    (adjustCachedAvailableSeats scheduleId delta).Issues Asks := asks_cluster trivial

theorem asks_publishRoom (scheduleId : ℤ) (event : Json) :
    (publishRoom scheduleId event).Issues Asks := asks_cluster trivial

theorem asks_announceCancellation (message : CancellationMessage) :
    (announceCancellation message).Issues Asks :=
  (asks_adjust _ _).bind fun _ => asks_publishRoom _ _

/-- The commands of a delivery of a cancellation. -/
inductive CancellationCmd (message : CancellationMessage) : Cmd → Prop where
  | asks {c : Cmd} (h : Asks c) : CancellationCmd message c
  | refund (paymentId : String) (paise : ℤ) : CancellationCmd message (.refund paymentId paise)
  | commit : CancellationCmd message (.commitCancellation (cancellationCommit message))

theorem issues_processCancellation (mockMode : Bool) (message : CancellationMessage) :
    (processCancellation mockMode message).Issues (CancellationCmd message) := by
  have hrefund : (refundPayment mockMode message).Issues (CancellationCmd message) := by
    unfold refundPayment processRazorpayRefund
    split
    · trivial
    · split_ifs
      · trivial
      · exact ⟨.refund _ _, fun _ => trivial⟩
  refine hrefund.bind fun r => ?_
  match r with
  | none => trivial
  | some () =>
  refine ⟨.commit, fun r => ?_⟩
  match r with
  | none => trivial
  | some () =>
      exact Prog.Issues.bind (p := announceCancellation message)
        ((asks_announceCancellation message).mono fun _ hc => .asks hc) fun _ => trivial

/-- The commands of `cancel_order`. -/
inductive CancelOrderCmd : Cmd → Prop where
  | asks {c : Cmd} (h : Asks c) : CancelOrderCmd c
  | find (id : ℕ) : CancelOrderCmd (.findOrder id)
  | start (id : ℕ) (message : CancellationMessage) : CancelOrderCmd (.startCancellation id message)

theorem issues_cancelOrder (userId : ℤ) (orderId : ℕ) (idempotencyKey : String) :
    (cancelOrder userId orderId idempotencyKey).Issues CancelOrderCmd := by
  unfold cancelOrder
  split_ifs
  · trivial
  refine ⟨.asks ⟨trivial, trivial⟩, fun r => ?_⟩
  match r with
  | none => trivial
  | some () =>
  refine ⟨.find orderId, fun r => ?_⟩
  match r with
  | none => trivial
  | some none => trivial
  | some (some order) =>
  show Prog.Issues _ (if order.userId ≠ userId then _ else
    if order.status ≠ .completed then _ else _)
  split_ifs
  · trivial
  · trivial
  refine ⟨.start _ _, fun r => ?_⟩
  match r with
  | none => trivial
  | some () => trivial

end Payments
end Bookit
