import Bookit.Payments.Request

/-!
# Payments.Processor — checkouts and cancellations

The two branches of `process_messages`, one delivery each, and `cancel_order`, which asks for a
cancellation.  A verdict is what the delivery is answered with; a handler that crashes answers
nothing, and the broker delivers the message again.
-/

namespace Bookit
namespace Payments

open Lib SingleNodeLock

inductive Verdict where
  | ack
  | nack
  deriving DecidableEq

/-! ## Cached counts and room events -/

def adjustCachedAvailableSeats (scheduleId delta : ℤ) : Service Unit :=
  onRedis (cluster (.adjustAvailable scheduleId delta))

/-- The room event of a checkout or a cancellation. -/
def roomEvent (event : String) (seatIds : List ℤ) (userId : ℤ) : Json :=
  .obj [("event", .str event), ("seat_ids", .arr (seatIds.map Json.num)), ("user_id", .num userId)]

def publishRoom (scheduleId : ℤ) (event : Json) : Service Unit :=
  onRedis (publishEvent (.room scheduleId) event)

/-- The checkout keys of the seats, over one connection. -/
def clearCheckouts (scheduleId : ℤ) (seatIds : List ℤ) : Service Unit := do
  match ← Prog.perform (Cmd.redis .connect) with
  | none => pure ()
  | some () => delCheckouts scheduleId seatIds

/-! ## Cancellation -/

/-- `(amount * 100) as i64`, which truncates; the product is taken exactly. -/
def paise (amount : ℚ) : ℤ :=
  if 0 ≤ amount then (amount * 100).floor else (amount * 100).ceil

/-- The refund at the provider; in test mode, or without a key, none is requested. -/
def processRazorpayRefund (mockMode : Bool) (paymentId : String) (amountPaise : ℤ) :
    Service (Option Unit) :=
  if mockMode then
    pure (some ())
  else
    Prog.perform (Cmd.refund paymentId amountPaise)

/-- The refund of a cancellation, where the order has a payment to refund. -/
def refundPayment (mockMode : Bool) (message : CancellationMessage) : Service (Option Unit) :=
  match message.razorpayPaymentId with
  | none => pure (some ())
  | some paymentId => processRazorpayRefund mockMode paymentId (paise message.amount)

def cancellationCommit (message : CancellationMessage) : CancellationCommit :=
  { orderId := message.orderId, userId := message.userId, scheduleId := message.scheduleId,
    seatIds := message.seatIds, amount := message.amount }

/-- What follows a committed cancellation. -/
def announceCancellation (message : CancellationMessage) : Service Unit := do
  adjustCachedAvailableSeats message.scheduleId message.seatIds.length
  publishRoom message.scheduleId (roomEvent "seat_unlocked" message.seatIds message.userId)

/-- From the transaction on, after a refund that was not needed or succeeded. -/
def commitAndAnnounce (message : CancellationMessage) : Service Verdict := do
  match ← Prog.perform (Cmd.commitCancellation (cancellationCommit message)) with
  | none => pure .nack
  | some () => do
      announceCancellation message
      pure .ack

/-- A delivery of a cancellation. -/
def processCancellation (mockMode : Bool) (message : CancellationMessage) : Service Verdict := do
  match ← refundPayment mockMode message with
  | none => pure .nack
  | some () => commitAndAnnounce message

/-! ## Checkout -/

/-- The dual-key check of each seat in turn: the reason of the first failure. -/
def checkOwnership (scheduleId userId : ℤ) : List ℤ → Service (Option String)
  | [] => pure none
  | seatId :: seatIds => do
      match ← onRedis (getLockOwner scheduleId seatId) with
      | none => pure (some ("seat lock not found for seat " ++ toString seatId ++ " (user " ++
          toString userId ++ ")"))
      | some owner =>
          if owner ≠ userId then
            pure (some ("seat " ++ toString seatId ++ " is locked by user " ++ toString owner ++
              " not user " ++ toString userId))
          else do
            if ← onRedis (userHoldsLock scheduleId seatId userId) then
              checkOwnership scheduleId userId seatIds
            else
              pure (some ("user context lock not found for seat " ++ toString seatId ++ " (user " ++
                toString userId ++ ")"))

/-- `order_exists`, false also where the query fails. -/
def orderExists (paymentRequestId : ℕ) : Service Bool := do
  match ← Prog.perform Cmd.connect with
  | none => pure false
  | some () =>
      let found ← Prog.perform (Cmd.orderExists paymentRequestId)
      pure (found.getD false)

def checkoutCommit (message : CheckoutMessage) (orderId : ℕ) : CheckoutCommit :=
  { orderId := orderId, paymentRequestId := message.paymentRequestId, userId := message.userId,
    scheduleId := message.scheduleId, seatIds := message.seatIds, totalAmount := message.amount,
    razorpayOrderId := message.razorpayOrderId.getD "",
    razorpayPaymentId := message.razorpayPaymentId }

/-- Each seat's lock released and its bitmap field set to booked. -/
def markBooked (scheduleId userId : ℤ) : List ℤ → Service Unit
  | [] => pure ()
  | seatId :: seatIds => do
      let _ ← onRedis (releaseLock scheduleId seatId userId)
      onRedis (setScheduleSeatBitmapStateCluster scheduleId seatId .booked)
      markBooked scheduleId userId seatIds

/-- What follows a committed checkout. -/
def announceCheckout (message : CheckoutMessage) : Service Unit := do
  adjustCachedAvailableSeats message.scheduleId (-message.seatIds.length)
  markBooked message.scheduleId message.userId message.seatIds
  publishRoom message.scheduleId (roomEvent "seat_booked" message.seatIds message.userId)

/-- The failure branch: the request is marked failed and its checkout keys are removed. -/
def rejectCheckout (message : CheckoutMessage) (reason : String) : Service Unit := do
  let _ ← Prog.perform (Cmd.failRequest message.paymentRequestId reason)
  clearCheckouts message.scheduleId message.seatIds

/-- A delivery of a checkout; `orderId` is the UUID it draws for the order. -/
def processCheckout (message : CheckoutMessage) (orderId : ℕ) : Service Verdict := do
  if ← orderExists message.paymentRequestId then
    pure .ack
  else if message.seatIds = [] then
    pure .nack
  else do
    match ← checkOwnership message.scheduleId message.userId message.seatIds with
    | some reason => do
        rejectCheckout message reason
        pure .nack
    | none =>
        match ← Prog.perform (Cmd.commitCheckout (checkoutCommit message orderId)) with
        | some () => do
            announceCheckout message
            clearCheckouts message.scheduleId message.seatIds
            pure .ack
        | none => do
            clearCheckouts message.scheduleId message.seatIds
            pure .nack

/-! ## Asking for a cancellation -/

def cancellationMessage (order : OrderRow) (userId : ℤ) (idempotencyKey : String) :
    CancellationMessage :=
  { orderId := order.id, userId := userId, scheduleId := order.scheduleId, seatIds := order.seatIds,
    amount := order.totalAmount, razorpayPaymentId := order.razorpayPaymentId,
    idempotencyKey := idempotencyKey }

structure CancelOrderResponse where
  orderId : ℕ
  status : String
  message : String
  deriving DecidableEq

def cancelOrder (userId : ℤ) (orderId : ℕ) (idempotencyKey : String) :
    Service (Except AppError CancelOrderResponse) :=
  if isBlank idempotencyKey then
    pure (.error (.badRequest "idempotency_key is required"))
  else do
    match ← Prog.perform Cmd.connect with
    | none => pure (.error (.internal "database unavailable"))
    | some () =>
        match ← Prog.perform (Cmd.findOrder orderId) with
        | none => pure (.error (.notFound "order not found"))
        | some none => pure (.error (.notFound "order not found"))
        | some (some order) =>
            if order.userId ≠ userId then
              pure (.error (.badRequest "order does not belong to this user"))
            else if order.status ≠ .completed then
              pure (.ok ⟨order.id, "cancelling",
                "Cancellation is already in progress or completed."⟩)
            else do
              match ← Prog.perform (Cmd.startCancellation order.id
                  (cancellationMessage order userId idempotencyKey)) with
              | none => pure (.error (.internal "failed to enqueue cancellation"))
              | some () => pure (.ok ⟨order.id, "cancelling",
                  "Cancellation request submitted successfully."⟩)

end Payments
end Bookit
