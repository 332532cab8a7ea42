import Bookit.Locks.DualKey
import Bookit.Payments.Store
import Mathlib.Data.List.Sort
import Mathlib.Data.Int.Order.Basic
import Mathlib.Data.Multiset.Defs

/-!
# Payments.Request — accepting a payment request

`request_payment` looks the idempotency key up, checks locks, seats and prices, takes the checkout
keys, and inserts the request with its outbox row in one transaction; where the insertion meets an
existing row it reads that row again.
-/

namespace Bookit
namespace Payments

open Lib

inductive AppError where
  | badRequest (message : String)
  | notFound (message : String)
  | internal (message : String)
  deriving DecidableEq

structure PaymentRequest where
  scheduleId : ℤ
  seatIds : List ℤ
  idempotencyKey : String
  razorpayOrderId : Option String
  razorpayPaymentId : Option String
  razorpaySignature : Option String
  deriving DecidableEq

structure PaymentAccepted where
  paymentRequestId : ℕ
  status : String
  deriving DecidableEq

/-- The configured provider secret, and the hexadecimal HMAC-SHA256 under a secret. -/
structure Provider where
  keySecret : String
  hmacHex : String → String → String

/-! ## Validation -/

/-- Unicode white space, which `str::trim` removes. -/
def isWhiteSpace (c : Char) : Bool :=
  let n := c.toNat
  decide ((9 ≤ n ∧ n ≤ 13) ∨ n = 32 ∨ n = 0x85 ∨ n = 0xA0 ∨ n = 0x1680 ∨
    (0x2000 ≤ n ∧ n ≤ 0x200A) ∨ n = 0x2028 ∨ n = 0x2029 ∨ n = 0x202F ∨ n = 0x205F ∨ n = 0x3000)

/-- `s.trim().is_empty()`. -/
def isBlank (s : String) : Bool :=
  s.toList.all isWhiteSpace

def checkFields (request : PaymentRequest) : Except AppError Unit :=
  if request.seatIds = [] ∨ isBlank request.idempotencyKey ∨
      128 < request.idempotencyKey.utf8ByteSize then
    .error (.badRequest "schedule, seats, and idempotency_key are required")
  else
    .ok ()

def checkSignature (provider : Provider) (request : PaymentRequest) : Except AppError Unit :=
  match request.razorpayOrderId with
  | none => .ok ()
  | some orderId =>
      if "order_mock_".toList.isPrefixOf orderId.toList then
        .ok ()
      else
        match request.razorpayPaymentId, request.razorpaySignature with
        | none, _ => .error (.badRequest "Missing Razorpay payment ID")
        | some _, none => .error (.badRequest "Missing Razorpay signature")
        | some paymentId, some signature =>
            if provider.hmacHex provider.keySecret (orderId ++ "|" ++ paymentId) = signature then
              .ok ()
            else
              .error (.badRequest "Invalid Razorpay signature")

/-! ## The purchase a key stands for -/

def samePaymentIntent (existingScheduleId : ℤ) (existingSeats : List ℤ)
    (requestedScheduleId : ℤ) (requestedSeats : List ℤ) : Bool :=
  if existingScheduleId ≠ requestedScheduleId then
    false
  else
    decide (existingSeats.insertionSort (· ≤ ·) = requestedSeats.insertionSort (· ≤ ·))

/-- A purchase: a schedule, and how many times each seat of it. -/
abbrev Purchase := ℤ × Multiset ℤ

def purchaseOf (scheduleId : ℤ) (seatIds : List ℤ) : Purchase :=
  (scheduleId, seatIds)

theorem purchaseOf_eq_iff {scheduleId scheduleId' : ℤ} {seatIds seatIds' : List ℤ} :
    purchaseOf scheduleId seatIds = purchaseOf scheduleId' seatIds' ↔
      scheduleId = scheduleId' ∧ seatIds.Perm seatIds' := by
  unfold purchaseOf
  rw [Prod.mk.injEq, Multiset.coe_eq_coe]

/-- Lists that are equal when sorted hold the same entries, each as many times. -/
theorem sorted_eq_iff {as bs : List ℤ} :
    as.insertionSort (· ≤ ·) = bs.insertionSort (· ≤ ·) ↔ as.Perm bs := by
  constructor
  · intro h
    calc as.Perm (as.insertionSort (· ≤ ·)) := (List.perm_insertionSort _ as).symm
      _ = bs.insertionSort (· ≤ ·) := h
      List.Perm _ bs := List.perm_insertionSort _ bs
  · intro h
    have hperm : (as.insertionSort (· ≤ ·)).Perm (bs.insertionSort (· ≤ ·)) :=
      calc (as.insertionSort (· ≤ ·)).Perm as := List.perm_insertionSort _ as
        List.Perm _ bs := h
        List.Perm _ (bs.insertionSort (· ≤ ·)) := (List.perm_insertionSort _ bs).symm
    exact hperm.eq_of_pairwise' (List.pairwise_insertionSort _ as) (List.pairwise_insertionSort _ bs)

theorem samePaymentIntent_iff {scheduleId scheduleId' : ℤ} {seatIds seatIds' : List ℤ} :
    samePaymentIntent scheduleId seatIds scheduleId' seatIds' = true ↔
      purchaseOf scheduleId seatIds = purchaseOf scheduleId' seatIds' := by
  rw [purchaseOf_eq_iff]
  unfold samePaymentIntent
  split_ifs with hne
  · constructor
    · intro h
      cases h
    · rintro ⟨heq, -⟩
      exact absurd heq hne
  · rw [decide_eq_true_iff, sorted_eq_iff]
    exact (and_iff_right (not_not.1 hne)).symm

/-- Two requests are for the same purchase if their schedules are equal and their seats are, in some
order; so sameness is an equivalence, whatever the order of the seats. -/
theorem same_payment_intent_decides :
    (∀ (scheduleId scheduleId' : ℤ) (seatIds seatIds' : List ℤ),
      samePaymentIntent scheduleId seatIds scheduleId' seatIds' = true ↔
        scheduleId = scheduleId' ∧ seatIds.Perm seatIds') ∧
    (Equivalence fun p q : ℤ × List ℤ => samePaymentIntent p.1 p.2 q.1 q.2 = true) ∧
    ∀ (scheduleId scheduleId' : ℤ) (as bs as' bs' : List ℤ), as.Perm bs → as'.Perm bs' →
      samePaymentIntent scheduleId as scheduleId' as' =
        samePaymentIntent scheduleId bs scheduleId' bs' := by
  refine ⟨fun _ _ _ _ => samePaymentIntent_iff.trans purchaseOf_eq_iff, ?_, ?_⟩
  · -- sameness is equality of the purchases
    simp only [samePaymentIntent_iff]
    exact eq_equivalence.comap fun p : ℤ × List ℤ => purchaseOf p.1 p.2
  · intro scheduleId scheduleId' as bs as' bs' h h'
    have hpurchase : purchaseOf scheduleId as = purchaseOf scheduleId bs :=
      purchaseOf_eq_iff.2 ⟨rfl, h⟩
    have hpurchase' : purchaseOf scheduleId' as' = purchaseOf scheduleId' bs' :=
      purchaseOf_eq_iff.2 ⟨rfl, h'⟩
    rw [Bool.eq_iff_iff, samePaymentIntent_iff, samePaymentIntent_iff, hpurchase, hpurchase']

/-- The row found under the key, if it is for the same purchase. -/
def acceptExisting (request : PaymentRequest) (existing : RequestRow) :
    Except AppError RequestRow :=
  if samePaymentIntent existing.scheduleId existing.seatIds request.scheduleId request.seatIds then
    .ok existing
  else
    .error (.badRequest "idempotency_key was already used for a different payment request")

/-! ## Seats -/

def checkSeats (request : PaymentRequest) (dbSeats : List SeatRow) : Except AppError Unit :=
  if dbSeats.length ≠ request.seatIds.length then
    .error (.badRequest "one or more seats do not belong to the requested schedule")
  else
    match dbSeats.find? fun r => decide (r.status = .booked) with
    | some r => .error (.badRequest ("seat " ++ toString r.id ++ " is already booked"))
    | none => .ok ()

/-- The sum of the prices with the tax of 18 per cent. -/
def totalAmount (dbSeats : List SeatRow) : ℚ :=
  let subTotal := (dbSeats.map (·.price)).sum
  subTotal + subTotal * (18 / 100)

/-! ## Checkout keys -/

def delCheckouts (scheduleId : ℤ) : List ℤ → Service Unit
  | [] => pure ()
  | seatId :: seatIds => do
      let _ ← Prog.perform (Cmd.redis (.delCheckout scheduleId seatId))
      delCheckouts scheduleId seatIds

/-- The checkout key of each seat in turn; `created` are the seats whose key this request set. -/
def holdCheckouts (scheduleId : ℤ) (owner : ℤ × String) :
    List ℤ → List ℤ → Service (Except AppError (List ℤ))
  | [], created => pure (.ok created)
  | seatId :: seatIds, created => do
      match ← Prog.perform (Cmd.redis (.setCheckoutNx scheduleId seatId owner 300)) with
      | none => pure (.error (.internal "redis error"))
      | some true => holdCheckouts scheduleId owner seatIds (created ++ [seatId])
      | some false =>
          match ← Prog.perform (Cmd.redis (.getCheckout scheduleId seatId)) with
          | none => pure (.error (.internal "redis error"))
          | some current =>
              if current = some owner then
                holdCheckouts scheduleId owner seatIds created
              else do
                delCheckouts scheduleId created
                pure (.error (.badRequest "one or more seats already have a checkout in progress"))

/-! ## The transaction -/

/-- The request row and its outbox row, committed together; the number of rows inserted. -/
def insertTransaction (row : RequestRow) (message : CheckoutMessage) : Service (Option ℕ) := do
  match ← Prog.perform (Cmd.insertRequest row) with
  | none => do
      let _ ← Prog.perform Cmd.rollback
      pure none
  | some inserted =>
      if inserted = 1 then do
        match ← Prog.perform (Cmd.insertRequested message) with
        | none => do
            let _ ← Prog.perform Cmd.rollback
            pure none
        | some () =>
            match ← Prog.perform Cmd.commit with
            | none => pure none
            | some () => pure (some inserted)
      else
        match ← Prog.perform Cmd.commit with
        | none => pure none
        | some () => pure (some inserted)

/-! ## The handler -/

def requestRow (userId : ℤ) (request : PaymentRequest) (paymentRequestId : ℕ) : RequestRow :=
  { id := paymentRequestId, idempotencyKey := request.idempotencyKey, userId := userId,
    scheduleId := request.scheduleId, seatIds := request.seatIds, status := .pending,
    failureReason := none }

def checkoutMessage (userId : ℤ) (request : PaymentRequest) (paymentRequestId : ℕ) (amount : ℚ) :
    CheckoutMessage :=
  { paymentRequestId := paymentRequestId, userId := userId, scheduleId := request.scheduleId,
    seatIds := request.seatIds, amount := amount, razorpayOrderId := request.razorpayOrderId,
    razorpayPaymentId := request.razorpayPaymentId }

/-- From the checked request on: the checkout keys, the insertion, and the row behind a conflict. -/
def storeRequest (userId : ℤ) (request : PaymentRequest) (paymentRequestId : ℕ) (amount : ℚ) :
    Service (Except AppError PaymentAccepted) := do
  match ← Prog.perform (Cmd.redis .connect) with
  | none => pure (.error (.internal "redis error"))
  | some () =>
      match ← holdCheckouts request.scheduleId (userId, request.idempotencyKey)
          request.seatIds [] with
      | .error e => pure (.error e)
      | .ok created =>
          match ← insertTransaction (requestRow userId request paymentRequestId)
              (checkoutMessage userId request paymentRequestId amount) with
          | none => do
              delCheckouts request.scheduleId created
              pure (.error (.internal "database error"))
          | some inserted =>
              if inserted = 1 then
                pure (.ok ⟨paymentRequestId, "pending"⟩)
              else
                match ← Prog.perform (Cmd.findRequest userId request.idempotencyKey) with
                | none => pure (.error (.internal "database error"))
                | some none => pure (.error (.internal "database error"))
                | some (some existing) =>
                    pure ((acceptExisting request existing).map fun row => ⟨row.id, "pending"⟩)

/-- The lock and seat checks of a request whose key is new. -/
def checkAndStore (userId : ℤ) (request : PaymentRequest) (paymentRequestId : ℕ) :
    Service (Except AppError PaymentAccepted) := do
  match ← onRedis (Locks.checkSeatLocks request.scheduleId userId request.seatIds) with
  | .error message => pure (.error (.badRequest message))
  | .ok () =>
      match ← Prog.perform (Cmd.loadSeats request.seatIds request.scheduleId) with
      | none => pure (.error (.internal "failed to load seats"))
      | some dbSeats =>
          match checkSeats request dbSeats with
          | .error e => pure (.error e)
          | .ok () => storeRequest userId request paymentRequestId (totalAmount dbSeats)

/-- The handler for the user that the token names; `paymentRequestId` is the UUID it draws. -/
def requestPayment (provider : Provider) (userId : ℤ) (request : PaymentRequest)
    (paymentRequestId : ℕ) : Service (Except AppError PaymentAccepted) :=
  match checkFields request with
  | .error e => pure (.error e)
  | .ok () =>
      match checkSignature provider request with
      | .error e => pure (.error e)
      | .ok () => do
          match ← Prog.perform Cmd.connect with
          | none => pure (.error (.internal "database unavailable"))
          | some () =>
              match ← Prog.perform (Cmd.findRequest userId request.idempotencyKey) with
              | none => pure (.error (.internal "database error"))
              | some (some existing) =>
                  pure ((acceptExisting request existing).map fun row => ⟨row.id, row.status.text⟩)
              | some none => checkAndStore userId request paymentRequestId

end Payments
end Bookit
