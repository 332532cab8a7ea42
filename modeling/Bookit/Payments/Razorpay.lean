import Bookit.Payments.System

/-!
# Payments.Razorpay — orders at the payment provider

`create_razorpay_order` prices the seats and asks the provider for an order of that amount; the user
pays it at the provider, which signs the pair of order and payment; `request_payment` is called with
what the user's browser sends.  The shop is the world of the payment path next to the provider.
-/

namespace Bookit
namespace Payments

open Lib

/-! ## The provider -/

/-- The orders of the merchant's account with their amounts in paise, and the payments, each with the
order it was made for. -/
structure Razorpay where
  orders : List (String × ℤ)
  payments : List (String × String)
  deriving DecidableEq

/-- Identifiers of the provider are made of letters, digits and underscores. -/
def plainId (id : String) : Bool :=
  id.toList.all fun c => decide (c ≠ '|')

namespace Razorpay

/-- The amount an order was created for. -/
def amountOf (p : Razorpay) (orderId : String) : Option ℤ :=
  (p.orders.find? fun o => decide (o.1 = orderId)).map Prod.snd

/-- An identifier that no order has yet. -/
def fresh (p : Razorpay) (orderId : String) : Bool :=
  plainId orderId && !p.orders.any fun o => decide (o.1 = orderId)

/-- A payment for an order, with an identifier that no payment has yet. -/
def pay (p : Razorpay) (orderId paymentId : String) : Option Razorpay :=
  if plainId paymentId ∧ (p.amountOf orderId).isSome ∧ plainId orderId ∧
      ∀ x ∈ p.payments, x.2 ≠ paymentId then
    some { p with payments := p.payments ++ [(orderId, paymentId)] }
  else
    none

end Razorpay

/-! ## The shop -/

/-- A call of `request_payment`, with the UUID it draws. -/
structure Call where
  newId : ℕ
  userId : ℤ
  request : PaymentRequest
  deriving DecidableEq

structure Shop where
  world : World
  razorpay : Razorpay
  /-- The provider's orders with the seats they were asked for. -/
  issued : List (String × List ℤ)
  /-- The calls of `request_payment` so far. -/
  calls : List Call

/-- The commands of the payment path, the price query, and the request for an order. -/
inductive ShopCmd where
  | service (c : Cmd)
  | loadPrices (seatIds : List ℤ)
  | createOrder (razorpayId : String) (amount : ℤ)

abbrev ShopRep : ShopCmd → Type
  | .service c => Rep c
  | .loadPrices _ => Option (List ℚ)
  | .createOrder .. => Option String

abbrev ShopService := Prog ShopRep

/-- A program of the payment path, run in the shop. -/
def inShop {β : Type} (p : Service β) : ShopService β :=
  p.hoist fun c => .call (ShopCmd.service c) fun r => .ret r

/-! ## Creating an order -/

structure CreateRazorpayOrderRequest where
  scheduleId : ℤ
  seatIds : List ℤ
  amountPaise : ℤ
  deriving DecidableEq

/-- The prices of the rows with these ids, in whatever schedule they are. -/
def loadPrices (s : Postgres) (seatIds : List ℤ) : List ℚ :=
  (s.seats.filter fun r => decide (r.id ∈ seatIds)).map (·.price)

/-- The sum of prices with the tax of 18 per cent. -/
def priceTotal (prices : List ℚ) : ℚ :=
  prices.sum + prices.sum * (18 / 100)

/-- Rounding to an integer, halves to the even one. -/
def roundHalfEven (x : ℚ) : ℤ :=
  if x - x.floor < 1 / 2 then
    x.floor
  else if 1 / 2 < x - x.floor then
    x.floor + 1
  else if x.floor % 2 = 0 then
    x.floor
  else
    x.floor + 1

/-- The total in paise. -/
def paiseOf (total : ℚ) : ℤ :=
  roundHalfEven (total * 100)

/-- `to_i64`. -/
def toI64 (n : ℤ) : Option ℤ :=
  if -(2 ^ 63) ≤ n ∧ n < 2 ^ 63 then some n else none

/-- From the prices on; `uuid` is drawn for a mock order, `razorpayId` by the provider. -/
def orderForPrices (keyId : String) (request : CreateRazorpayOrderRequest) (uuid razorpayId : String)
    (prices : List ℚ) : ShopService (Except AppError String) :=
  match toI64 (paiseOf (priceTotal prices)) with
  | none => pure (.error (.internal "price calculation overflow"))
  | some backendAmountPaise =>
      if backendAmountPaise ≠ request.amountPaise then
        pure (.error (.badRequest "price mismatch between client and server"))
      else if keyId = "" then
        pure (.ok ("order_mock_" ++ String.ofList ((uuid.toList.filter (· ≠ '-')).take 14)))
      else do
        match ← Prog.perform (ShopCmd.createOrder razorpayId request.amountPaise) with
        | none => pure (.error (.internal "Razorpay API error"))
        | some orderId => pure (.ok orderId)

def createRazorpayOrder (keyId : String) (userId : ℤ) (request : CreateRazorpayOrderRequest)
    (uuid razorpayId : String) : ShopService (Except AppError String) :=
  if request.seatIds = [] then
    pure (.error (.badRequest "at least one seat_id is required"))
  else do
    match ← inShop (onRedis (Locks.checkSeatLocks request.scheduleId userId request.seatIds)) with
    | .error message => pure (.error (.badRequest message))
    | .ok () =>
        match ← inShop (Prog.perform Cmd.connect) with
        | none => pure (.error (.internal "database unavailable"))
        | some () =>
            match ← Prog.perform (ShopCmd.loadPrices request.seatIds) with
            | none => pure (.error (.internal "failed to load seats"))
            | some prices => orderForPrices keyId request uuid razorpayId prices

/-! ## The machine -/

inductive ShopTask where
  | service (n : Task)
  | createOrder (userId : ℤ) (request : CreateRazorpayOrderRequest)

inductive ShopResult where
  | service (r : Result)
  | created (r : Except AppError String)

inductive ShopEnviron where
  /-- Time, deliveries of checkouts, and what other services do. -/
  | service (x : Environ)
  | request (userId : ℤ) (request : PaymentRequest) (newId : ℕ)
  | createOrder (userId : ℤ) (request : CreateRazorpayOrderRequest) (uuid razorpayId : String)
  | pay (orderId paymentId : String)

/-- The seats a thread asks an order for. -/
def ShopTask.seatIds : ShopTask → List ℤ
  | .service _ => []
  | .createOrder _ request => request.seatIds

/-- The provider's record with a new order. -/
def Shop.addOrder (s : Shop) (razorpayId : String) (amount : ℤ) (seatIds : List ℤ) : Shop :=
  { s with
    razorpay := { s.razorpay with orders := s.razorpay.orders ++ [(razorpayId, amount)] }
    issued := s.issued ++ [(razorpayId, seatIds)] }

def shopExec (n : ShopTask) (i : ℕ) (l : Link) : (c : ShopCmd) → Shop → Option (Shop × ShopRep c)
  | .service c, s => (exec i l c s.world).map fun x => ({ s with world := x.1 }, x.2)
  | .loadPrices seatIds, s => some (l.deliver (fun s => (s, loadPrices s.world.pg seatIds)) s)
  | .createOrder razorpayId amount, s =>
      if s.razorpay.fresh razorpayId then
        some (l.deliver (fun s => (s.addOrder razorpayId amount n.seatIds, razorpayId)) s)
      else
        none

/-- A thread of the payment path, as a thread of the shop. -/
def shopThread (x : Task × Service Result) : ShopTask × ShopService ShopResult :=
  (.service x.1, inShop x.2 >>= fun r => pure (.service r))

def createOrderTask (keyId : String) (userId : ℤ) (request : CreateRazorpayOrderRequest)
    (uuid razorpayId : String) : ShopService ShopResult := do
  let r ← createRazorpayOrder keyId userId request uuid razorpayId
  pure (.created r)

/-- A step of the payment path's environment in the shop. -/
def shopStep (x : Environ) (s : Shop) : Option (Shop × List (ShopTask × ShopService ShopResult)) :=
  (environ x s.world).map fun y => ({ s with world := y.1 }, y.2.map shopThread)

/-- Requests are made with the configured provider, and each draws a UUID of its own. -/
def shopEnviron (provider : Provider) (keyId : String) :
    ShopEnviron → Shop → Option (Shop × List (ShopTask × ShopService ShopResult))
  | .service (.request ..), _ => none
  | .service x, s => shopStep x s
  | .request userId request newId, s =>
      if s.calls.any fun c => decide (c.newId = newId) then
        none
      else
        shopStep (.request provider userId request newId)
          { s with calls := s.calls ++ [⟨newId, userId, request⟩] }
  | .createOrder userId request uuid razorpayId, s =>
      some (s, [(.createOrder userId request, createOrderTask keyId userId request uuid razorpayId)])
  | .pay orderId paymentId, s =>
      (s.razorpay.pay orderId paymentId).map fun p => ({ s with razorpay := p }, [])

def newShop (seats : List SeatRow) : Shop :=
  { world := newWorld seats, razorpay := ⟨[], []⟩, issued := [], calls := [] }

def shopMachine (provider : Provider) (keyId : String) :
    Machine Shop ShopRep ShopTask ShopResult Link ShopEnviron where
  init s := ∃ seats : List SeatRow, (seats.map (·.id)).Nodup ∧ s = newShop seats
  exec := shopExec
  environ := shopEnviron provider keyId
  close i s := { s with world := { s.world with pg := s.world.pg.rollback i } }

end Payments
end Bookit
