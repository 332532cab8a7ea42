import Bookit.Payments.Processor
import Bookit.Payments.Razorpay
import Mathlib.Data.Rat.Floor
import Mathlib.Tactic.FieldSimp
import Mathlib.Tactic.Ring

/-!
# Payments.Refunds — what is charged for seats and what is refunded

The provider is asked for the total in paise, rounded to the nearest, halves to the even one.  The order
keeps the exact total, with up to four decimals, and the refund is that total in paise, cut off.  With
the tax of 18 per cent the two agree for about half of all sums of prices.
-/

namespace Bookit
namespace Payments

open Lib

/-! ## Prices -/

/-- A value of a column of type `NUMERIC(10,2)`. -/
structure SeatPrice where
  paise : ℤ
  fits : |paise| < 10 ^ 10

def SeatPrice.decimal (p : SeatPrice) : ℚ := p.paise / 100

/-- The sum of prices, in paise. -/
def subTotalPaise (prices : List SeatPrice) : ℤ :=
  (prices.map SeatPrice.paise).sum

/-! ## The two amounts -/

/-- What `create_razorpay_order` asks the provider for; nothing where it overflows. -/
def chargedPaise (prices : List ℚ) : Option ℤ :=
  toI64 (paiseOf (priceTotal prices))

/-- `as i64` of a number without decimals, which saturates. -/
def asI64 (n : ℤ) : ℤ :=
  max (-(2 ^ 63)) (min n (2 ^ 63 - 1))

/-- What the cancellation asks the provider to refund. -/
def refundedPaise (message : CancellationMessage) : ℤ :=
  asI64 (paise message.amount)

/-- The order that a checkout of these seats makes. -/
def orderOf (userId : ℤ) (request : PaymentRequest) (paymentRequestId orderId : ℕ)
    (dbSeats : List SeatRow) : OrderRow :=
  Postgres.newOrder (checkoutCommit
    (checkoutMessage userId request paymentRequestId (totalAmount dbSeats)) orderId)

/-- An order at the provider is for the charged amount. -/
theorem issues_orderForPrices (keyId : String) (request : CreateRazorpayOrderRequest)
    (uuid razorpayId : String) (prices : List ℚ) :
    (orderForPrices keyId request uuid razorpayId prices).Issues fun c =>
      ∀ id amount, c = .createOrder id amount → chargedPaise prices = some amount := by
  unfold orderForPrices
  split
  · trivial
  · next backendAmountPaise hcharged =>
    split_ifs with hmismatch hkey
    · trivial
    · trivial
    · refine ⟨?_, fun r => ?_⟩
      · intro id amount hc
        obtain ⟨-, rfl⟩ := ShopCmd.createOrder.inj hc
        rw [not_not] at hmismatch
        exact hcharged.trans (congrArg some hmismatch)
      · match r with
        | none => trivial
        | some orderId => trivial

/-- A refund at the provider is of the amount of the order, cut off to paise. -/
theorem issues_processCancellation_refund (mockMode : Bool) (message : CancellationMessage) :
    (processCancellation mockMode message).Issues fun c =>
      ∀ id amount, c = .refund id amount → amount = paise message.amount := by
  have hrefund : (refundPayment mockMode message).Issues fun c =>
      ∀ id amount, c = .refund id amount → amount = paise message.amount := by
    unfold refundPayment processRazorpayRefund
    split
    · trivial
    · split_ifs
      · trivial
      · refine ⟨?_, fun _ => trivial⟩
        intro id amount hc
        exact (Cmd.refund.inj hc).2.symm
  refine hrefund.bind fun r => ?_
  match r with
  | none => trivial
  | some () =>
      refine ⟨(fun _ _ hc => by cases hc), fun r => ?_⟩
      match r with
      | none => trivial
      | some () =>
          refine Prog.Issues.bind (p := announceCancellation message) ?_ fun _ => trivial
          have hcluster : ∀ k : Redis.Cmd, (onRedis (SingleNodeLock.cluster k)).Issues fun c =>
              ∀ id amount, c = .refund id amount → amount = paise message.amount := by
            intro k
            refine ⟨(fun _ _ hc => by cases hc), fun r => ?_⟩
            match r with
            | none => trivial
            | some () => exact ⟨(fun _ _ hc => by cases hc), fun _ => trivial⟩
          exact (hcluster _).bind fun _ => hcluster _

/-! ## Hundredths -/

section Hundredths

variable {m : ℤ}

theorem floor_hundredths (m : ℤ) : ((m : ℚ) / 100).floor = m / 100 :=
  Rat.floor_intCast_div_natCast m 100

theorem ceil_hundredths (m : ℤ) : ((m : ℚ) / 100).ceil = -(-m / 100) := by
  rw [Rat.ceil_eq_neg_floor_neg, ← neg_div, ← Int.cast_neg, floor_hundredths]

/-- Hundredths, rounded to the nearest number, halves to the even one. -/
def roundHundredths (m : ℤ) : ℤ :=
  if m % 100 < 50 then m / 100
  else if 50 < m % 100 then m / 100 + 1
  else if m / 100 % 2 = 0 then m / 100
  else m / 100 + 1

/-- Hundredths, cut off towards zero. -/
def cutHundredths (m : ℤ) : ℤ :=
  if 0 ≤ m then m / 100 else -(-m / 100)

theorem roundHalfEven_hundredths (m : ℤ) :
    roundHalfEven ((m : ℚ) / 100) = roundHundredths m := by
  have hfrac : (m : ℚ) / 100 - ((m / 100 : ℤ) : ℚ) = ((m % 100 : ℤ) : ℚ) / 100 := by
    have hdiv : (m : ℚ) = 100 * ((m / 100 : ℤ) : ℚ) + ((m % 100 : ℤ) : ℚ) := by
      exact_mod_cast (Int.mul_ediv_add_emod m 100).symm
    rw [hdiv]
    ring
  have hlow : ((m % 100 : ℤ) : ℚ) / 100 < 1 / 2 ↔ m % 100 < 50 := by
    rw [div_lt_div_iff₀ (by norm_num) (by norm_num)]
    constructor
    · intro h
      have h : m % 100 * 2 < 1 * 100 := by exact_mod_cast h
      omega
    · intro h
      have h : m % 100 * 2 < 1 * 100 := by omega
      exact_mod_cast h
  have hhigh : 1 / 2 < ((m % 100 : ℤ) : ℚ) / 100 ↔ 50 < m % 100 := by
    rw [div_lt_div_iff₀ (by norm_num) (by norm_num)]
    constructor
    · intro h
      have h : 1 * 100 < m % 100 * 2 := by exact_mod_cast h
      omega
    · intro h
      have h : 1 * 100 < m % 100 * 2 := by omega
      exact_mod_cast h
  unfold roundHalfEven roundHundredths
  rw [floor_hundredths, hfrac]
  simp only [hlow, hhigh]

/-- An amount in paise, cut off towards zero. -/
theorem paise_hundredths {amount : ℚ} (h : amount * 100 = (m : ℚ) / 100) :
    paise amount = cutHundredths m := by
  have hsign : 0 ≤ amount ↔ 0 ≤ m := by
    have hm : (m : ℚ) = amount * 10000 := by
      rw [eq_div_iff (by norm_num)] at h
      linarith
    rw [← Int.cast_nonneg_iff (R := ℚ), hm]
    constructor
    · intro hpos
      positivity
    · intro hpos
      linarith
  unfold paise cutHundredths
  rw [h, floor_hundredths, ceil_hundredths]
  simp only [hsign]

theorem roundHundredths_fits_iff (m : ℤ) :
    (-(2 ^ 63) ≤ roundHundredths m ∧ roundHundredths m < 2 ^ 63) ↔
      -(2 ^ 63 * 100) ≤ m + 50 ∧ m + 50 < 2 ^ 63 * 100 := by
  unfold roundHundredths
  split_ifs <;> omega

/-- Cutting off is rounding exactly where the fraction of the absolute value is below a half, or is a
half after an even number. -/
theorem cut_eq_round_iff (m : ℤ) :
    cutHundredths m = roundHundredths m ↔
      m.natAbs % 100 < 50 ∨ (m.natAbs % 100 = 50 ∧ m.natAbs / 100 % 2 = 0) := by
  unfold cutHundredths roundHundredths
  split_ifs <;> omega

theorem asI64_cutHundredths (h : -(2 ^ 63) ≤ roundHundredths m ∧ roundHundredths m < 2 ^ 63) :
    asI64 (cutHundredths m) = cutHundredths m := by
  have hfits : -(2 ^ 63) ≤ cutHundredths m ∧ cutHundredths m < 2 ^ 63 := by
    unfold cutHundredths
    unfold roundHundredths at h
    split_ifs at h ⊢ <;> omega
  unfold asI64
  rw [min_eq_left (by omega), max_eq_right hfits.1]

end Hundredths

/-! ## The total -/

theorem sum_decimal (prices : List SeatPrice) :
    (prices.map SeatPrice.decimal).sum = (subTotalPaise prices : ℚ) / 100 := by
  unfold subTotalPaise
  induction prices with
  | nil => norm_num
  | cons p prices ih =>
      rw [List.map_cons, List.sum_cons, ih, List.map_cons, List.sum_cons, Int.cast_add, add_div]
      rfl

/-- The total of the seats in hundredths of a paisa. -/
theorem priceTotal_hundredths (prices : List SeatPrice) :
    priceTotal (prices.map SeatPrice.decimal) * 100 =
      ((118 * subTotalPaise prices : ℤ) : ℚ) / 100 := by
  unfold priceTotal
  rw [sum_decimal, Int.cast_mul, Int.cast_ofNat]
  ring

/-! ## When the two amounts agree -/

/-- The total can be charged. -/
def Chargeable (subTotal : ℤ) : Prop :=
  -(2 ^ 63 * 100) ≤ 118 * subTotal + 50 ∧ 118 * subTotal + 50 < 2 ^ 63 * 100

/-- With the tax, the fraction of a paisa is rounded towards zero. -/
def RoundsDown (subTotal : ℤ) : Prop :=
  118 * subTotal.natAbs % 100 < 50 ∨
    (118 * subTotal.natAbs % 100 = 50 ∧ 118 * subTotal.natAbs / 100 % 2 = 0)

instance {subTotal : ℤ} : Decidable (Chargeable subTotal) := by
  unfold Chargeable
  infer_instance

instance {subTotal : ℤ} : Decidable (RoundsDown subTotal) := by
  unfold RoundsDown
  infer_instance

theorem roundsDown_iff {subTotal : ℤ} :
    cutHundredths (118 * subTotal) = roundHundredths (118 * subTotal) ↔ RoundsDown subTotal := by
  have habs : (118 * subTotal).natAbs = 118 * subTotal.natAbs := Int.natAbs_mul 118 subTotal
  rw [cut_eq_round_iff, habs]
  rfl

/-- What is charged, by the sum of the prices. -/
theorem chargedPaise_eq (prices : List SeatPrice) :
    chargedPaise (prices.map SeatPrice.decimal) =
      if Chargeable (subTotalPaise prices) then
        some (roundHundredths (118 * subTotalPaise prices))
      else none := by
  unfold chargedPaise paiseOf toI64
  rw [priceTotal_hundredths, roundHalfEven_hundredths]
  exact if_congr (roundHundredths_fits_iff _) rfl rfl

/-- What is refunded for the order of the seats, where its total could be charged. -/
theorem refundedPaise_eq {message : CancellationMessage} {prices : List SeatPrice}
    (hamount : message.amount = priceTotal (prices.map SeatPrice.decimal))
    (hcharge : Chargeable (subTotalPaise prices)) :
    refundedPaise message = cutHundredths (118 * subTotalPaise prices) := by
  have hpaise : paise message.amount = cutHundredths (118 * subTotalPaise prices) :=
    paise_hundredths (by rw [hamount, priceTotal_hundredths])
  unfold refundedPaise
  rw [hpaise]
  exact asI64_cutHundredths ((roundHundredths_fits_iff _).2 hcharge)

/-- The refund of the order that is made from the seats is what was charged for them exactly where the
fraction of the total is rounded down; where the total overflows nothing is charged. -/
theorem refund_equals_charge_iff (userId : ℤ) (request : PaymentRequest)
    (paymentRequestId orderId : ℕ) (idempotencyKey : String) (dbSeats : List SeatRow)
    (prices : List SeatPrice)
    (hprices : dbSeats.map (·.price) = prices.map SeatPrice.decimal) :
    (∀ charge, chargedPaise (dbSeats.map (·.price)) = some charge →
        refundedPaise (cancellationMessage (orderOf userId request paymentRequestId orderId dbSeats)
          userId idempotencyKey) = charge) ↔
      (Chargeable (subTotalPaise prices) → RoundsDown (subTotalPaise prices)) := by
  -- the amount of the order is the total that was priced
  have hamount : (cancellationMessage (orderOf userId request paymentRequestId orderId dbSeats)
      userId idempotencyKey).amount = priceTotal (prices.map SeatPrice.decimal) := by
    show totalAmount dbSeats = _
    rw [← hprices]
    rfl
  rw [hprices, chargedPaise_eq]
  constructor
  · intro hagree hcharge
    have hequal := hagree _ (if_pos hcharge)
    rw [refundedPaise_eq hamount hcharge] at hequal
    exact roundsDown_iff.1 hequal
  · intro hround charge hcharged
    by_cases hcharge : Chargeable (subTotalPaise prices)
    · rw [if_pos hcharge] at hcharged
      calc refundedPaise _ = cutHundredths (118 * subTotalPaise prices) :=
            refundedPaise_eq hamount hcharge
        _ = roundHundredths (118 * subTotalPaise prices) := roundsDown_iff.2 (hround hcharge)
        _ = charge := Option.some.inj hcharged
    · rw [if_neg hcharge] at hcharged
      cases hcharged

/-- A seat at the given price. -/
def seatAt (id paise : ℤ) : SeatRow := ⟨id, 1, (paise : ℚ) / 100, .available⟩

/-- Two seats for a hundred rupees each. -/
theorem refund_equals_charge_iff_hundred :
    refundedPaise (cancellationMessage (orderOf 42
      ⟨1, [1, 2], "key", none, none, none⟩ 10 20 [seatAt 1 10000, seatAt 2 10000]) 42 "cancel") =
        23600 := by
  have h := refund_equals_charge_iff 42 ⟨1, [1, 2], "key", none, none, none⟩ 10 20 "cancel"
    [seatAt 1 10000, seatAt 2 10000] [⟨10000, by decide⟩, ⟨10000, by decide⟩] rfl
  exact h.2 (fun _ => by decide) 23600 (by decide +kernel)

/-- A seat for 199.99 rupees is charged 235.99 and refunded 235.98. -/
theorem refund_short_of_charge :
    ¬∀ (userId : ℤ) (request : PaymentRequest) (paymentRequestId orderId : ℕ)
        (idempotencyKey : String) (dbSeats : List SeatRow) (prices : List SeatPrice),
      dbSeats ≠ [] → dbSeats.map (·.price) = prices.map SeatPrice.decimal →
        ∀ charge, chargedPaise (dbSeats.map (·.price)) = some charge →
          refundedPaise (cancellationMessage
            (orderOf userId request paymentRequestId orderId dbSeats) userId idempotencyKey) =
              charge := by
  intro hall
  have hcharged : chargedPaise ([seatAt 1 19999].map (·.price)) = some 23599 := by decide +kernel
  have hequal := hall 42 ⟨1, [1], "key", none, none, none⟩ 10 20 "cancel" [seatAt 1 19999]
    [⟨19999, by decide⟩] (List.cons_ne_nil _ _) rfl 23599 hcharged
  exact absurd hequal (by decide +kernel)

end Payments
end Bookit
