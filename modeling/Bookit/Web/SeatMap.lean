import Bookit.Payments.Store

/-!
# Web.SeatMap — the seat map of a schedule

`get_schedule_seats` shows each seat with the status of its field in a snapshot of the bitmap.  The
status of its row is shown only where the snapshot does not reach to the seat, or there is none.
-/

namespace Bookit
namespace Web

open Payments

/-! ## The handler -/

/-- The two bits of a seat in a byte string. -/
def fieldBits (byte : UInt8) (bitOffset : ℕ) : UInt8 :=
  (byte >>> UInt8.ofNat (6 - bitOffset % 8)) &&& 0b11

/-- The status of a seat in a snapshot of the bitmap; none where the snapshot is too short. -/
def bitmapSeatStatus (bitmap : List UInt8) (seatId : ℤ) : Option String :=
  if seatId < 0 then
    none
  else
    (bitmap[seatId.toNat * 2 / 8]?).map fun byte =>
      let state := fieldBits byte (seatId.toNat * 2)
      if state = 0b01 then "Locked" else if state = 0b10 then "Booked" else "Available"

def databaseStatus : SeatStatus → String
  | .available => "Available"
  | .locked => "Locked"
  | .booked => "Booked"

/-- A seat of the answer. -/
structure SeatView where
  id : ℤ
  scheduleId : ℤ
  price : ℚ
  status : String
  lockedByUserId : Option ℤ
  deriving DecidableEq

/-- The status that is shown for a row. -/
def statusStr (bitmap : Option (List UInt8)) (seat : SeatRow) : String :=
  (bitmap.bind fun snapshot => bitmapSeatStatus snapshot seat.id).getD (databaseStatus seat.status)

/-- The answer, from the rows, the snapshot and the lock keys, each lookup of which may fail. -/
def getScheduleSeats (id : ℤ) (seats : List SeatRow) (bitmap : Option (List UInt8))
    (seatLock : ℤ → Option ℤ) : List SeatView :=
  (seats.filter fun seat => decide (seat.scheduleId = id)).map fun seat =>
    { id := seat.id
      scheduleId := seat.scheduleId
      price := seat.price
      status := statusStr bitmap seat
      lockedByUserId := if statusStr bitmap seat = "Locked" then seatLock seat.id else none }

/-! ## Snapshots -/

def stateBits : SeatState → UInt8
  | .available => 0b00
  | .locked => 0b01
  | .booked => 0b10

def stateText : SeatState → String
  | .available => "Available"
  | .locked => "Locked"
  | .booked => "Booked"

/-- The string under a schedule's bitmap key; the fields beyond its end are `00`. -/
def Snapshot (bitmap : List UInt8) (s : Redis) (scheduleId : ℤ) : Prop :=
  ∀ k : ℕ, fieldBits ((bitmap[k * 2 / 8]?).getD 0) (k * 2) = stateBits (s.bitmap (scheduleId, k))

section Snapshot

variable {bitmap : List UInt8} {s : Redis} {scheduleId seatId : ℤ}

@[simp] theorem fieldBits_zero (bitOffset : ℕ) : fieldBits 0 bitOffset = 0 := by
  simp [fieldBits]

/-- A snapshot shows the state of a field, or it is too short and the field is `00`. -/
theorem bitmapSeatStatus_of_snapshot (h : Snapshot bitmap s scheduleId) (hpos : 0 ≤ seatId) :
    bitmapSeatStatus bitmap seatId = some (stateText (s.bitmap (scheduleId, seatId))) ∨
      (bitmapSeatStatus bitmap seatId = none ∧ s.bitmap (scheduleId, seatId) = .available) := by
  obtain ⟨k, rfl⟩ := Int.eq_ofNat_of_zero_le hpos
  have hfield := h k
  unfold bitmapSeatStatus
  rw [if_neg (not_lt.2 hpos), Int.toNat_natCast]
  cases hbyte : bitmap[k * 2 / 8]? with
  | none =>
      rw [hbyte, Option.getD_none, fieldBits_zero] at hfield
      refine .inr ⟨rfl, ?_⟩
      cases hstate : s.bitmap (scheduleId, (k : ℤ)) with
      | available => rfl
      | locked | booked =>
          rw [hstate] at hfield
          exact absurd hfield (by decide)
  | some byte =>
      rw [hbyte, Option.getD_some] at hfield
      refine .inl ?_
      rw [Option.map_some, hfield]
      cases s.bitmap (scheduleId, (k : ℤ)) with
      | available | locked | booked => rfl

/-- A seat whose row is available and whose field is `00` is shown as available, whether the lookup
of the bitmap answers or not. -/
theorem statusStr_of_available {bitmap : Option (List UInt8)} {seat : SeatRow}
    (h : ∀ snapshot ∈ bitmap, Snapshot snapshot s scheduleId) (hrow : seat.status = .available)
    (hfield : s.bitmap (scheduleId, seat.id) = .available) :
    statusStr bitmap seat = "Available" := by
  have hdatabase : databaseStatus seat.status = "Available" := by rw [hrow]; rfl
  unfold statusStr
  cases bitmap with
  | none => exact hdatabase
  | some snapshot =>
      rw [Option.bind_some]
      by_cases hpos : 0 ≤ seat.id
      · rcases bitmapSeatStatus_of_snapshot (h snapshot rfl) hpos with heq | ⟨heq, -⟩
        · rw [heq, hfield]
          rfl
        · rw [heq]
          exact hdatabase
      · rw [bitmapSeatStatus, if_pos (not_le.1 hpos)]
        exact hdatabase

/-- A field that is not `00` is shown whatever the row says. -/
theorem statusStr_of_field {seat : SeatRow} (h : Snapshot bitmap s scheduleId) (hpos : 0 ≤ seat.id)
    (hfield : s.bitmap (scheduleId, seat.id) ≠ .available) :
    statusStr (some bitmap) seat = stateText (s.bitmap (scheduleId, seat.id)) := by
  rcases bitmapSeatStatus_of_snapshot h hpos with heq | ⟨-, heq⟩
  · rw [statusStr, Option.bind_some, heq]
    rfl
  · exact absurd heq hfield

end Snapshot

end Web
end Bookit
