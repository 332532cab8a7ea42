import Bookit.Web.SeatBitmap
import Mathlib.Data.List.Forall2

/-!
# Web.SoldSeats — which sold seats the seat map shows as booked

The seat map prefers the field of a seat to its row wherever the string has a byte for it, whoever wrote
that byte: a write for a seat nearby, or for one with a higher id, is enough.  A sold seat whose own
field was not written, or was lost, is then offered as available.
-/

namespace Bookit
namespace Web

open Lib Payments

/-! ## The bitmap key over time -/

/-- What happens to a bitmap key: a write, or the loss of the key. -/
inductive BitmapEvent where
  | write (w : Write)
  | loss
  deriving DecidableEq

/-- The writes since the last loss. -/
def sinceLoss (history : List BitmapEvent) : List Write :=
  history.foldl (fun writes event =>
    match event with
    | .write w => writes ++ [w]
    | .loss => []) []

/-- The value of the key, which the first write creates. -/
def bitmapKey (history : List BitmapEvent) : Option (List UInt8) :=
  history.foldl (fun key event =>
    match event with
    | .write w => some (setSeatState (w.1.val : ℤ) w.2 (key.getD []))
    | .loss => none) none

section Key

variable {history : List BitmapEvent} {writes : List Write} {seatId : ℤ}

@[simp] theorem sinceLoss_write {w : Write} :
    sinceLoss (history ++ [.write w]) = sinceLoss history ++ [w] := by
  unfold sinceLoss
  rw [List.foldl_append]
  rfl

@[simp] theorem sinceLoss_loss : sinceLoss (history ++ [.loss]) = [] := by
  unfold sinceLoss
  rw [List.foldl_append]
  rfl

@[simp] theorem bitmapKey_write {w : Write} :
    bitmapKey (history ++ [.write w]) =
      some (setSeatState (w.1.val : ℤ) w.2 ((bitmapKey history).getD [])) := by
  unfold bitmapKey
  rw [List.foldl_append]
  rfl

@[simp] theorem bitmapKey_loss : bitmapKey (history ++ [.loss]) = none := by
  unfold bitmapKey
  rw [List.foldl_append]
  rfl

/-- The key holds what was written since it was lost, where anything was. -/
theorem bitmapKey_eq :
    bitmapKey history =
      if sinceLoss history = [] then none else some (afterWrites (sinceLoss history)) := by
  induction history using List.reverseRecOn with
  | nil => rfl
  | append_singleton history event ih =>
      cases event with
      | loss => rw [bitmapKey_loss, sinceLoss_loss, if_pos rfl]
      | write w =>
          have hkey : (bitmapKey history).getD [] = afterWrites (sinceLoss history) := by
            rw [ih]
            split_ifs with hnil
            · rw [hnil]
              rfl
            · rfl
          rw [bitmapKey_write, sinceLoss_write, hkey, if_neg (by simp)]
          unfold afterWrites
          rw [List.foldl_append]
          rfl

/-- The string reaches to a seat where a write was for its byte or a later one. -/
theorem lt_length_afterWrites (writes : List Write) (seatId : ℤ) :
    seatId < (afterWrites writes).length * 4 ↔
      seatId < 0 ∨ ∃ w ∈ writes, seatId / 4 ≤ (w.1.val : ℤ) / 4 := by
  induction writes using List.reverseRecOn with
  | nil => simp [afterWrites]
  | append_singleton writes w ih =>
      rw [length_afterWrites_concat]
      simp only [List.mem_append, List.mem_singleton, or_and_right, exists_or, exists_eq_left]
      constructor
      · intro hlt
        by_cases hlong : seatId < (afterWrites writes).length * 4
        · rcases ih.1 hlong with hneg | hold
          · exact .inl hneg
          · exact .inr (.inl hold)
        · right
          right
          omega
      · rintro (hneg | hold | hnew)
        · omega
        · have hlong := ih.2 (.inr hold)
          omega
        · omega

end Key

/-! ## Sold seats -/

/-- Every row that is booked is shown as booked; the answer has a seat for each row, in order. -/
def ShowsSold (id : ℤ) (seats : List SeatRow) (views : List SeatView) : Prop :=
  List.Forall₂ (fun seat view => seat.status = .booked → view.status = "Booked")
    (seats.filter fun seat => decide (seat.scheduleId = id)) views

/-- Since the last loss, the last write for the seat was that it is booked, or no write was for the byte
of the seat or a later one. -/
def KeptBooked (history : List BitmapEvent) (seatId : ℤ) : Prop :=
  lastWritten (sinceLoss history) seatId = some .booked ∨
    seatId < 0 ∨ ∀ w ∈ sinceLoss history, (w.1.val : ℤ) / 4 < seatId / 4

/-- The snapshot that the handler reads; the lookup fails where it is not answered. -/
def snapshot (answered : Bool) (history : List BitmapEvent) : Option (List UInt8) :=
  if answered then bitmapKey history else none

section Sold

variable {history : List BitmapEvent} {seat : SeatRow} {answered : Bool}

/-- A sold seat is shown by the text of the last write, where the string reaches to it. -/
theorem statusStr_of_booked :
    seat.status = .booked →
      (statusStr (snapshot answered history) seat = "Booked" ↔
        (answered = true → KeptBooked history seat.id)) := by
  intro hbooked
  have hdatabase : databaseStatus seat.status = "Booked" := by
    rw [hbooked]
    rfl
  unfold statusStr snapshot
  cases answered with
  | false => simp [hdatabase]
  | true =>
      simp only [if_true, true_implies, bitmapKey_eq]
      by_cases hnil : sinceLoss history = []
      · -- there is no key: the row decides, and nothing was written
        rw [if_pos hnil]
        unfold KeptBooked
        simp [hnil, hdatabase]
      rw [if_neg hnil, Option.bind_some, bitmapSeatStatus_afterWrites]
      have hreach := lt_length_afterWrites (sinceLoss history) seat.id
      by_cases hout : seat.id < 0 ∨ ((afterWrites (sinceLoss history)).length : ℤ) * 4 ≤ seat.id
      · -- the string does not reach to the seat
        rw [if_pos hout, Option.getD_none]
        refine ⟨fun _ => .inr ?_, fun _ => hdatabase⟩
        by_cases hneg : seat.id < 0
        · exact .inl hneg
        · right
          intro w hw
          by_contra hle
          have hlt := hreach.2 (.inr ⟨w, hw, Int.not_lt.1 hle⟩)
          omega
      · rw [if_neg hout, Option.getD_some]
        have hreached := hreach.1 (by omega)
        have hnot : ¬(seat.id < 0 ∨ ∀ w ∈ sinceLoss history, (w.1.val : ℤ) / 4 < seat.id / 4) := by
          rintro (hneg | hall)
          · omega
          · rcases hreached with hneg | ⟨w, hw, hle⟩
            · omega
            · have hlt := hall w hw
              omega
        constructor
        · intro htext
          left
          cases hlast : lastWritten (sinceLoss history) seat.id with
          | none =>
              rw [hlast] at htext
              exact absurd htext (by decide)
          | some state =>
              rw [hlast] at htext
              cases state with
              | booked => rfl
              | available | locked => exact absurd htext (by decide)
        · rintro (hlast | hrest)
          · rw [hlast]
            rfl
          · exact absurd hrest hnot

/-- The seat map shows every sold seat as booked if and only if it could not read the bitmap, or the
field of each of them was kept. -/
theorem showsSold_iff (id : ℤ) (seats : List SeatRow) (history : List BitmapEvent) (answered : Bool)
    (seatLock : ℤ → Option ℤ) :
    ShowsSold id seats (getScheduleSeats id seats (snapshot answered history) seatLock) ↔
      (answered = true → ∀ seat ∈ seats, seat.scheduleId = id → seat.status = .booked →
        KeptBooked history seat.id) := by
  unfold ShowsSold getScheduleSeats
  rw [List.forall₂_map_right_iff, List.forall₂_same]
  constructor
  · intro hshows hanswered seat hseat hschedule hbooked
    have hrow : seat ∈ seats.filter fun seat => decide (seat.scheduleId = id) :=
      List.mem_filter.2 ⟨hseat, decide_eq_true hschedule⟩
    exact (statusStr_of_booked hbooked).1 (hshows seat hrow hbooked) hanswered
  · intro hkept seat hrow hbooked
    obtain ⟨hseat, hschedule⟩ := List.mem_filter.1 hrow
    apply (statusStr_of_booked hbooked).2
    intro hanswered
    exact hkept hanswered seat hseat (of_decide_eq_true hschedule) hbooked

/-- Seat 5 was booked before the bitmap was lost, and seat 4 is locked afterwards. -/
def lostBitmap : List BitmapEvent :=
  [.write (⟨5, by decide⟩, .booked), .loss, .write (⟨4, by decide⟩, .locked)]

theorem sold_seat_offered :
    getScheduleSeats 1 [⟨5, 1, 100, .booked⟩] (snapshot true lostBitmap) (fun _ => none) =
        [⟨5, 1, 100, "Available", none⟩] ∧
      ¬ShowsSold 1 [⟨5, 1, 100, .booked⟩]
        (getScheduleSeats 1 [⟨5, 1, 100, .booked⟩] (snapshot true lostBitmap) fun _ => none) := by
  have hviews : getScheduleSeats 1 [⟨5, 1, 100, .booked⟩] (snapshot true lostBitmap) (fun _ => none) =
      [⟨5, 1, 100, "Available", none⟩] := by
    decide +kernel
  refine ⟨hviews, ?_⟩
  rw [hviews]
  intro hshows
  have hbooked : "Available" = "Booked" := (List.forall₂_cons.1 hshows).1 rfl
  exact absurd hbooked (by decide)

end Sold

end Web
end Bookit
