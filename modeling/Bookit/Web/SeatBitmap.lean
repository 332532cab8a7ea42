import Bookit.Lib.BitField
import Bookit.Web.SeatMap
import Mathlib.Data.List.Induction

/-!
# Web.SeatBitmap — the bitmap of a schedule and its two decoders

Redis keeps two bits for each seat of a schedule, which the services write with `BITFIELD SET u2`.  The
http-server reads one seat of a snapshot of the string; the ws-server lists the seats of a snapshot that
are locked or booked.  Both shift the bits out of the bytes by themselves.
-/

namespace Bookit
namespace Web

open Lib

/-! ## The encoder -/

/-- The offset of a seat's field; a `usize` has room for it. -/
def seatBitOffset (seatId : ℤ) : Option ℕ :=
  if seatId < 0 then none else some (seatId.toNat * 2)

/-- `BITFIELD key SET u2 offset state`. -/
def setSeatState (seatId : ℤ) (state : SeatState) (bitmap : List UInt8) : List UInt8 :=
  match seatBitOffset seatId with
  | none => bitmap
  | some offset => BitField.setField 2 offset (stateBits state).toNat bitmap

/-! ## The decoder of the ws-server -/

def fromBitmap (value : UInt8) : SeatState :=
  if value = 0b01 then .locked else if value = 0b10 then .booked else .available

/-- `as i32`. -/
def asI32 (n : ℕ) : ℤ := (n : ℤ).bmod (2 ^ 32)

/-- The seat in one of the four slots of a byte, unless it is available. -/
def slotSnapshot (byteIndex : ℕ) (byte : UInt8) (slot : ℕ) : Option (ℤ × SeatState) :=
  let state := fromBitmap ((byte >>> UInt8.ofNat (6 - slot * 2)) &&& 0b11)
  if state = .available then none else some (asI32 (byteIndex * 4 + slot), state)

def bitmapSnapshots (bitmap : List UInt8) : List (ℤ × SeatState) :=
  bitmap.zipIdx.flatMap fun x => (List.range 4).filterMap (slotSnapshot x.2 x.1)

/-! ## Histories -/

/-- An `i32` that is not negative. -/
abbrev SeatId := { k : ℕ // k < 2 ^ 31 }

abbrev Write := SeatId × SeatState

/-- The string after the writes, from an empty value on. -/
def afterWrites (writes : List Write) : List UInt8 :=
  writes.foldl (fun bitmap w => setSeatState (w.1.val : ℤ) w.2 bitmap) []

/-- The state that was written last for a seat. -/
def lastWritten (writes : List Write) (seatId : ℤ) : Option SeatState :=
  writes.foldl (fun last w => if (w.1.val : ℤ) = seatId then some w.2 else last) none

section Fields

variable {writes : List Write} {w : Write} {bitmap : List UInt8} {seatId : ℤ} {state : SeatState} {k : ℕ}

theorem afterWrites_concat :
    afterWrites (writes ++ [w]) =
      BitField.setField 2 (w.1.val * 2) (stateBits w.2).toNat (afterWrites writes) := by
  unfold afterWrites
  rw [List.foldl_append]
  show setSeatState (w.1.val : ℤ) w.2 _ = _
  unfold setSeatState seatBitOffset
  rw [if_neg (Int.not_lt.2 (Int.natCast_nonneg _)), Int.toNat_natCast]

theorem lastWritten_concat :
    lastWritten (writes ++ [w]) seatId =
      if (w.1.val : ℤ) = seatId then some w.2 else lastWritten writes seatId := by
  unfold lastWritten
  rw [List.foldl_append]
  rfl

/-- No write is for a negative id. -/
theorem lastWritten_of_neg : seatId < 0 → lastWritten writes seatId = none := by
  intro hneg
  induction writes using List.reverseRecOn with
  | nil => rfl
  | append_singleton writes w ih =>
      rw [lastWritten_concat, if_neg (by omega)]
      exact ih

theorem stateBits_lt (state : SeatState) : (stateBits state).toNat % 2 ^ 2 = (stateBits state).toNat := by
  cases state <;> rfl

theorem stateBits_inj {state' : SeatState} :
    stateBits state = stateBits state' → state = state' := by
  cases state <;> cases state' <;> decide

/-- The field of a seat holds the state that was written last, and `00` before. -/
theorem field_afterWrites (k : ℕ) :
    BitField.field (afterWrites writes) 2 (k * 2) =
      (stateBits ((lastWritten writes k).getD .available)).toNat := by
  induction writes using List.reverseRecOn with
  | nil => simp [afterWrites, lastWritten, BitField.field, BitField.bit, BitField.byteBit, stateBits]
  | append_singleton writes w ih =>
      rw [afterWrites_concat, lastWritten_concat]
      by_cases hk : w.1.val = k
      · -- the field that is written
        rw [hk, if_pos rfl, BitField.field_setField_self]
        exact stateBits_lt w.2
      · -- a field of another seat begins two bits or more away
        rw [if_neg (by omega), BitField.field_setField_of_apart (by omega)]
        exact ih

theorem length_afterWrites_concat :
    (afterWrites (writes ++ [w])).length = max (afterWrites writes).length (w.1.val / 4 + 1) := by
  rw [afterWrites_concat, BitField.length_setField]
  congr 2
  omega

theorem length_afterWrites_le (writes : List Write) : (afterWrites writes).length ≤ 2 ^ 29 := by
  induction writes using List.reverseRecOn with
  | nil => exact Nat.zero_le _
  | append_singleton writes w ih =>
      rw [length_afterWrites_concat]
      have hid := w.1.property
      omega

/-- The string reaches to every seat that was written. -/
theorem lt_length_of_lastWritten :
    lastWritten writes k = some state → k / 4 < (afterWrites writes).length := by
  induction writes using List.reverseRecOn with
  | nil =>
      intro h
      cases h
  | append_singleton writes w ih =>
      intro h
      rw [length_afterWrites_concat]
      rw [lastWritten_concat] at h
      by_cases hk : (w.1.val : ℤ) = k
      · omega
      · rw [if_neg hk] at h
        have hlt := ih h
        omega

/-! ## The shifts of the decoders -/

/-- Two bits of a byte, shifted down to its end. -/
theorem fieldBits_toNat (byte : UInt8) (k : ℕ) :
    (fieldBits byte (k * 2)).toNat =
      2 * (BitField.byteBit byte (k * 2)).toNat + (BitField.byteBit byte (k * 2 + 1)).toNat := by
  have hhigh : 7 - k * 2 % 8 = 6 - k * 2 % 8 + 1 := by omega
  have hlow : 7 - (k * 2 + 1) % 8 = 6 - k * 2 % 8 := by omega
  have hshift : (6 - k * 2 % 8) % 8 = 6 - k * 2 % 8 := Nat.mod_eq_of_lt (by omega)
  have hbyte : (6 - k * 2 % 8) % 256 = 6 - k * 2 % 8 := Nat.mod_eq_of_lt (by omega)
  unfold fieldBits BitField.byteBit
  rw [hhigh, hlow]
  generalize 6 - k * 2 % 8 = i at hshift hbyte ⊢
  calc
    ((byte >>> UInt8.ofNat i) &&& 0b11).toNat
        = byte.toNat / 2 ^ i % 2 ^ 2 := by
          simp [hshift, hbyte, Nat.shiftRight_eq_div_pow]
          exact Nat.and_two_pow_sub_one_eq_mod _ 2
    _ = 2 * (byte.toNat / 2 ^ i / 2 % 2) + byte.toNat / 2 ^ i % 2 := by omega
    _ = 2 * (byte.toNat.testBit (i + 1)).toNat + (byte.toNat.testBit i).toNat := by
          rw [Nat.toNat_testBit, Nat.toNat_testBit, Nat.pow_succ, Nat.div_div_eq_div_mul]

/-- What the decoders shift out of the bytes is the field of the seat. -/
theorem fieldBits_afterWrites (writes : List Write) (k : ℕ) :
    fieldBits (((afterWrites writes)[k * 2 / 8]?).getD 0) (k * 2) =
      stateBits ((lastWritten writes k).getD .available) := by
  apply UInt8.toNat_inj.1
  have hbyte : (k * 2 + 1) / 8 = k * 2 / 8 := by omega
  calc
    (fieldBits (((afterWrites writes)[k * 2 / 8]?).getD 0) (k * 2)).toNat
        = BitField.field (afterWrites writes) 2 (k * 2) := by
          rw [fieldBits_toNat]
          simp [BitField.field, BitField.bit, hbyte]
    _ = (stateBits ((lastWritten writes k).getD .available)).toNat := field_afterWrites k

theorem fromBitmap_stateBits (state : SeatState) : fromBitmap (stateBits state) = state := by
  cases state <;> rfl

theorem fieldBits_text (state : SeatState) :
    (if stateBits state = 0b01 then "Locked" else if stateBits state = 0b10 then "Booked" else
      "Available") = stateText state := by
  cases state <;> rfl

/-- The status of a seat within the string. -/
theorem bitmapSeatStatus_afterWrites :
    bitmapSeatStatus (afterWrites writes) seatId =
      if seatId < 0 ∨ (afterWrites writes).length * 4 ≤ seatId then none
      else some (stateText ((lastWritten writes seatId).getD .available)) := by
  unfold bitmapSeatStatus
  by_cases hneg : seatId < 0
  · rw [if_pos hneg, if_pos (.inl hneg)]
  obtain ⟨k, rfl⟩ := Int.eq_ofNat_of_zero_le (Int.not_lt.1 hneg)
  rw [if_neg hneg, Int.toNat_natCast]
  have hfield := fieldBits_afterWrites writes k
  by_cases hlen : k * 2 / 8 < (afterWrites writes).length
  · rw [List.getElem?_eq_getElem hlen, Option.getD_some] at hfield
    have hwithin : ¬((k : ℤ) < 0 ∨ ((afterWrites writes).length : ℤ) * 4 ≤ k) := by omega
    rw [List.getElem?_eq_getElem hlen, Option.map_some, if_neg hwithin, hfield, fieldBits_text]
  · rw [List.getElem?_eq_none (by omega), if_pos (by omega)]
    rfl

/-! ## The list of the ws-server -/

theorem slotSnapshot_eq_some {i slot : ℕ} {byte : UInt8} :
    (afterWrites writes)[i]? = some byte → slot < 4 →
      (slotSnapshot i byte slot = some (seatId, state) ↔
        seatId = (i * 4 + slot : ℕ) ∧ state ≠ .available ∧
          lastWritten writes (i * 4 + slot : ℕ) = some state) := by
  intro hbyte hslot
  have hlen := (List.getElem?_eq_some_iff.1 hbyte).1
  have hle := length_afterWrites_le writes
  -- the cast to `i32` keeps the ids of a string of at most 2^29 bytes
  have hcast : asI32 (i * 4 + slot) = (i * 4 + slot : ℕ) := by
    unfold asI32
    apply Int.bmod_eq_of_le <;> omega
  have hfield := fieldBits_afterWrites writes (i * 4 + slot)
  rw [show (i * 4 + slot) * 2 / 8 = i by omega, hbyte, Option.getD_some, fieldBits,
    show (i * 4 + slot) * 2 % 8 = slot * 2 by omega] at hfield
  unfold slotSnapshot
  simp only [hfield, fromBitmap_stateBits, hcast]
  cases lastWritten writes (i * 4 + slot : ℕ) with
  | none => simp
  | some last =>
      by_cases hlast : last = .available
      · subst hlast
        simp
        intro _ hne heq
        exact hne heq.symm
      · simp [hlast]
        constructor
        · rintro ⟨rfl, rfl⟩
          exact ⟨rfl, hlast, rfl⟩
        · rintro ⟨rfl, -, rfl⟩
          exact ⟨rfl, rfl⟩

/-- The list has the seats whose last state is locked or booked. -/
theorem mem_bitmapSnapshots :
    (seatId, state) ∈ bitmapSnapshots (afterWrites writes) ↔
      state ≠ .available ∧ lastWritten writes seatId = some state := by
  unfold bitmapSnapshots
  simp only [List.mem_flatMap, List.mem_filterMap, List.mem_range, Prod.exists,
    List.mk_mem_zipIdx_iff_getElem?]
  constructor
  · rintro ⟨byte, i, hbyte, slot, hslot, hsome⟩
    obtain ⟨rfl, hstate, hlast⟩ := (slotSnapshot_eq_some hbyte hslot).1 hsome
    exact ⟨hstate, hlast⟩
  · rintro ⟨hstate, hlast⟩
    have hpos : 0 ≤ seatId := by
      by_contra hneg
      rw [lastWritten_of_neg (Int.not_le.1 hneg)] at hlast
      cases hlast
    obtain ⟨k, rfl⟩ := Int.eq_ofNat_of_zero_le hpos
    have hlen := lt_length_of_lastWritten hlast
    have hk : k / 4 * 4 + k % 4 = k := by omega
    refine ⟨_, k / 4, List.getElem?_eq_getElem hlen, k % 4, Nat.mod_lt _ (by decide), ?_⟩
    apply (slotSnapshot_eq_some (List.getElem?_eq_getElem hlen) (Nat.mod_lt _ (by decide))).2
    rw [hk]
    exact ⟨rfl, hstate, hlast⟩

/-- Each seat is listed once, in the order of the ids. -/
theorem pairwise_bitmapSnapshots :
    ((bitmapSnapshots (afterWrites writes)).map Prod.fst).Pairwise (· < ·) := by
  rw [List.pairwise_map]
  unfold bitmapSnapshots
  rw [List.pairwise_flatMap]
  constructor
  · -- within a byte, by slot
    rintro ⟨byte, i⟩ hbyte
    rw [List.mk_mem_zipIdx_iff_getElem?] at hbyte
    rw [List.pairwise_filterMap]
    apply List.Pairwise.imp_of_mem _ List.pairwise_lt_range
    intro slot slot' hslot hslot' hlt x hx y hy
    obtain ⟨hx, -⟩ := (slotSnapshot_eq_some hbyte (List.mem_range.1 hslot)).1 hx
    obtain ⟨hy, -⟩ := (slotSnapshot_eq_some hbyte (List.mem_range.1 hslot')).1 hy
    omega
  · -- from one byte to a later one
    have hindices : ((afterWrites writes).zipIdx.map Prod.snd).Pairwise (· < ·) := by
      rw [List.zipIdx_map_snd]
      exact List.pairwise_lt_range'
    apply List.Pairwise.imp_of_mem _ (List.pairwise_map.1 hindices)
    rintro ⟨byte, i⟩ ⟨byte', i'⟩ hbyte hbyte' hlt x hx y hy
    rw [List.mk_mem_zipIdx_iff_getElem?] at hbyte hbyte'
    obtain ⟨slot, hslot, hx⟩ := List.mem_filterMap.1 hx
    obtain ⟨slot', hslot', hy⟩ := List.mem_filterMap.1 hy
    obtain ⟨hx, -⟩ := (slotSnapshot_eq_some hbyte (List.mem_range.1 hslot)).1 hx
    obtain ⟨hy, -⟩ := (slotSnapshot_eq_some hbyte' (List.mem_range.1 hslot')).1 hy
    have hslot := List.mem_range.1 hslot
    have hlt : i < i' := hlt
    omega

end Fields

/-! ## Encoder and decoders -/

/-- What the decoders make of the string after the writes. -/
structure Decodes (writes : List Write) : Prop where
  /-- A seat that was written is shown with the state that was written last. -/
  written : ∀ (seatId : ℤ) (state : SeatState), lastWritten writes seatId = some state →
    bitmapSeatStatus (afterWrites writes) seatId = some (stateText state)
  /-- Another one is available within the string. -/
  unwritten : ∀ seatId : ℤ, lastWritten writes seatId = none → 0 ≤ seatId →
    seatId < (afterWrites writes).length * 4 →
      bitmapSeatStatus (afterWrites writes) seatId = some "Available"
  beyond : ∀ seatId : ℤ, seatId < 0 ∨ (afterWrites writes).length * 4 ≤ seatId →
    bitmapSeatStatus (afterWrites writes) seatId = none
  /-- A further write leaves the other seats as they are; the string may come to reach to them. -/
  others : ∀ (w : Write) (seatId : ℤ), seatId ≠ w.1.val →
    (∀ status, bitmapSeatStatus (afterWrites writes) seatId = some status →
      bitmapSeatStatus (afterWrites (writes ++ [w])) seatId = some status) ∧
    (bitmapSeatStatus (afterWrites writes) seatId = none →
      (bitmapSeatStatus (afterWrites (writes ++ [w])) seatId).getD "Available" = "Available") ∧
    ∀ state, (seatId, state) ∈ bitmapSnapshots (afterWrites (writes ++ [w])) ↔
      (seatId, state) ∈ bitmapSnapshots (afterWrites writes)
  /-- The list has the seats that are locked or booked, and no other. -/
  listed : ∀ (seatId : ℤ) (state : SeatState), (seatId, state) ∈ bitmapSnapshots (afterWrites writes) ↔
    state ≠ .available ∧ lastWritten writes seatId = some state
  ordered : ((bitmapSnapshots (afterWrites writes)).map Prod.fst).Pairwise (· < ·)

/-- Both decoders read what was written, whatever was written before and elsewhere. -/
theorem decoders_agree (writes : List Write) : Decodes writes := by
  have hwithin : ∀ seatId state, lastWritten writes seatId = some state →
      ¬(seatId < 0 ∨ ((afterWrites writes).length : ℤ) * 4 ≤ seatId) := by
    intro seatId state hlast hout
    have hpos : ¬seatId < 0 := by
      intro hneg
      rw [lastWritten_of_neg hneg] at hlast
      cases hlast
    obtain ⟨k, rfl⟩ := Int.eq_ofNat_of_zero_le (Int.not_lt.1 hpos)
    have hlt := lt_length_of_lastWritten hlast
    omega
  refine
    { written := ?_, unwritten := ?_, beyond := ?_, others := ?_
      listed := fun _ _ => mem_bitmapSnapshots, ordered := pairwise_bitmapSnapshots }
  · intro seatId state hlast
    rw [bitmapSeatStatus_afterWrites, if_neg (hwithin seatId state hlast), hlast]
    rfl
  · intro seatId hlast hpos hlt
    rw [bitmapSeatStatus_afterWrites, if_neg (by omega), hlast]
    rfl
  · intro seatId hout
    rw [bitmapSeatStatus_afterWrites, if_pos hout]
  · intro w seatId hne
    have hlast : lastWritten (writes ++ [w]) seatId = lastWritten writes seatId := by
      rw [lastWritten_concat, if_neg (Ne.symm hne)]
    have hlonger : (afterWrites writes).length ≤ (afterWrites (writes ++ [w])).length := by
      rw [length_afterWrites_concat]
      exact Nat.le_max_left _ _
    refine ⟨?_, ?_, fun state => ?_⟩
    · intro status hstatus
      rw [bitmapSeatStatus_afterWrites] at hstatus
      split_ifs at hstatus with hout
      rw [bitmapSeatStatus_afterWrites, if_neg (by omega), hlast]
      exact hstatus
    · intro hnone
      rw [bitmapSeatStatus_afterWrites] at hnone
      split_ifs at hnone with hout
      -- a seat that the string did not reach to has never been written
      have hfresh : lastWritten writes seatId = none := by
        cases hstate : lastWritten writes seatId with
        | none => rfl
        | some state => exact absurd hout (hwithin seatId state hstate)
      rw [bitmapSeatStatus_afterWrites, hlast, hfresh]
      split_ifs <;> rfl
    · rw [mem_bitmapSnapshots, mem_bitmapSnapshots, hlast]

end Web
end Bookit
