import Mathlib.Data.Nat.Bitwise
import Mathlib.Data.List.Basic

/-!
# BitField — unsigned fields in a byte string

The bits of a byte string are numbered from the most significant bit of its first byte on; those beyond
its end are zero, and writing one of them pads the string with zero bytes.

* `bit`, `setBit` — a bit, and a write of one;
* `field`, `setField` — an unsigned field of any width at any offset, and a write of one;
* `field_setField_self`, `field_setField_of_apart` — a field after a write of it, or of one apart.
-/

namespace Bookit
namespace Lib
namespace BitField

/-! ## Bits of a byte -/

/-- The bit of a byte that holds position `n` of a string. -/
def byteBit (byte : UInt8) (n : ℕ) : Bool :=
  byte.toBitVec.getLsbD (7 - n % 8)

def setByteBit (n : ℕ) (b : Bool) (byte : UInt8) : UInt8 :=
  let mask : UInt8 := 1 <<< UInt8.ofNat (7 - n % 8)
  if b then byte ||| mask else byte &&& ~~~mask

theorem byteBit_setByteBit (byte : UInt8) (n m : ℕ) (b : Bool) :
    byteBit (setByteBit n b byte) m = if m % 8 = n % 8 then b else byteBit byte m := by
  have hn : (7 - n % 8) % 8 = 7 - n % 8 := Nat.mod_eq_of_lt (by omega)
  have hm : 7 - m % 8 < 8 := by omega
  have hsame : m % 8 = n % 8 ↔ 7 - m % 8 = 7 - n % 8 := by omega
  unfold byteBit setByteBit
  generalize 7 - n % 8 = i at hn hsame ⊢
  generalize 7 - m % 8 = j at hm hsame ⊢
  have hi : i % 256 = i := by omega
  cases b with
  | true =>
      simp [hn, hi, hm, hsame]
      grind
  | false =>
      simp [hn, hi, hm, hsame]
      grind

/-! ## Bits of a string -/

def bit (bytes : List UInt8) (n : ℕ) : Bool :=
  byteBit ((bytes[n / 8]?).getD 0) n

/-- The string with zero bytes behind it, up to position `n`. -/
def padTo (n : ℕ) (bytes : List UInt8) : List UInt8 :=
  bytes ++ List.replicate (n / 8 + 1 - bytes.length) 0

def setBit (bytes : List UInt8) (n : ℕ) (b : Bool) : List UInt8 :=
  (padTo n bytes).modify (n / 8) (setByteBit n b)

section Bits

variable {bytes : List UInt8} {n m : ℕ} {b : Bool}

theorem length_padTo : (padTo n bytes).length = max bytes.length (n / 8 + 1) := by
  rw [padTo, List.length_append, List.length_replicate]
  omega

@[simp] theorem length_setBit : (setBit bytes n b).length = max bytes.length (n / 8 + 1) := by
  rw [setBit, List.length_modify, length_padTo]

/-- The padding reads as what was beyond the end. -/
theorem getD_padTo (bytes : List UInt8) (n i : ℕ) : ((padTo n bytes)[i]?).getD 0 = (bytes[i]?).getD 0 := by
  unfold padTo
  rw [List.getElem?_append]
  split_ifs with hi
  · rfl
  · rw [List.getElem?_replicate, List.getElem?_eq_none (Nat.not_lt.1 hi)]
    split_ifs <;> rfl

/-- A bit after a write of a bit. -/
theorem bit_setBit : bit (setBit bytes n b) m = if m = n then b else bit bytes m := by
  unfold bit setBit
  rw [List.getElem?_modify]
  have hsame : m = n ↔ n / 8 = m / 8 ∧ m % 8 = n % 8 := by omega
  by_cases hbyte : n / 8 = m / 8
  · have hlen : m / 8 < (padTo n bytes).length := by
      rw [length_padTo]
      omega
    have hget := getD_padTo bytes n (m / 8)
    rw [List.getElem?_eq_getElem hlen, Option.getD_some] at hget
    rw [List.getElem?_eq_getElem hlen]
    simp only [hbyte, if_true, Option.map_eq_map, Option.map_some, Option.getD_some]
    rw [byteBit_setByteBit, hget]
    simp only [hsame, hbyte, true_and]
  · simp only [hbyte, if_false, Option.map_eq_map, Option.map_id']
    rw [getD_padTo, if_neg fun heq => hbyte (hsame.1 heq).1]

end Bits

/-! ## Fields -/

/-- The unsigned field of the width at an offset, its first bit the most significant one. -/
def field (bytes : List UInt8) : ℕ → ℕ → ℕ
  | 0, _ => 0
  | width + 1, offset => 2 ^ width * (bit bytes offset).toNat + field bytes width (offset + 1)

/-- A write of the low bits of a value. -/
def setField : ℕ → ℕ → ℕ → List UInt8 → List UInt8
  | 0, _, _, bytes => bytes
  | width + 1, offset, value, bytes =>
      setField width (offset + 1) value (setBit bytes offset (value.testBit width))

section Fields

variable {bytes bytes' : List UInt8} {width width' offset offset' value n : ℕ}

/-- Bits outside a field stay as they are when it is written. -/
theorem bit_setField_of_apart :
    n < offset ∨ offset + width ≤ n → bit (setField width offset value bytes) n = bit bytes n := by
  induction width generalizing offset bytes with
  | zero =>
      intro _
      rfl
  | succ width ih =>
      intro hapart
      calc
        bit (setField (width + 1) offset value bytes) n
            = bit (setBit bytes offset (value.testBit width)) n := ih (by omega)
        _ = bit bytes n := by rw [bit_setBit, if_neg (by omega)]

theorem length_setField :
    (setField (width + 1) offset value bytes).length =
      max bytes.length ((offset + width) / 8 + 1) := by
  induction width generalizing offset bytes with
  | zero => exact length_setBit
  | succ width ih =>
      rw [setField, ih, length_setBit]
      have hle : offset / 8 ≤ (offset + 1 + width) / 8 := Nat.div_le_div_right (by omega)
      rw [show offset + (width + 1) = offset + 1 + width by omega]
      omega

/-- A field is made of its own bits. -/
theorem field_congr :
    (∀ i, offset ≤ i → i < offset + width → bit bytes i = bit bytes' i) →
      field bytes width offset = field bytes' width offset := by
  induction width generalizing offset with
  | zero =>
      intro _
      rfl
  | succ width ih =>
      intro hbits
      unfold field
      rw [hbits offset (Nat.le_refl _) (by omega), ih fun i hlo hhi => hbits i (by omega) (by omega)]

/-- The low bits of a value, the highest of them first. -/
theorem mod_two_pow_succ_eq (value width : ℕ) :
    value % 2 ^ (width + 1) = 2 ^ width * (value.testBit width).toNat + value % 2 ^ width := by
  have htestBit : (value.testBit width).toNat = value / 2 ^ width % 2 := Nat.toNat_testBit ..
  rw [htestBit, Nat.pow_succ, Nat.mod_mul, Nat.add_comm]

theorem field_setField_self :
    field (setField width offset value bytes) width offset = value % 2 ^ width := by
  induction width generalizing offset bytes with
  | zero => exact (Nat.mod_one value).symm
  | succ width ih =>
      -- the first bit is written first, and the rest of the field is apart from it
      have hfirst : bit (setField (width + 1) offset value bytes) offset = value.testBit width := by
        calc
          bit (setField (width + 1) offset value bytes) offset
              = bit (setBit bytes offset (value.testBit width)) offset :=
            bit_setField_of_apart (.inl (Nat.lt_succ_self _))
          _ = value.testBit width := by rw [bit_setBit, if_pos rfl]
      have hrest : field (setField (width + 1) offset value bytes) width (offset + 1) =
          value % 2 ^ width := ih
      rw [field, hfirst, hrest, mod_two_pow_succ_eq]

theorem field_setField_of_apart :
    offset + width ≤ offset' ∨ offset' + width' ≤ offset →
      field (setField width offset value bytes) width' offset' = field bytes width' offset' := by
  intro hapart
  apply field_congr
  intro i hlo hhi
  exact bit_setField_of_apart (by omega)

end Fields

end BitField
end Lib
end Bookit
