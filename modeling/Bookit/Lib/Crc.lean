import Mathlib.Algebra.Field.ZMod
import Mathlib.Logic.Function.Iterate
import Mathlib.RingTheory.AdjoinRoot

/-!
# Crc — checksums as remainders

A word of `w` bits is a polynomial of degree below `w` over the field of two elements, and a message
one with its first bit at the highest power.  A register that shifts its bits out, and subtracts a
generator for each one that falls out, computes a remainder.

* `toPoly`, `ofBits` — the polynomials of a word and of a string of bits;
* `shift`, `feed`, `crc` — the register: one bit, one word, and all words of a message;
* `toPoly_crc` — the register ends with the remainder of the message times `X ^ w`;
* `crc_xor` — so it is linear on messages of one length.
-/

namespace Bookit
namespace Lib
namespace Crc

open Polynomial

variable {w k : ℕ}

/-! ## Bits -/

def bit (b : Bool) : ZMod 2 := if b then 1 else 0

theorem bit_xor (a b : Bool) : bit (a ^^ b) = bit a + bit b := by
  cases a <;> cases b <;> decide

theorem bit_injective {a b : Bool} (h : bit a = bit b) : a = b := by
  revert h
  cases a <;> cases b <;> decide

/-! ## Words -/

/-- Bit `i` is the coefficient of `X ^ i`. -/
noncomputable def toPoly (v : BitVec w) : (ZMod 2)[X] :=
  ∑ i ∈ Finset.range w, C (bit (v.getLsbD i)) * X ^ i

theorem coeff_toPoly (v : BitVec w) (i : ℕ) : (toPoly v).coeff i = bit (v.getLsbD i) := by
  unfold toPoly
  simp only [finsetSum_coeff, coeff_C_mul_X_pow, Finset.sum_ite_eq, Finset.mem_range]
  split_ifs with hi
  · rfl
  · rw [BitVec.getLsbD_of_ge v i (Nat.le_of_not_lt hi)]
    rfl

theorem toPoly_zero : toPoly (0#w) = 0 := by
  ext i
  rw [coeff_toPoly, BitVec.getLsbD_zero, coeff_zero]
  rfl

theorem toPoly_injective {u v : BitVec w} (h : toPoly u = toPoly v) : u = v := by
  apply BitVec.eq_of_getLsbD_eq
  intro i _
  apply bit_injective
  rw [← coeff_toPoly, ← coeff_toPoly, h]

/-- There is no carry. -/
theorem toPoly_xor (u v : BitVec w) : toPoly (u ^^^ v) = toPoly u + toPoly v := by
  ext i
  rw [coeff_add, coeff_toPoly, coeff_toPoly, coeff_toPoly, BitVec.getLsbD_xor, bit_xor]

theorem degree_toPoly_lt (v : BitVec w) : (toPoly v).degree < w := by
  apply (degree_lt_iff_coeff_zero _ _).2
  intro i hi
  rw [coeff_toPoly, BitVec.getLsbD_of_ge v i hi]
  rfl

/-- A shift by one place drops the highest bit. -/
theorem X_mul_toPoly (v : BitVec w) :
    X * toPoly v = toPoly (v <<< 1) + C (bit v.msb) * X ^ w := by
  ext i
  rw [coeff_add, coeff_toPoly, coeff_C_mul_X_pow, BitVec.getLsbD_shiftLeft]
  rcases lt_trichotomy i w with hlt | rfl | hgt
  · -- the bit below moves up
    rw [if_neg (Nat.ne_of_lt hlt), add_zero]
    cases i with
    | zero =>
        rw [coeff_X_mul_zero]
        simp [bit]
    | succ i =>
        rw [coeff_X_mul, coeff_toPoly]
        simp [hlt]
  · rw [if_pos rfl, BitVec.msb_eq_getLsbD_last]
    cases i with
    | zero =>
        rw [coeff_X_mul_zero]
        simp [bit]
    | succ i =>
        rw [coeff_X_mul, coeff_toPoly]
        simp [bit]
  · rw [if_neg (Nat.ne_of_gt hgt), add_zero]
    cases i with
    | zero => exact absurd hgt (Nat.not_lt_zero w)
    | succ i =>
        rw [coeff_X_mul, coeff_toPoly, BitVec.getLsbD_of_ge v i (Nat.le_of_lt_succ hgt)]
        simp [Nat.not_lt_of_lt hgt]

/-- A word in the highest places of a longer one. -/
theorem toPoly_shiftLeft (hk : k ≤ w) (v : BitVec k) :
    toPoly (v.setWidth w <<< (w - k)) = X ^ (w - k) * toPoly v := by
  ext i
  rw [coeff_toPoly, coeff_X_pow_mul', coeff_toPoly, BitVec.getLsbD_shiftLeft,
    BitVec.getLsbD_setWidth]
  split_ifs with hi
  · by_cases hlt : i < w
    · have hsub : i - (w - k) < w := Nat.lt_of_le_of_lt (Nat.sub_le _ _) hlt
      simp [hlt, hsub, Nat.not_lt.2 hi]
    · have hge : k ≤ i - (w - k) := by omega
      simp [hlt, BitVec.getLsbD_of_ge v _ hge]
  · simp [Nat.lt_of_not_le hi]
    rfl

/-! ## Strings of bits -/

/-- The first bit is the coefficient of the highest power. -/
noncomputable def ofBits (bits : List Bool) : (ZMod 2)[X] :=
  bits.foldl (fun m b => m * X + C (bit b)) 0

theorem ofBits_concat (bits : List Bool) (b : Bool) :
    ofBits (bits ++ [b]) = ofBits bits * X + C (bit b) := by
  unfold ofBits
  rw [List.foldl_append]
  rfl

theorem coeff_ofBits (bits : List Bool) (i : ℕ) :
    (ofBits bits).coeff i = bit (bits.reverse.getD i false) := by
  induction bits using List.reverseRecOn generalizing i with
  | nil => rfl
  | append_singleton bits b ih =>
      rw [ofBits_concat, List.reverse_append, coeff_add]
      cases i with
      | zero =>
          rw [coeff_mul_X_zero, coeff_C_zero, zero_add]
          rfl
      | succ i =>
          rw [coeff_mul_X, coeff_C_succ, add_zero, ih]
          rfl

theorem ofBits_append (as bs : List Bool) :
    ofBits (as ++ bs) = ofBits as * X ^ bs.length + ofBits bs := by
  induction bs using List.reverseRecOn with
  | nil =>
      rw [List.append_nil, List.length_nil, pow_zero, mul_one]
      exact (add_zero _).symm
  | append_singleton bs b ih =>
      rw [← List.append_assoc, ofBits_concat, ofBits_concat, ih, List.length_append,
        List.length_singleton]
      ring

/-- The bits of a word, the highest first. -/
def bitsOf (v : BitVec k) : List Bool :=
  List.ofFn fun i : Fin k => v.getMsbD i

theorem length_bitsOf (v : BitVec k) : (bitsOf v).length = k :=
  List.length_ofFn

theorem ofBits_bitsOf (v : BitVec k) : ofBits (bitsOf v) = toPoly v := by
  ext i
  rw [coeff_ofBits, coeff_toPoly]
  congr 1
  rw [List.getD_eq_getElem?_getD, BitVec.getLsbD_eq_getMsbD]
  by_cases hi : i < k
  · have hlt : k - 1 - i < k := by omega
    rw [List.getElem?_reverse (by rw [length_bitsOf]; exact hi), length_bitsOf, bitsOf,
      List.getElem?_ofFn, dif_pos hlt]
    simp [hi]
  · rw [List.getElem?_eq_none (by rw [List.length_reverse, length_bitsOf]; exact Nat.le_of_not_lt hi)]
    simp [hi]

/-- The bits of a message, word by word. -/
def message (data : List (BitVec k)) : List Bool :=
  data.flatMap bitsOf

theorem ofBits_message_concat (data : List (BitVec k)) (v : BitVec k) :
    ofBits (message (data ++ [v])) = ofBits (message data) * X ^ k + toPoly v := by
  have hbits : message (data ++ [v]) = message data ++ bitsOf v := by
    unfold message
    rw [List.flatMap_append, List.flatMap_singleton]
  rw [hbits, ofBits_append, length_bitsOf, ofBits_bitsOf]

theorem ofBits_message_cons (v : BitVec k) (data : List (BitVec k)) :
    ofBits (message (v :: data)) =
      toPoly v * X ^ (message data).length + ofBits (message data) := by
  have hbits : message (v :: data) = bitsOf v ++ message data := rfl
  rw [hbits, ofBits_append, ofBits_bitsOf]

theorem length_message (data : List (BitVec k)) : (message data).length = data.length * k := by
  unfold message
  rw [List.length_flatMap, List.map_congr_left fun v _ => length_bitsOf v]
  simp

/-- Messages of one length are added bit by bit. -/
theorem ofBits_message_xor {a b : List (BitVec k)} (h : a.length = b.length) :
    ofBits (message (List.zipWith (· ^^^ ·) a b)) = ofBits (message a) + ofBits (message b) := by
  induction a generalizing b with
  | nil =>
      obtain rfl : b = [] := List.eq_nil_of_length_eq_zero h.symm
      exact (add_zero _).symm
  | cons u a ih =>
      cases b with
      | nil => cases h
      | cons v b =>
          have hlength : a.length = b.length := Nat.succ.inj h
          have hzip : (List.zipWith (· ^^^ ·) a b).length = b.length := by
            rw [List.length_zipWith, hlength, Nat.min_self]
          rw [List.zipWith_cons_cons, ofBits_message_cons, ofBits_message_cons,
            ofBits_message_cons, ih hlength, toPoly_xor, length_message, length_message,
            length_message, hzip, hlength]
          ring

/-! ## The register -/

/-- One bit out; where it is set, the generator is subtracted. -/
def shift (p c : BitVec w) : BitVec w :=
  if c.msb then (c <<< 1) ^^^ p else c <<< 1

/-- One word in, at the highest places, and as many bits out. -/
def feed (p c : BitVec w) (v : BitVec k) : BitVec w :=
  (shift p)^[k] (c ^^^ (v.setWidth w <<< (w - k)))

def crc (p : BitVec w) (data : List (BitVec k)) : BitVec w :=
  data.foldl (feed p) 0

/-- The generator whose lower part is the word. -/
noncomputable def generator (p : BitVec w) : (ZMod 2)[X] :=
  X ^ w + toPoly p

theorem monic_generator (p : BitVec w) : (generator p).Monic :=
  monic_X_pow_add (degree_toPoly_lt p)

theorem degree_generator (p : BitVec w) : (generator p).degree = w := by
  unfold generator
  rw [degree_add_eq_left_of_degree_lt, degree_X_pow]
  rw [degree_X_pow]
  exact degree_toPoly_lt p

/-! ## Residues -/

section Residues

variable (p : BitVec w)

/-- The class of a polynomial modulo the generator. -/
noncomputable abbrev residue : (ZMod 2)[X] →+* AdjoinRoot (generator p) :=
  AdjoinRoot.mk (generator p)

theorem residue_X_pow : residue p (X ^ w) = residue p (toPoly p) := by
  have hzero : residue p (X ^ w + toPoly p) = 0 := AdjoinRoot.mk_self
  have hneg : -toPoly p = toPoly p := CharTwo.neg_eq _
  calc residue p (X ^ w) = residue p (X ^ w + toPoly p + -toPoly p) := by
        rw [add_neg_cancel_right]
    _ = residue p (toPoly p) := by rw [map_add, hzero, zero_add, hneg]

theorem residue_shift (c : BitVec w) :
    residue p (toPoly (shift p c)) = residue p X * residue p (toPoly c) := by
  rw [← map_mul, X_mul_toPoly]
  unfold shift
  cases c.msb with
  | false => simp [bit]
  | true =>
      rw [if_pos rfl, toPoly_xor, map_add, map_add, map_mul, residue_X_pow]
      simp [bit]

theorem residue_shifts (n : ℕ) (c : BitVec w) :
    residue p (toPoly ((shift p)^[n] c)) = residue p X ^ n * residue p (toPoly c) := by
  induction n with
  | zero => rw [Function.iterate_zero_apply, pow_zero, one_mul]
  | succ n ih => rw [Function.iterate_succ_apply', residue_shift, ih, pow_succ', mul_assoc]

theorem residue_feed (hk : k ≤ w) (c : BitVec w) (v : BitVec k) :
    residue p (toPoly (feed p c v)) =
      residue p X ^ k * residue p (toPoly c) + residue p X ^ w * residue p (toPoly v) := by
  have hpow : residue p X ^ k * residue p X ^ (w - k) = residue p X ^ w := by
    rw [← pow_add, Nat.add_sub_cancel' hk]
  unfold feed
  rw [residue_shifts, toPoly_xor, toPoly_shiftLeft hk, map_add, map_mul, map_pow, ← hpow]
  ring

/-- The register holds the message so far, times `X ^ w`. -/
theorem residue_crc (hk : k ≤ w) (data : List (BitVec k)) :
    residue p (toPoly (crc p data)) = residue p (ofBits (message data) * X ^ w) := by
  induction data using List.reverseRecOn with
  | nil =>
      have hzero : toPoly (crc p ([] : List (BitVec k))) = 0 := toPoly_zero
      have hnone : ofBits (message ([] : List (BitVec k))) = 0 := rfl
      rw [hzero, hnone, zero_mul]
  | append_singleton data v ih =>
      have hstep : crc p (data ++ [v]) = feed p (crc p data) v := by
        unfold crc
        rw [List.foldl_append]
        rfl
      rw [hstep, residue_feed p hk, ih, ofBits_message_concat]
      simp only [map_mul, map_add, map_pow]
      ring

end Residues

/-- The register ends with the remainder. -/
theorem toPoly_crc (p : BitVec w) (hk : k ≤ w) (data : List (BitVec k)) :
    toPoly (crc p data) = (ofBits (message data) * X ^ w) %ₘ generator p := by
  have hdvd : generator p ∣ toPoly (crc p data) - ofBits (message data) * X ^ w :=
    AdjoinRoot.mk_eq_mk.1 (residue_crc p hk data)
  calc toPoly (crc p data) = toPoly (crc p data) %ₘ generator p := by
        apply Eq.symm
        apply (modByMonic_eq_self_iff (monic_generator p)).2
        rw [degree_generator]
        exact degree_toPoly_lt _
    _ = (ofBits (message data) * X ^ w) %ₘ generator p :=
        modByMonic_eq_of_dvd_sub (monic_generator p) hdvd

/-- The checksum is linear on messages of one length. -/
theorem crc_xor (p : BitVec w) (hk : k ≤ w) {a b : List (BitVec k)} (h : a.length = b.length) :
    crc p (List.zipWith (· ^^^ ·) a b) = crc p a ^^^ crc p b := by
  apply toPoly_injective
  rw [toPoly_xor, toPoly_crc p hk, toPoly_crc p hk, toPoly_crc p hk, ofBits_message_xor h, add_mul,
    add_modByMonic]

end Crc
end Lib
end Bookit
