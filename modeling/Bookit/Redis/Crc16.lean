import Bookit.Lib.Crc
import Bookit.Redis.Pools

/-!
# Redis.Crc16 — the checksum that selects the node of a seat

`crc16` is the register of `Lib.Crc` with words of eight bits and the generator `x^16 + x^12 + x^5 + 1`.
Its value depends on the text of the seat only, and the selected pool on it and on the number of pools.
-/

namespace Bookit
namespace SingleNodeLock

open Lib Lib.Crc Polynomial

/-! ## The register -/

theorem crc16Bit_eq : crc16Bit = shift 0x1021#16 := by
  funext c
  have hmask : (c &&& 0x8000#16 ≠ 0#16) ↔ c.msb = true := by
    have hpow : (0x8000#16 : BitVec 16) = BitVec.twoPow 16 15 := by decide
    rw [hpow, BitVec.and_twoPow, BitVec.msb_eq_getLsbD_last]
    cases c.getLsbD 15 <;> decide
  unfold crc16Bit shift
  simp only [hmask]

theorem crc16Byte_eq (c : BitVec 16) (byte : UInt8) :
    crc16Byte c byte = feed 0x1021#16 c byte.toBitVec := by
  unfold crc16Byte feed
  rw [crc16Bit_eq]

theorem crc16_eq (data : List UInt8) : crc16 data = crc 0x1021#16 (data.map UInt8.toBitVec) := by
  have hstep : crc16Byte = fun c byte => feed 0x1021#16 c byte.toBitVec := by
    funext c byte
    exact crc16Byte_eq c byte
  unfold crc16 crc
  rw [List.foldl_map, hstep]

/-- The polynomial `0x1021`, with the power that is shifted out. -/
theorem generator_eq : generator 0x1021#16 = X ^ 16 + X ^ 12 + X ^ 5 + 1 := by
  have hpoly : toPoly 0x1021#16 = X ^ 12 + X ^ 5 + 1 := by
    unfold toPoly
    simp only [Finset.sum_range_succ, Finset.sum_range_zero]
    simp [bit]
    ring
  rw [generator, hpoly]
  ring

/-- The bits of the bytes, of each byte the most significant one first. -/
def bits (data : List UInt8) : List Bool :=
  message (data.map UInt8.toBitVec)

theorem toPoly_crc16 (data : List UInt8) :
    toPoly (crc16 data) = (ofBits (bits data) * X ^ 16) %ₘ (X ^ 16 + X ^ 12 + X ^ 5 + 1) := by
  rw [crc16_eq, toPoly_crc 0x1021#16 (by decide), generator_eq]
  rfl

theorem crc16_xor {a b : List UInt8} (h : a.length = b.length) :
    crc16 (List.zipWith (· ^^^ ·) a b) = crc16 a ^^^ crc16 b := by
  have hlength : (a.map UInt8.toBitVec).length = (b.map UInt8.toBitVec).length := by
    rw [List.length_map, List.length_map, h]
  have hbytes : (List.zipWith (· ^^^ ·) a b).map UInt8.toBitVec =
      List.zipWith (· ^^^ ·) (a.map UInt8.toBitVec) (b.map UInt8.toBitVec) := by
    rw [List.map_zipWith, List.zipWith_map]
    simp only [UInt8.toBitVec_xor]
  rw [crc16_eq, crc16_eq, crc16_eq, hbytes, crc_xor 0x1021#16 (by decide) hlength]

/-! ## The pool of a seat -/

/-- The pools of a process, in the order of its list of addresses. -/
structure Nodes (α : Type) where
  pools : List α

namespace Nodes

variable {α : Type} {n : ℕ}

/-- The place that the hash of the seat has among so many pools. -/
def index (pools : ℕ) (showtimeId seatId : ℤ) : ℕ :=
  (crc16 (toString showtimeId ++ ":" ++ toString seatId).toUTF8.data.toList).toNat % pools

def poolForSeat (lock : Nodes α) (showtimeId seatId : ℤ) : Option α :=
  if h : lock.pools = [] then
    none
  else
    some (lock.pools.get ⟨index lock.pools.length showtimeId seatId,
      Nat.mod_lt _ (List.length_pos_of_ne_nil h)⟩)

theorem poolForSeat_eq (lock : Nodes α) (showtimeId seatId : ℤ) :
    lock.poolForSeat showtimeId seatId =
      lock.pools[index lock.pools.length showtimeId seatId]? := by
  unfold poolForSeat
  split_ifs with hnil
  · rw [hnil]
    rfl
  · rw [List.get_eq_getElem]
    exact (List.getElem?_eq_getElem _).symm

/-- The pools of a process with at least one are the nodes of the model above. -/
theorem poolForSeat_ofFn (s : Pools n) (showtimeId seatId : ℤ) :
    poolForSeat ⟨List.ofFn s⟩ showtimeId seatId =
      some (s (SingleNodeLock.poolForSeat n showtimeId seatId)) := by
  have hlt : index (n + 1) showtimeId seatId < n + 1 := Nat.mod_lt _ n.succ_pos
  rw [poolForSeat_eq, List.length_ofFn, List.getElem?_ofFn, dif_pos hlt]
  rfl

end Nodes

/-- `crc16` is the remainder of the message times `x^16`, and linear; and all processes with so many
pools select the same of them for a seat. -/
theorem crc16_selects_pool :
    (∀ data : List UInt8, toPoly (crc16 data) =
      (ofBits (bits data) * X ^ 16) %ₘ (X ^ 16 + X ^ 12 + X ^ 5 + 1)) ∧
    (∀ a b : List UInt8, a.length = b.length →
      crc16 (List.zipWith (· ^^^ ·) a b) = crc16 a ^^^ crc16 b) ∧
    ∀ (n : ℕ) (showtimeId seatId : ℤ), ∃ idx, (0 < n → idx < n) ∧
      ∀ (α : Type) (lock : Nodes α), lock.pools.length = n →
        lock.poolForSeat showtimeId seatId = lock.pools[idx]? := by
  refine ⟨toPoly_crc16, fun a b => crc16_xor, fun n showtimeId seatId => ?_⟩
  refine ⟨Nodes.index n showtimeId seatId, fun hpos => Nat.mod_lt _ hpos, ?_⟩
  rintro α lock rfl
  exact lock.poolForSeat_eq showtimeId seatId

end SingleNodeLock
end Bookit
