import ConcOs.Rust.Bytes
import Mathlib.Data.Nat.Bitwise

namespace rust

open Result

namespace Slice

/-- Bit `i` of a bitmap, counted from the low bit of its first byte. -/
def bit (s : Slice UInt8) (i : Nat) : Bool := (s.byte (i / 8)).toNat.testBit (i % 8)

/-- The mask of bit `i` within its byte. -/
def bitMask (i : Nat) : UInt8 := 1 <<< UInt8.ofNat (i % 8)

theorem shiftLeft_eq_bitMask (i : Nat) : (1 : UInt8) <<< UInt8.ofNat (i % 8) = bitMask i := rfl

theorem toNat_bitMask (i : Nat) : (bitMask i).toNat = 2 ^ (i % 8) := by
  have hlt : i % 8 < 8 := Nat.mod_lt _ (by decide)
  have hpow : 2 ^ (i % 8) < 2 ^ 8 := Nat.pow_lt_pow_right (by decide) hlt
  simp only [bitMask, UInt8.toNat_shiftLeft, UInt8.toNat_ofNat', UInt8.toNat_one, Nat.shiftLeft_eq]
  have hmod : i % 8 % 2 ^ 8 % 8 = i % 8 := by omega
  rw [hmod, Nat.one_mul]
  exact Nat.mod_eq_of_lt hpow

theorem testBit_bitMask (i j : Nat) : (bitMask i).toNat.testBit j = decide (i % 8 = j) := by
  rw [toNat_bitMask, Nat.testBit_two_pow]

/-- Testing a bit by its mask. -/
theorem and_bitMask_eq_zero_iff (b : UInt8) (i : Nat) :
    b &&& bitMask i = 0 ↔ b.toNat.testBit (i % 8) = false := by
  rw [← UInt8.toNat_inj, UInt8.toNat_and, toNat_bitMask, UInt8.toNat_zero, Nat.and_two_pow]
  cases b.toNat.testBit (i % 8) <;> simp

theorem testBit_or_bitMask (b : UInt8) (i j : Nat) :
    (b ||| bitMask i).toNat.testBit j = (b.toNat.testBit j || decide (i % 8 = j)) := by
  rw [UInt8.toNat_or, Nat.testBit_or, testBit_bitMask]

theorem testBit_and_not_bitMask (b : UInt8) (i : Nat) {j : Nat} (hj : j < 8) :
    (b &&& ~~~bitMask i).toNat.testBit j = (b.toNat.testBit j && !decide (i % 8 = j)) := by
  have hnot : (~~~bitMask i).toNat = 2 ^ 8 - ((bitMask i).toNat + 1) := by
    rw [UInt8.toNat_not, UInt8.size]
    omega
  rw [UInt8.toNat_and, Nat.testBit_and, hnot, Nat.testBit_two_pow_sub_succ (bitMask i).toNat_lt, testBit_bitMask]
  simp [hj]

theorem byte_set (s : Slice UInt8) {t : Slice UInt8} {i : Nat} {value : UInt8} (h : i < s.len)
    (ht : t.val = s.val.set i value) (j : Nat) : t.byte j = if i = j then value else s.byte j := by
  have hlt : i < s.val.length := h
  simp only [byte, ht, List.getD_eq_getElem?_getD, List.getElem?_set]
  split
  · rename_i heq
    subst heq
    simp only [Option.getD_some]
  · rfl

/-- Every bit of a bitmap filled with ones is set. -/
theorem bit_fill_ones (s : Slice UInt8) {i : Nat} (h : i / 8 < s.len) : (s.fill 0xff).bit i = true := by
  have hlt : i / 8 < s.val.length := h
  have hbyte : (s.fill 0xff).byte (i / 8) = 0xff := by
    simp only [byte, fill, List.getD_eq_getElem?_getD, List.getElem?_map, List.getElem?_eq_getElem hlt,
      Option.map_some, Option.getD_some]
  have hones : ∀ j < 8, (0xff : UInt8).toNat.testBit j = true := by decide
  rw [bit, hbyte, hones _ (Nat.mod_lt _ (by decide))]

/-- Two bitmaps of the same length are equal when all their bits are. -/
theorem ext_bit {s t : Slice UInt8} (hlen : s.len = t.len) (hbit : ∀ i < 8 * s.len, s.bit i = t.bit i) :
    s = t := by
  ext1
  refine List.ext_getElem hlen fun k hs ht => ?_
  have hbyte : s.byte k = t.byte k := by
    apply UInt8.toNat_inj.mp
    refine Nat.eq_of_testBit_eq fun j => ?_
    by_cases hj : j < 8
    · have h := hbit (8 * k + j) (by simp only [len]; omega)
      simp only [bit] at h
      rwa [show (8 * k + j) / 8 = k by omega, show (8 * k + j) % 8 = j by omega] at h
    · have hpow : 2 ^ 8 ≤ 2 ^ j := Nat.pow_le_pow_right (by decide) (by omega)
      rw [Nat.testBit_lt_two_pow ((s.byte k).toNat_lt.trans_le hpow),
        Nat.testBit_lt_two_pow ((t.byte k).toNat_lt.trans_le hpow)]
  rwa [byte, byte, List.getD_eq_getElem _ _ hs, List.getD_eq_getElem _ _ ht] at hbyte

end Slice

end rust
