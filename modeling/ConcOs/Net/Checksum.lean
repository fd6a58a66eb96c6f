import ConcOs.Rust.Bytes
import ConcOs.Rust.OnesComplement

open rust Result ones_complement

namespace conc_os_net.ipv4

/-- The loop over `part.chunks(2)`: a last odd byte is a word padded by zero. -/
def sum_chunks (sum : UInt32) : List UInt8 → Result UInt32
  | [] => ok sum
  | [a] => U32.add sum (U16.from_be_bytes a 0).toUInt32
  | a :: b :: rest => do
    let sum ← U32.add sum (U16.from_be_bytes a b).toUInt32
    sum_chunks sum rest

/-- One iteration of `while (sum >> 16) > 0`. -/
def fold_carry (sum : UInt32) : Result (ControlFlow UInt32 UInt32) :=
  if sum >>> 16 > 0 then do
    let sum ← U32.add (sum &&& 0xFFFF) (sum >>> 16)
    ok (.cont sum)
  else ok (.done sum)

def internet_checksum (packet_parts : List (List UInt8)) : Result UInt16 := do
  let sum ← packet_parts.foldlM sum_chunks 0
  let sum ← loop fold_carry 3 sum
  ok (~~~sum.toUInt16)

/-- The sum of the big-endian words of a byte string, zero-padded to even
length. -/
def wordSum : List UInt8 → Nat
  | [] => 0
  | [a] => 256 * a.toNat
  | a :: b :: rest => 256 * a.toNat + b.toNat + wordSum rest

/-- The checksum field that goes with a sum of words. -/
def checksumOf (sum : Nat) : UInt16 := UInt16.ofNat (65535 - residue 65535 sum)

theorem wordSum_le (bytes : List UInt8) : wordSum bytes ≤ 65535 * ((bytes.length + 1) / 2) := by
  induction bytes using wordSum.induct with
  | case1 => simp [wordSum]
  | case2 a =>
    have := a.toNat_lt
    simp only [wordSum, List.length_singleton]
    omega
  | case3 a b rest ih =>
    have ha := a.toNat_lt
    have hb := b.toNat_lt
    simp only [wordSum, List.length_cons]
    omega

/-- Words do not straddle a boundary at an even position. -/
theorem wordSum_append {first : List UInt8} (heven : first.length % 2 = 0) (second : List UInt8) :
    wordSum (first ++ second) = wordSum first + wordSum second := by
  induction first using wordSum.induct with
  | case1 => simp [wordSum]
  | case2 a => simp at heven
  | case3 a b rest ih =>
    have htail := ih (by simp only [List.length_cons] at heven; omega)
    simp only [List.cons_append, wordSum, htail]
    omega

theorem wordSum_to_be_bytes (w : UInt16) : wordSum (U16.to_be_bytes w) = w.toNat := by
  have := w.toNat_lt
  simp only [U16.to_be_bytes, wordSum, UInt8.toNat_ofNat']
  omega

theorem sum_chunks_eq (bytes : List UInt8) (sum : UInt32)
    (hfit : sum.toNat + wordSum bytes < 2 ^ 32) :
    ∃ total, sum_chunks sum bytes = ok total ∧ total.toNat = sum.toNat + wordSum bytes := by
  induction bytes using wordSum.induct generalizing sum with
  | case1 => exact ⟨sum, rfl, by simp [wordSum]⟩
  | case2 a =>
    have hword : (U16.from_be_bytes a 0).toUInt32.toNat = 256 * a.toNat := by
      simp [U16.toNat_from_be_bytes]
    simp only [wordSum] at hfit ⊢
    refine ⟨_, by rw [sum_chunks, U32.add_eq (by omega)], ?_⟩
    rw [UInt32.toNat_add, hword]
    omega
  | case3 a b rest ih =>
    have hword : (U16.from_be_bytes a b).toUInt32.toNat = 256 * a.toNat + b.toNat := by
      simp [U16.toNat_from_be_bytes]
    simp only [wordSum] at hfit
    have hsum : (sum + (U16.from_be_bytes a b).toUInt32).toNat =
        sum.toNat + (256 * a.toNat + b.toNat) := by
      rw [UInt32.toNat_add, hword]
      omega
    obtain ⟨total, htotal, hval⟩ := ih (sum + (U16.from_be_bytes a b).toUInt32) (by omega)
    refine ⟨total, ?_, ?_⟩
    · rw [sum_chunks, U32.add_eq (by omega), bind_tc_ok, htotal]
    · simp only [wordSum]
      omega

theorem sum_parts_eq (parts : List (List UInt8)) (sum : UInt32)
    (hfit : sum.toNat + (parts.map wordSum).sum < 2 ^ 32) :
    ∃ total, parts.foldlM sum_chunks sum = ok total ∧
      total.toNat = sum.toNat + (parts.map wordSum).sum := by
  induction parts generalizing sum with
  | nil => exact ⟨sum, rfl, by simp⟩
  | cons part parts ih =>
    simp only [List.map_cons, List.sum_cons] at hfit ⊢
    obtain ⟨middle, hmiddle, hval⟩ := sum_chunks_eq part sum (by omega)
    obtain ⟨total, htotal, hend⟩ := ih middle (by omega)
    exact ⟨total, by rw [List.foldlM_cons, hmiddle, bind_tc_ok, htotal], by omega⟩

/-- The carry loop ends within two rounds, at the one's complement value of
what it started from. -/
theorem fold_carry_eq (sum : UInt32) :
    ∃ folded, loop fold_carry 3 sum = ok folded ∧ folded.toNat = residue 65535 sum.toNat := by
  have hand : ∀ s : UInt32, (s &&& 0xFFFF).toNat = s.toNat % 65536 := by
    intro s
    rw [UInt32.toNat_and]
    exact Nat.and_two_pow_sub_one_eq_mod s.toNat 16
  have hshift : ∀ s : UInt32, (s >>> 16).toNat = s.toNat / 65536 := by
    intro s
    rw [UInt32.toNat_shiftRight]
    exact Nat.shiftRight_eq_div_pow s.toNat 16
  refine loop_spec (fun s => residue 65535 s.toNat = residue 65535 sum.toNat)
    (fun r : UInt32 => r.toNat = residue 65535 sum.toNat)
    (fun s => if s.toNat < 65536 then 0 else if s.toNat < 131071 then 1 else 2) ?_ 3 sum rfl
    (by split_ifs <;> omega)
  intro s hinv
  have hlt := s.toNat_lt
  by_cases hcarry : s >>> 16 > 0
  · have hbig : 0 < s.toNat / 65536 := by
      rw [← hshift]
      exact hcarry
    have hsum : ((s &&& 0xFFFF : UInt32) + (s >>> 16)).toNat = foldCarry 65535 s.toNat := by
      rw [UInt32.toNat_add, hand, hshift, foldCarry]
      omega
    refine Or.inl ⟨(s &&& 0xFFFF : UInt32) + (s >>> 16), ?_, ?_, ?_⟩
    · rw [fold_carry, if_pos hcarry, U32.add_eq (by rw [hand, hshift]; omega), bind_tc_ok]
    · rw [hsum, residue_foldCarry, hinv]
    · simp only [hsum, foldCarry]
      split_ifs <;> omega
  · have hsmall : s.toNat / 65536 = 0 := by
      rw [← hshift]
      exact Nat.eq_zero_of_not_pos hcarry
    refine Or.inr ⟨s, by rw [fold_carry, if_neg hcarry], ?_⟩
    rw [← hinv, residue_eq_self (by omega)]

/-- As long as the words of all parts sum up to less than `2^32`, the checksum
is computed without overflow, its loop ends, and it is the complement of the
one's complement sum of all words. -/
theorem internet_checksum_eq {parts : List (List UInt8)} (hfit : (parts.map wordSum).sum < 2 ^ 32) :
    internet_checksum parts = ok (checksumOf (parts.map wordSum).sum) := by
  obtain ⟨total, htotal, hval⟩ := sum_parts_eq parts 0 (by simpa using hfit)
  obtain ⟨folded, hfolded, hnorm⟩ := fold_carry_eq total
  have hle := residue_le (m := 65535) (by decide) (parts.map wordSum).sum
  rw [internet_checksum, htotal, bind_tc_ok, hfolded, bind_tc_ok]
  congr 1
  apply UInt16.toNat_inj.mp
  have hzero : total.toNat = (parts.map wordSum).sum := by simpa using hval
  rw [hzero] at hnorm
  simp only [checksumOf, UInt16.toNat_not, UInt32.toNat_toUInt16, UInt16.toNat_ofNat', UInt16.size, hnorm]
  omega

/-- The checksum of one part no longer than a packet. -/
theorem internet_checksum_single {bytes : List UInt8} (hlen : bytes.length ≤ 65535) :
    internet_checksum [bytes] = ok (checksumOf (wordSum bytes)) := by
  have hle := wordSum_le bytes
  have hsum : ([bytes].map wordSum).sum = wordSum bytes := by simp
  rw [internet_checksum_eq (by rw [hsum]; omega), hsum]

theorem toNat_checksumOf (sum : Nat) : (checksumOf sum).toNat = 65535 - residue 65535 sum := by
  simp only [checksumOf, UInt16.toNat_ofNat']
  omega

/-- A sum verifies exactly when it is a positive multiple of 65535. -/
theorem checksumOf_eq_zero {sum : Nat} : checksumOf sum = 0 ↔ 0 < sum ∧ 65535 ∣ sum := by
  have hle := residue_le (m := 65535) (by decide) sum
  rw [← residue_eq_top (by decide), ← UInt16.toNat_inj, toNat_checksumOf]
  simp only [UInt16.toNat_zero]
  omega

/-- A sum completed by its own checksum verifies. -/
theorem checksumOf_add_self (sum : Nat) : checksumOf (sum + (checksumOf sum).toNat) = 0 := by
  have hle := residue_le (m := 65535) (by decide) sum
  have hdvd := dvd_add_complement (m := 65535) (by decide) sum
  rw [checksumOf_eq_zero, toNat_checksumOf]
  refine ⟨?_, hdvd⟩
  by_contra hnot
  have hsum : sum = 0 := by omega
  rw [residue_eq_zero.mpr hsum] at hnot
  omega

/-- The field that makes a positive sum verify is its checksum, up to the two
representations of zero. -/
theorem checksumOf_eq_field {sum : Nat} {field : UInt16} (hpos : 0 < sum)
    (hverifies : checksumOf (sum + field.toNat) = 0) :
    checksumOf sum = if field = 0xFFFF then 0 else field := by
  have hlt := field.toNat_lt
  have htop : field = 0xFFFF ↔ field.toNat = 65535 := by rw [← UInt16.toNat_inj]; rfl
  have hcomplement := complement_eq hpos (show field.toNat ≤ 65535 by omega)
    (checksumOf_eq_zero.mp hverifies).2
  apply UInt16.toNat_inj.mp
  rw [toNat_checksumOf, hcomplement]
  simp only [htop, apply_ite UInt16.toNat, UInt16.toNat_zero]

/-- A sum that verifies no longer does when one of its words is replaced by
another, unless the two are the two representations of zero. -/
theorem checksumOf_ne_zero_of_word {rest word word' : Nat} (hword : word ≤ 65535) (hword' : word' ≤ 65535)
    (hne : word ≠ word') (hrise : ¬ (word = 0 ∧ word' = 65535)) (hfall : ¬ (word = 65535 ∧ word' = 0))
    (hverifies : checksumOf (rest + word) = 0) : checksumOf (rest + word') ≠ 0 := by
  intro hverifies'
  rcases digits_of_dvd hword hword' hne (checksumOf_eq_zero.mp hverifies).2
    (checksumOf_eq_zero.mp hverifies').2 with hzeros | hzeros
  · exact hrise hzeros
  · exact hfall hzeros

end conc_os_net.ipv4
