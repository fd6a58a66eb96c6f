import Mathlib.Tactic
import Mathlib.Data.Nat.ModEq

namespace ones_complement

/-- The value of a sum in one's complement arithmetic with digits `0..m`: an
end-around carry keeps the residue modulo `m`, and represents it by zero only
when nothing but zeros was added. -/
def residue (m sum : Nat) : Nat := if sum = 0 then 0 else (sum - 1) % m + 1

/-- One round of adding the carries back in, in radix `m + 1`. -/
def foldCarry (m sum : Nat) : Nat := sum % (m + 1) + sum / (m + 1)

theorem residue_le {m : Nat} (hm : 0 < m) (sum : Nat) : residue m sum ≤ m := by
  have := Nat.mod_lt (sum - 1) hm
  unfold residue
  split <;> omega

@[simp] theorem residue_eq_zero {m sum : Nat} : residue m sum = 0 ↔ sum = 0 := by
  unfold residue
  split <;> simp_all

theorem residue_eq_self {m sum : Nat} (h : sum ≤ m) : residue m sum = sum := by
  unfold residue
  split
  · omega
  · rw [Nat.mod_eq_of_lt (by omega)]
    omega

theorem residue_modEq (m sum : Nat) : residue m sum ≡ sum [MOD m] := by
  unfold residue
  split
  · rename_i h
    rw [h]
  · have hmod : (sum - 1) % m + 1 ≡ (sum - 1) + 1 [MOD m] := (Nat.mod_modEq _ _).add_right 1
    rwa [Nat.sub_add_cancel (by omega)] at hmod

/-- The value depends only on the residue and on whether the sum is zero. -/
theorem residue_congr {m a b : Nat} (hmod : a ≡ b [MOD m]) (hzero : a = 0 ↔ b = 0) :
    residue m a = residue m b := by
  by_cases ha : a = 0
  · rw [residue_eq_zero.mpr ha, residue_eq_zero.mpr (hzero.mp ha)]
  · have hb : b ≠ 0 := fun h => ha (hzero.mpr h)
    have hpred : (a - 1) % m = (b - 1) % m := by
      apply Nat.ModEq.add_right_cancel' 1
      rwa [Nat.sub_add_cancel (by omega), Nat.sub_add_cancel (by omega)]
    simp only [residue, ha, hb, if_false, hpred]

theorem foldCarry_modEq (m sum : Nat) : foldCarry m sum ≡ sum [MOD m] := by
  have hsplit : sum = foldCarry m sum + m * (sum / (m + 1)) := by
    have h := Nat.mod_add_div sum (m + 1)
    have hmul : (m + 1) * (sum / (m + 1)) = m * (sum / (m + 1)) + sum / (m + 1) := by ring
    unfold foldCarry
    omega
  conv_rhs => rw [hsplit]
  exact ((Nat.ModEq.refl (foldCarry m sum)).add ((Nat.modEq_zero_iff_dvd.mpr
    (Nat.dvd_mul_right m _)).symm)).trans (by rfl)

theorem foldCarry_eq_zero {m sum : Nat} : foldCarry m sum = 0 ↔ sum = 0 := by
  have h := Nat.mod_add_div sum (m + 1)
  constructor
  · intro hzero
    simp only [foldCarry, Nat.add_eq_zero_iff] at hzero
    rw [hzero.1, hzero.2] at h
    simpa using h.symm
  · rintro rfl
    simp [foldCarry]

/-- Folding carries in never changes the value. -/
theorem residue_foldCarry (m sum : Nat) : residue m (foldCarry m sum) = residue m sum :=
  residue_congr (foldCarry_modEq m sum) foldCarry_eq_zero

/-- The all-ones value is reached exactly by the positive multiples of `m`. -/
theorem residue_eq_top {m sum : Nat} (hm : 0 < m) : residue m sum = m ↔ 0 < sum ∧ m ∣ sum := by
  have hmod := residue_modEq m sum
  have hle := residue_le hm sum
  constructor
  · intro htop
    rw [htop] at hmod
    refine ⟨Nat.pos_of_ne_zero fun h => ?_, ?_⟩
    · rw [residue_eq_zero.mpr h] at htop
      omega
    · exact (Nat.modEq_zero_iff_dvd).mp (hmod.symm.trans (by simp [Nat.ModEq]))
  · rintro ⟨hpos, hdvd⟩
    have hzero : m ∣ residue m sum := (Nat.modEq_zero_iff_dvd).mp
      (hmod.trans (Nat.modEq_zero_iff_dvd.mpr hdvd))
    have hne : residue m sum ≠ 0 := fun h => by rw [residue_eq_zero] at h; omega
    exact le_antisymm hle (Nat.le_of_dvd (Nat.pos_of_ne_zero hne) hzero)

/-- Adding the complement of a sum completes it to a multiple of `m`. -/
theorem dvd_add_complement {m : Nat} (hm : 0 < m) (sum : Nat) : m ∣ sum + (m - residue m sum) := by
  have hle := residue_le hm sum
  apply (Nat.modEq_zero_iff_dvd).mp
  calc sum + (m - residue m sum) ≡ residue m sum + (m - residue m sum) [MOD m] :=
        (residue_modEq m sum).symm.add_right _
    _ = m := by omega
    _ ≡ 0 [MOD m] := by simp [Nat.ModEq]

/-- The complement is the only digit that completes a positive sum to a
multiple of `m`, apart from the second representation of zero. -/
theorem complement_eq {m sum digit : Nat} (hpos : 0 < sum) (hle : digit ≤ m) (hdvd : m ∣ sum + digit) :
    m - residue m sum = if digit = m then 0 else digit := by
  have hm : 0 < m := by
    rcases Nat.eq_zero_or_pos m with rfl | hm
    · have := Nat.eq_zero_of_zero_dvd hdvd
      omega
    · exact hm
  have hres := residue_le hm sum
  have hne : residue m sum ≠ 0 := fun h => by rw [residue_eq_zero] at h; omega
  have hround : m ∣ residue m sum + digit :=
    (Nat.modEq_zero_iff_dvd).mp (((residue_modEq m sum).add_right digit).trans (Nat.modEq_zero_iff_dvd.mpr hdvd))
  obtain ⟨k, hk⟩ := hround
  have hone : 1 ≤ k := by
    by_contra hnot
    obtain rfl : k = 0 := by omega
    omega
  have htwo : k ≤ 2 := by
    by_contra hnot
    have hbig : m * 3 ≤ m * k := Nat.mul_le_mul_left m (by omega)
    omega
  rcases (by omega : k = 1 ∨ k = 2) with rfl | rfl
  · rw [if_neg (by omega)]
    omega
  · rw [if_pos (by omega)]
    omega

/-- Two digits complete the same sum only if they are the two representations
of zero. -/
theorem digits_of_dvd {m rest first second : Nat} (hfirst : first ≤ m) (hsecond : second ≤ m)
    (hne : first ≠ second) (h : m ∣ rest + first) (h' : m ∣ rest + second) :
    (first = 0 ∧ second = m) ∨ (first = m ∧ second = 0) := by
  have hgap : m ∣ (max first second) - (min first second) := by
    have hsub := Nat.dvd_sub h h'
    have hsub' := Nat.dvd_sub h' h
    rw [Nat.add_sub_add_left] at hsub hsub'
    rcases Nat.le_total first second with hle | hle
    · rwa [Nat.max_eq_right hle, Nat.min_eq_left hle]
    · rwa [Nat.max_eq_left hle, Nat.min_eq_right hle]
  have hwide := Nat.le_of_dvd (by omega) hgap
  omega

end ones_complement
