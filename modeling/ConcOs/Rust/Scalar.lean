import ConcOs.Rust.Result

namespace rust

open Result

/-- The largest number of bytes an object in memory can hold, `isize::MAX`. -/
def isizeMax : Nat := 2 ^ 63 - 1

/-- `usize::MAX` on the 64-bit target. -/
def usizeMax : Nat := 2 ^ 64 - 1

/-- Checked `usize` addition. -/
def Usize.add (a b : Nat) : Result Nat :=
  if a + b ≤ usizeMax then ok (a + b) else fail .overflow

theorem Usize.add_eq {a b : Nat} (h : a + b ≤ usizeMax) : Usize.add a b = ok (a + b) :=
  if_pos h

/-- Checked `usize` multiplication. -/
def Usize.mul (a b : Nat) : Result Nat :=
  if a * b ≤ usizeMax then ok (a * b) else fail .overflow

theorem Usize.eq_of_mul {a b c : Nat} (h : Usize.mul a b = ok c) : c = a * b := by
  unfold Usize.mul at h
  split at h
  · exact (ok.inj h).symm
  · cases h

/-- `usize::div_ceil`. -/
def Usize.div_ceil (a b : Nat) : Nat := if 0 < a % b then a / b + 1 else a / b

theorem Usize.div_ceil_eq (a : Nat) {b : Nat} (hb : 0 < b) : Usize.div_ceil a b = (a + (b - 1)) / b := by
  have hmod := Nat.mod_lt a hb
  have hsplit := Nat.div_add_mod a b
  rw [div_ceil]
  symm
  by_cases hrest : 0 < a % b
  · rw [if_pos hrest]
    apply Nat.div_eq_of_lt_le
    · rw [Nat.succ_mul, Nat.mul_comm]
      omega
    · rw [Nat.succ_mul, Nat.succ_mul, Nat.mul_comm]
      omega
  · rw [if_neg hrest]
    apply Nat.div_eq_of_lt_le
    · rw [Nat.mul_comm]
      omega
    · rw [Nat.succ_mul, Nat.mul_comm]
      omega

/-- The larger of two `u64`. -/
instance instLawfulOrderMaxUInt64 : Std.LawfulOrderMax UInt64 where
  max_eq_or a b := by
    change (if a ≤ b then b else a) = a ∨ (if a ≤ b then b else a) = b
    split
    · exact Or.inr rfl
    · exact Or.inl rfl
  max_le_iff a b c := by
    change (if a ≤ b then b else a) ≤ c ↔ a ≤ c ∧ b ≤ c
    simp only [UInt64.le_iff_toNat_le]
    split <;> omega

/-- `u64` addition, which wraps or panics on overflow as the build profile
says. -/
def U64.add (overflow_checks : Bool) (a b : UInt64) : Result UInt64 :=
  if overflow_checks ∧ 2 ^ 64 ≤ a.toNat + b.toNat then fail .overflow else ok (a + b)

theorem U64.add_eq {overflow_checks : Bool} {a b : UInt64}
    (h : overflow_checks = true → a.toNat + b.toNat < 2 ^ 64) : U64.add overflow_checks a b = ok (a + b) :=
  if_neg fun hover => absurd (h hover.1) (by omega)

theorem U64.eq_of_add {overflow_checks : Bool} {a b c : UInt64} (h : U64.add overflow_checks a b = ok c) :
    c = a + b := by
  unfold U64.add at h
  split at h
  · cases h
  · exact (ok.inj h).symm

/-- `u64` multiplication, likewise. -/
def U64.mul (overflow_checks : Bool) (a b : UInt64) : Result UInt64 :=
  if overflow_checks ∧ 2 ^ 64 ≤ a.toNat * b.toNat then fail .overflow else ok (a * b)

theorem U64.mul_eq (overflow_checks : Bool) {a b : UInt64} (h : a.toNat * b.toNat < 2 ^ 64) :
    U64.mul overflow_checks a b = ok (a * b) :=
  if_neg fun hover => absurd hover.2 (by omega)

/-- `u8` subtraction, likewise. -/
def U8.sub (overflow_checks : Bool) (a b : UInt8) : Result UInt8 :=
  if overflow_checks ∧ a.toNat < b.toNat then fail .overflow else ok (a - b)

end rust
