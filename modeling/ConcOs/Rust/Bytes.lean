import ConcOs.Rust.Slice

namespace rust

open Result

/-- The byte at position `i`, or zero past the end. Specifications of reads in
bounds are stated with it. -/
def Slice.byte (s : Slice UInt8) (i : Nat) : UInt8 := s.val.getD i 0

theorem Slice.index_byte {s : Slice UInt8} {i : Nat} (h : i < s.len) : s.index i = ok (s.byte i) :=
  Slice.index_eq h

/-- Dropping to a position in bounds exposes the byte there. -/
theorem Slice.drop_eq_byte_cons {s : Slice UInt8} {i : Nat} (h : i < s.len) :
    s.val.drop i = s.byte i :: s.val.drop (i + 1) := by
  have hlt : i < s.val.length := h
  rw [List.drop_eq_getElem_cons hlt, Slice.byte, List.getD_eq_getElem _ _ hlt]

/-- Replacing a range by one of the same length leaves the values outside. -/
theorem getD_replace {α : Type} {before middle middle' after : List α} (hlen : middle.length = middle'.length)
    {i : Nat} (hout : i < before.length ∨ before.length + middle.length ≤ i) (fallback : α) :
    (before ++ middle ++ after).getD i fallback = (before ++ middle' ++ after).getD i fallback := by
  rcases hout with hi | hi
  · rw [List.append_assoc, List.append_assoc, List.getD_append _ _ _ _ hi, List.getD_append _ _ _ _ hi]
  · rw [List.getD_append_right _ _ _ _ (by rw [List.length_append]; omega),
      List.getD_append_right _ _ _ _ (by rw [List.length_append]; omega), List.length_append,
      List.length_append, hlen]

/-- Checked `u8` multiplication. -/
def U8.mul (a b : UInt8) : Result UInt8 :=
  if a.toNat * b.toNat < 2 ^ 8 then ok (a * b) else fail .overflow

/-- Checked `u16` addition. -/
def U16.add (a b : UInt16) : Result UInt16 :=
  if a.toNat + b.toNat < 2 ^ 16 then ok (a + b) else fail .overflow

/-- Checked `u32` addition. -/
def U32.add (a b : UInt32) : Result UInt32 :=
  if a.toNat + b.toNat < 2 ^ 32 then ok (a + b) else fail .overflow

theorem U8.mul_eq {a b : UInt8} (h : a.toNat * b.toNat < 2 ^ 8) : U8.mul a b = ok (a * b) := if_pos h

theorem U16.add_eq {a b : UInt16} (h : a.toNat + b.toNat < 2 ^ 16) : U16.add a b = ok (a + b) := if_pos h

theorem U32.add_eq {a b : UInt32} (h : a.toNat + b.toNat < 2 ^ 32) : U32.add a b = ok (a + b) := if_pos h

/-- `w.to_ne_bytes()` for a `u64` on the little-endian target. -/
def U64.to_ne_bytes (w : UInt64) : List UInt8 := (List.range 8).map fun i => UInt8.ofNat (w.toNat / 2 ^ (8 * i))

@[simp] theorem U64.length_to_ne_bytes (w : UInt64) : (U64.to_ne_bytes w).length = 8 := by simp [to_ne_bytes]

/-- `u16::try_from(n)` for a `usize`. -/
def U16.try_from (n : Nat) : Option UInt16 := if n < 2 ^ 16 then some (UInt16.ofNat n) else none

theorem U16.try_from_eq {n : Nat} (h : n < 2 ^ 16) : U16.try_from n = some (UInt16.ofNat n) := if_pos h

theorem U16.try_from_none {n : Nat} (h : 2 ^ 16 ≤ n) : U16.try_from n = none := if_neg (by omega)

def U16.from_be_bytes (a b : UInt8) : UInt16 := UInt16.ofNat (256 * a.toNat + b.toNat)

def U16.to_be_bytes (w : UInt16) : List UInt8 :=
  [UInt8.ofNat (w.toNat / 256), UInt8.ofNat (w.toNat % 256)]

def U32.from_be_bytes (a b c d : UInt8) : UInt32 :=
  UInt32.ofNat (256 * (256 * (256 * a.toNat + b.toNat) + c.toNat) + d.toNat)

def U32.to_be_bytes (w : UInt32) : List UInt8 :=
  [UInt8.ofNat (w.toNat / 2 ^ 24), UInt8.ofNat (w.toNat / 2 ^ 16), UInt8.ofNat (w.toNat / 2 ^ 8),
    UInt8.ofNat w.toNat]

theorem U16.toNat_from_be_bytes (a b : UInt8) :
    (U16.from_be_bytes a b).toNat = 256 * a.toNat + b.toNat := by
  have ha := a.toNat_lt
  have hb := b.toNat_lt
  simp only [U16.from_be_bytes, UInt16.toNat_ofNat']
  omega

theorem U32.toNat_from_be_bytes (a b c d : UInt8) : (U32.from_be_bytes a b c d).toNat =
    256 * (256 * (256 * a.toNat + b.toNat) + c.toNat) + d.toNat := by
  have ha := a.toNat_lt
  have hb := b.toNat_lt
  have hc := c.toNat_lt
  have hd := d.toNat_lt
  simp only [U32.from_be_bytes, UInt32.toNat_ofNat']
  omega

@[simp] theorem U16.length_to_be_bytes (w : UInt16) : (U16.to_be_bytes w).length = 2 := rfl

@[simp] theorem U32.length_to_be_bytes (w : UInt32) : (U32.to_be_bytes w).length = 4 := rfl

/-- Encoding a decoded pair of bytes gives the pair back. -/
theorem U16.to_be_bytes_from_be_bytes (a b : UInt8) :
    U16.to_be_bytes (U16.from_be_bytes a b) = [a, b] := by
  have ha := a.toNat_lt
  have hb := b.toNat_lt
  simp only [U16.to_be_bytes, U16.toNat_from_be_bytes, List.cons.injEq, and_true]
  constructor
  · apply UInt8.toNat_inj.mp
    simp only [UInt8.toNat_ofNat']
    omega
  · apply UInt8.toNat_inj.mp
    simp only [UInt8.toNat_ofNat']
    omega

/-- Decoding an encoded word gives the word back. -/
theorem U16.from_be_bytes_to_be_bytes (w : UInt16) :
    U16.from_be_bytes (UInt8.ofNat (w.toNat / 256)) (UInt8.ofNat (w.toNat % 256)) = w := by
  have hw := w.toNat_lt
  apply UInt16.toNat_inj.mp
  simp only [U16.toNat_from_be_bytes, UInt8.toNat_ofNat']
  omega

theorem U32.to_be_bytes_from_be_bytes (a b c d : UInt8) :
    U32.to_be_bytes (U32.from_be_bytes a b c d) = [a, b, c, d] := by
  have ha := a.toNat_lt
  have hb := b.toNat_lt
  have hc := c.toNat_lt
  have hd := d.toNat_lt
  simp only [U32.to_be_bytes, U32.toNat_from_be_bytes, List.cons.injEq, and_true,
    ← UInt8.toNat_inj, UInt8.toNat_ofNat']
  omega

/-- The bytes determine the word. -/
theorem U32.to_be_bytes_inj {v w : UInt32} : U32.to_be_bytes v = U32.to_be_bytes w ↔ v = w := by
  refine ⟨fun h => ?_, congrArg U32.to_be_bytes⟩
  have hv := v.toNat_lt
  have hw := w.toNat_lt
  simp only [U32.to_be_bytes, List.cons.injEq, and_true, ← UInt8.toNat_inj, UInt8.toNat_ofNat'] at h
  apply UInt32.toNat_inj.mp
  omega

theorem U32.from_be_bytes_inj {a b c d : UInt8} {w : UInt32} :
    U32.from_be_bytes a b c d = w ↔ [a, b, c, d] = U32.to_be_bytes w := by
  constructor
  · rintro rfl
    exact (U32.to_be_bytes_from_be_bytes a b c d).symm
  · intro h
    have hw := w.toNat_lt
    simp only [U32.to_be_bytes, List.cons.injEq, and_true] at h
    obtain ⟨rfl, rfl, rfl, rfl⟩ := h
    apply UInt32.toNat_inj.mp
    simp only [U32.toNat_from_be_bytes, UInt8.toNat_ofNat']
    omega

/-- `u8::from_be_slice`. -/
def U8.from_be_slice (s : Slice UInt8) : Result UInt8 :=
  match s.val with
  | [a] => ok a
  | _ => fail (.expect "Incorrect length")

/-- `u16::from_be_slice`. -/
def U16.from_be_slice (s : Slice UInt8) : Result UInt16 :=
  match s.val with
  | [a, b] => ok (U16.from_be_bytes a b)
  | _ => fail (.expect "Incorrect length")

/-- `u32::from_be_slice`. -/
def U32.from_be_slice (s : Slice UInt8) : Result UInt32 :=
  match s.val with
  | [a, b, c, d] => ok (U32.from_be_bytes a b c d)
  | _ => fail (.expect "Incorrect length")

/-- The bytes up to a position in bounds, one by one. -/
theorem Slice.take_eq_map_byte {s : Slice UInt8} {n : Nat} (h : n ≤ s.len) :
    s.val.take n = (List.range n).map s.byte := by
  induction n with
  | zero => rfl
  | succ n ih =>
    have hlt : n < s.val.length := h
    rw [List.take_add_one, ih (by omega), List.range_succ, List.map_append, List.getElem?_eq_getElem hlt,
      List.map_singleton, Slice.byte, List.getD_eq_getElem _ _ hlt]
    rfl

theorem Slice.val_sub_one {s : Slice UInt8} {i : Nat} (h : i + 1 ≤ s.len) :
    (s.sub i (i + 1)).val = [s.byte i] := by
  simp [Slice.drop_eq_byte_cons (show i < s.len by omega)]

theorem Slice.val_sub_two {s : Slice UInt8} {i : Nat} (h : i + 2 ≤ s.len) :
    (s.sub i (i + 2)).val = [s.byte i, s.byte (i + 1)] := by
  simp [Slice.drop_eq_byte_cons (show i < s.len by omega),
    Slice.drop_eq_byte_cons (show i + 1 < s.len by omega)]

theorem Slice.val_sub_four {s : Slice UInt8} {i : Nat} (h : i + 4 ≤ s.len) :
    (s.sub i (i + 4)).val = [s.byte i, s.byte (i + 1), s.byte (i + 2), s.byte (i + 3)] := by
  simp [Slice.drop_eq_byte_cons (show i < s.len by omega),
    Slice.drop_eq_byte_cons (show i + 1 < s.len by omega),
    Slice.drop_eq_byte_cons (show i + 2 < s.len by omega),
    Slice.drop_eq_byte_cons (show i + 3 < s.len by omega)]

theorem Slice.take_three {s : Slice UInt8} (h : 3 ≤ s.len) : s.val.take 3 = [s.byte 0, s.byte 1, s.byte 2] := by
  have hzero : s.val = s.val.drop 0 := rfl
  rw [hzero, Slice.drop_eq_byte_cons (show 0 < s.len by omega),
    Slice.drop_eq_byte_cons (show 0 + 1 < s.len by omega),
    Slice.drop_eq_byte_cons (show 0 + 1 + 1 < s.len by omega)]
  rfl

theorem U8.from_be_slice_sub {s : Slice UInt8} {i j : Nat} (hj : j = i + 1) (h : j ≤ s.len) :
    U8.from_be_slice (s.sub i j) = ok (s.byte i) := by
  subst hj
  rw [U8.from_be_slice, Slice.val_sub_one h]

theorem U16.from_be_slice_sub {s : Slice UInt8} {i j : Nat} (hj : j = i + 2) (h : j ≤ s.len) :
    U16.from_be_slice (s.sub i j) = ok (U16.from_be_bytes (s.byte i) (s.byte (i + 1))) := by
  subst hj
  rw [U16.from_be_slice, Slice.val_sub_two h]

theorem U32.from_be_slice_sub {s : Slice UInt8} {i j : Nat} (hj : j = i + 4) (h : j ≤ s.len) :
    U32.from_be_slice (s.sub i j) = ok (U32.from_be_bytes (s.byte i) (s.byte (i + 1))
      (s.byte (i + 2)) (s.byte (i + 3))) := by
  subst hj
  rw [U32.from_be_slice, Slice.val_sub_four h]

theorem Slice.byte_sub_zero (s : Slice UInt8) {b i : Nat} (h : i < b) :
    (s.sub 0 b).byte i = s.byte i := by
  simp [Slice.byte, List.getD_eq_getElem?_getD, h]

theorem Slice.sub_sub_zero (s : Slice UInt8) {a b t : Nat} (h : b ≤ t) :
    (s.sub 0 t).sub a b = s.sub a b := by
  ext1
  simp only [Slice.val_sub, List.drop_zero, Nat.sub_zero, List.drop_take, List.take_take]
  rw [Nat.min_eq_left (by omega)]

/-- A range of the right length converts to an array. -/
theorem Slice.try_into_sub {s : Slice UInt8} {i j n : Nat} (hj : j = i + n) (h : j ≤ s.len) :
    ∃ v : Bytes n, (s.sub i j).try_into n = some v ∧ v.val = (s.val.drop i).take n := by
  subst hj
  have hlen : (s.sub i (i + n)).val.length = n := by
    rw [Slice.length_val, Slice.len_sub s h]
    omega
  refine ⟨⟨_, hlen⟩, dif_pos hlen, ?_⟩
  simp

end rust
