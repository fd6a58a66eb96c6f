import ConcOs.Rust.Scalar

namespace rust

open Result

/-- A borrowed slice or an owned vector of bytes: a sequence that fits in
memory. -/
@[ext] structure Slice (α : Type) where
  val : List α
  property : val.length ≤ isizeMax
deriving DecidableEq

abbrev Vec := Slice

namespace Slice

variable {α : Type}

def len (s : Slice α) : Nat := s.val.length

theorem length_val (s : Slice α) : s.val.length = s.len := rfl

theorem len_le (s : Slice α) : s.len ≤ isizeMax := s.property

/-- The empty slice, `&[]`. -/
def empty : Slice α := ⟨[], by simp⟩

@[simp] theorem val_empty : (empty : Slice α).val = [] := rfl

/-- The bytes at `a..b`; the total function behind a successful range index. -/
def sub (s : Slice α) (a b : Nat) : Slice α :=
  ⟨(s.val.drop a).take (b - a), by
    have hlen := s.len_le
    have hval := s.length_val
    simp only [List.length_take, List.length_drop]
    omega⟩

@[simp] theorem val_sub (s : Slice α) (a b : Nat) : (s.sub a b).val = (s.val.drop a).take (b - a) := rfl

theorem len_sub (s : Slice α) {a b : Nat} (h : b ≤ s.len) : (s.sub a b).len = b - a := by
  simp only [len, val_sub, List.length_take, List.length_drop]
  simp only [len] at h
  omega

/-- Two adjacent ranges make up the range around them. -/
theorem val_sub_append (s : Slice α) {a b c : Nat} (hab : a ≤ b) (hbc : b ≤ c) :
    (s.sub a b).val ++ (s.sub b c).val = (s.sub a c).val := by
  have hdrop : s.val.drop b = (s.val.drop a).drop (b - a) := by
    rw [List.drop_drop, Nat.add_sub_cancel' hab]
  have hcount : c - a = (b - a) + (c - b) := by omega
  rw [val_sub, val_sub, val_sub, hdrop, hcount, List.take_add]

/-- `s[i]`. -/
def index (s : Slice α) (i : Nat) : Result α :=
  match s.val[i]? with
  | some value => ok value
  | none => fail .indexOutOfRange

/-- `&s[a..b]`. -/
def range (s : Slice α) (a b : Nat) : Result (Slice α) :=
  if a ≤ b ∧ b ≤ s.len then ok (s.sub a b) else fail .indexOutOfRange

/-- `&s[a..]`. -/
def range_from (s : Slice α) (a : Nat) : Result (Slice α) := s.range a s.len

/-- `&s[..b]`. -/
def range_to (s : Slice α) (b : Nat) : Result (Slice α) := s.range 0 b

/-- `s.get(i)`. -/
def get (s : Slice α) (i : Nat) : Option α := s.val[i]?

/-- `s.get(a..b)`. -/
def get_range (s : Slice α) (a b : Nat) : Option (Slice α) :=
  if a ≤ b ∧ b ≤ s.len then some (s.sub a b) else none

theorem range_eq {s : Slice α} {a b : Nat} (hab : a ≤ b) (hb : b ≤ s.len) :
    s.range a b = ok (s.sub a b) := if_pos ⟨hab, hb⟩

theorem range_from_eq {s : Slice α} {a : Nat} (h : a ≤ s.len) :
    s.range_from a = ok (s.sub a s.len) := range_eq h le_rfl

theorem range_to_eq {s : Slice α} {b : Nat} (h : b ≤ s.len) : s.range_to b = ok (s.sub 0 b) :=
  range_eq (Nat.zero_le b) h

theorem index_eq [Inhabited α] {s : Slice α} {i : Nat} (h : i < s.len) :
    s.index i = ok (s.val.getD i default) := by
  have hget : s.val[i]? = some (s.val.getD i default) := by
    rw [List.getD_eq_getElem?_getD, List.getElem?_eq_getElem (by simpa [len] using h)]
    rfl
  simp only [index, hget]

/-- `s[i] = value`. -/
def set (s : Slice α) (i : Nat) (value : α) : Result (Slice α) :=
  if i < s.len then
    ok ⟨s.val.set i value, by simpa using s.property⟩
  else fail .indexOutOfRange

theorem set_eq (s : Slice α) (i : Nat) (value : α) (h : i < s.len) :
    ∃ t, s.set i value = ok t ∧ t.val = s.val.set i value ∧ t.len = s.len := by
  refine ⟨⟨s.val.set i value, by simpa using s.property⟩, if_pos h, rfl, ?_⟩
  simp [len]

/-- `s.fill(value)`. -/
def fill (s : Slice α) (value : α) : Slice α := ⟨s.val.map fun _ => value, by simpa using s.property⟩

@[simp] theorem len_fill (s : Slice α) (value : α) : (s.fill value).len = s.len := by simp [fill, len]

/-- `s[a..b].copy_from_slice(source)`. -/
def copy_from_slice (s : Slice α) (a b : Nat) (source : List α) : Result (Slice α) :=
  if hrange : a ≤ b ∧ b ≤ s.len then
    if hlen : source.length = b - a then
      ok ⟨s.val.take a ++ source ++ s.val.drop b, by
        have hle := s.len_le
        have hval := s.length_val
        simp only [List.length_append, List.length_take, List.length_drop]
        omega⟩
    else fail .lengthMismatch
  else fail .indexOutOfRange

/-- Overwriting a range in bounds by as many values replaces exactly that
range. -/
theorem copy_from_slice_eq (s : Slice α) (a b : Nat) (source : List α) (hab : a ≤ b) (hb : b ≤ s.len)
    (hlen : source.length = b - a) :
    ∃ t, s.copy_from_slice a b source = ok t ∧ t.val = s.val.take a ++ source ++ s.val.drop b ∧
      t.len = s.len := by
  have hval := s.length_val
  have hcount : (s.val.take a ++ source ++ s.val.drop b).length = s.len := by
    simp only [List.length_append, List.length_take, List.length_drop]
    omega
  refine ⟨⟨s.val.take a ++ source ++ s.val.drop b, hcount.trans_le s.len_le⟩, ?_, rfl, hcount⟩
  rw [copy_from_slice, dif_pos ⟨hab, hb⟩, dif_pos hlen]

end Slice

/-- A byte array of fixed size, `[u8; N]`. -/
@[ext] structure Bytes (n : Nat) where
  val : List UInt8
  property : val.length = n
deriving DecidableEq

namespace Bytes

variable {n : Nat}

/-- `[0; N]`. -/
def zeros (n : Nat) : Bytes n := ⟨List.replicate n 0, List.length_replicate⟩

/-- `bytes[i]`. -/
def index (bytes : Bytes n) (i : Nat) : Result UInt8 :=
  match bytes.val[i]? with
  | some value => ok value
  | none => fail .indexOutOfRange

theorem index_eq {bytes : Bytes n} {i : Nat} (h : i < n) : bytes.index i = ok (bytes.val.getD i 0) := by
  have hlt : i < bytes.val.length := by rwa [bytes.property]
  rw [index, List.getElem?_eq_getElem hlt, List.getD_eq_getElem _ _ hlt]

/-- `bytes[a..b].copy_from_slice(source)` of an array, where the range is in bounds and
the lengths agree. -/
def copy_from_slice (bytes : Bytes n) (a b : Nat) (source : List UInt8)
    (h : a ≤ b ∧ b ≤ n ∧ source.length = b - a) : Bytes n :=
  ⟨bytes.val.take a ++ source ++ bytes.val.drop b, by
    have hlen := bytes.property
    simp only [List.length_append, List.length_take, List.length_drop]
    omega⟩

theorem take_copy_from_slice (bytes : Bytes n) {a b : Nat} {source : List UInt8}
    (h : a ≤ b ∧ b ≤ n ∧ source.length = b - a) :
    (bytes.copy_from_slice a b source h).val.take b = bytes.val.take a ++ source := by
  have hlen : (bytes.val.take a ++ source).length = b := by
    rw [List.length_append, List.length_take, bytes.property]
    omega
  exact List.take_left' hlen

/-- The `len` bytes from `start` on, as an array. -/
def extract (bytes : Bytes n) (start len : Nat) (h : start + len ≤ n) : Bytes len :=
  ⟨(bytes.val.drop start).take len, by
    rw [List.length_take, List.length_drop, bytes.property]
    omega⟩

/-- `for (s, b) in seed.iter_mut().zip(source.iter()) { *s ^= *b; }`. -/
def xor (seed source : Bytes n) : Bytes n :=
  ⟨List.zipWith (· ^^^ ·) seed.val source.val, by
    rw [List.length_zipWith, seed.property, source.property, Nat.min_self]⟩

theorem zeros_xor (bytes : Bytes n) : (zeros n).xor bytes = bytes := by
  have hzip : ∀ (values : List UInt8) (count : Nat), values.length = count →
      List.zipWith (· ^^^ ·) (List.replicate count 0) values = values := by
    intro values
    induction values with
    | nil => exact fun count _ => by simp
    | cons first rest ih =>
      rintro count rfl
      rw [List.length_cons, List.replicate_succ, List.zipWith_cons_cons, ih _ rfl]
      simp
  ext1
  exact hzip bytes.val n bytes.property

end Bytes

/-- An array borrowed as a slice. -/
def Slice.ofBytes {n : Nat} (h : n ≤ isizeMax) (bytes : Bytes n) : Slice UInt8 :=
  ⟨bytes.val, bytes.property.trans_le h⟩

/-- A slice of the right length as an array, `s.try_into()`. -/
def Slice.try_into (s : Slice UInt8) (n : Nat) : Option (Bytes n) :=
  if h : s.val.length = n then some ⟨s.val, h⟩ else none

/-- Collects bytes into a vector. Growing past `isize::MAX` is the capacity
overflow panic. -/
def Vec.from {α : Type} (values : List α) : Result (Vec α) :=
  if h : values.length ≤ isizeMax then ok ⟨values, h⟩ else fail .capacityOverflow

theorem Vec.from_eq {α : Type} {values : List α} (h : values.length ≤ isizeMax) :
    ∃ v, Vec.from values = ok v ∧ v.val = values ∧ v.len = values.length :=
  ⟨⟨values, h⟩, dif_pos h, rfl, rfl⟩

end rust
