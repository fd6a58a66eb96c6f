import Mathlib

namespace rust

/-- The bytes of a 64-bit address space. -/
abbrev Memory := UInt64 → UInt8

namespace Memory

def read (self : Memory) (ptr : UInt64) (len : Nat) : List UInt8 :=
  (List.range len).map fun i => self (ptr + UInt64.ofNat i)

/-- The memory after a copy of `bytes` to `ptr`. -/
def write (self : Memory) (ptr : UInt64) (bytes : List UInt8) : Memory :=
  fun addr => bytes.getD (addr - ptr).toNat (self addr)

/-- `ptr.write_bytes(value, count)`. -/
def write_bytes (self : Memory) (ptr : UInt64) (value : UInt8) (count : Nat) : Memory :=
  self.write ptr (List.replicate count value)

/-- The addresses of `len` bytes at `ptr`. -/
def block (ptr : UInt64) (len : Nat) : Set UInt64 := { addr | (addr - ptr).toNat < len }

@[simp] theorem length_read (self : Memory) (ptr : UInt64) (len : Nat) : (self.read ptr len).length = len := by
  simp [read]

/-- The distance between two addresses at offsets from a third. -/
theorem toNat_sub_add (ptr : UInt64) {i start : Nat} (hi : i < 2 ^ 64) (hstart : start ≤ i) :
    (ptr + UInt64.ofNat i - (ptr + UInt64.ofNat start)).toNat = i - start := by
  rw [UInt64.toNat_sub, UInt64.toNat_add, UInt64.toNat_add, UInt64.toNat_ofNat', UInt64.toNat_ofNat']
  omega

theorem toNat_add_sub (ptr : UInt64) {i : Nat} (h : i < 2 ^ 64) : (ptr + UInt64.ofNat i - ptr).toNat = i := by
  rw [UInt64.toNat_sub, UInt64.toNat_add, UInt64.toNat_ofNat']
  have := ptr.toNat_lt
  omega

/-- A block at a distance from the base, in terms of that distance. -/
theorem mem_block_add {base addr : UInt64} {start len : Nat} (h : start + len ≤ 2 ^ 64) :
    addr ∈ block (base + UInt64.ofNat start) len ↔
      start ≤ (addr - base).toNat ∧ (addr - base).toNat < start + len := by
  change (addr - (base + UInt64.ofNat start)).toNat < len ↔ _
  have haddr := addr.toNat_lt
  have hbase := base.toNat_lt
  rw [UInt64.toNat_sub, UInt64.toNat_add, UInt64.toNat_ofNat', UInt64.toNat_sub]
  omega

theorem write_of_notMem (self : Memory) {ptr addr : UInt64} {bytes : List UInt8}
    (h : addr ∉ block ptr bytes.length) : self.write ptr bytes addr = self addr :=
  List.getD_eq_default _ _ (Nat.le_of_not_lt h)

theorem read_congr {self other : Memory} {ptr : UInt64} {len : Nat} (hlen : len ≤ 2 ^ 64)
    (h : ∀ addr ∈ block ptr len, self addr = other addr) : self.read ptr len = other.read ptr len := by
  refine List.map_congr_left fun i hi => h _ ?_
  have hlt := List.mem_range.mp hi
  change (ptr + UInt64.ofNat i - ptr).toNat < len
  rwa [toNat_add_sub ptr (by omega)]

/-- The frame rule: a write elsewhere does not change what is read. -/
theorem read_write_disjoint (self : Memory) {ptr target : UInt64} {len : Nat} {bytes : List UInt8}
    (hlen : len ≤ 2 ^ 64) (h : Disjoint (block ptr len) (block target bytes.length)) :
    (self.write target bytes).read ptr len = self.read ptr len :=
  read_congr hlen fun _ haddr => self.write_of_notMem (Set.disjoint_left.mp h haddr)

/-- A write within a block is seen in its place and changes nothing else of it. -/
theorem read_write_within (self : Memory) (ptr : UInt64) {len offset : Nat} {bytes : List UInt8}
    (hlen : len ≤ 2 ^ 64) (h : offset + bytes.length ≤ len) :
    (self.write (ptr + UInt64.ofNat offset) bytes).read ptr len =
      (self.read ptr len).take offset ++ bytes ++ (self.read ptr len).drop (offset + bytes.length) := by
  apply List.ext_getElem
  · simp only [length_read, List.length_append, List.length_take, List.length_drop]
    omega
  intro i hi _
  rw [length_read] at hi
  have htake : ((self.read ptr len).take offset).length = offset := by
    rw [List.length_take, length_read]
    omega
  simp only [read, List.getElem_map, List.getElem_range]
  by_cases hbelow : i < offset
  · have hout : ptr + UInt64.ofNat i ∉ block (ptr + UInt64.ofNat offset) bytes.length := by
      rw [mem_block_add (by omega), toNat_add_sub ptr (by omega)]
      omega
    rw [self.write_of_notMem hout, List.getElem_append_left (by simp; omega),
      List.getElem_append_left (by simp; omega)]
    simp only [List.getElem_take, List.getElem_map, List.getElem_range]
  · rw [write, toNat_sub_add ptr (by omega) (by omega)]
    by_cases hin : i - offset < bytes.length
    · rw [List.getD_eq_getElem _ _ hin, List.getElem_append_left (by simp; omega),
        List.getElem_append_right (by simp; omega)]
      congr 1
      simp
      omega
    · rw [List.getD_eq_default _ _ (Nat.le_of_not_lt hin), List.getElem_append_right (by simp; omega)]
      simp only [List.getElem_drop, List.getElem_map, List.getElem_range]
      congr 3
      simp
      omega

theorem read_write_self (self : Memory) (ptr : UInt64) {bytes : List UInt8} (h : bytes.length ≤ 2 ^ 64) :
    (self.write ptr bytes).read ptr bytes.length = bytes := by
  have hzero : ptr + UInt64.ofNat 0 = ptr := UInt64.add_zero ptr
  have hwithin := self.read_write_within ptr h (Nat.le_of_eq (Nat.zero_add bytes.length))
  rw [hzero, Nat.zero_add, List.drop_of_length_le (length_read self ptr _).le, List.take_zero, List.nil_append,
    List.append_nil] at hwithin
  exact hwithin

theorem block_subset_block {ptr : UInt64} {start count len : Nat} (hlen : len ≤ 2 ^ 64)
    (h : start + count ≤ len) : block (ptr + UInt64.ofNat start) count ⊆ block ptr len := by
  intro addr haddr
  have hbounds := (mem_block_add (by omega)).mp haddr
  change (addr - ptr).toNat < len
  omega

/-- The addresses of the pages in a set, where `base` is mapped to page zero. -/
def pages (size : Nat) (base : UInt64) (numbers : Set Nat) : Set UInt64 :=
  { addr | (addr - base).toNat / size ∈ numbers }

theorem disjoint_pages (size : Nat) (base : UInt64) {numbers others : Set Nat} (h : Disjoint numbers others) :
    Disjoint (pages size base numbers) (pages size base others) :=
  Set.disjoint_left.mpr fun _ haddr hother => Set.disjoint_left.mp h haddr hother

/-- A block that starts with a page lies in the pages from there on. -/
theorem block_subset_pages {size : Nat} {base : UInt64} {start len count : Nat} (hsize : 0 < size)
    (hlen : len ≤ count * size) (hfits : start * size + len ≤ 2 ^ 64) :
    block (base + UInt64.ofNat (start * size)) len ⊆ pages size base (Set.Ico start (start + count)) := by
  intro addr haddr
  obtain ⟨hlow, hhigh⟩ := (mem_block_add hfits).mp haddr
  refine ⟨(Nat.le_div_iff_mul_le hsize).mpr hlow, (Nat.div_lt_iff_lt_mul hsize).mpr ?_⟩
  rw [Nat.add_mul]
  omega

/-- The frame rule for pages. -/
theorem read_write_pages (self : Memory) {size : Nat} {base ptr target : UInt64} {len : Nat} {bytes : List UInt8}
    {numbers others : Set Nat} (hlen : len ≤ 2 ^ 64) (hread : block ptr len ⊆ pages size base numbers)
    (hwrite : block target bytes.length ⊆ pages size base others) (h : Disjoint numbers others) :
    (self.write target bytes).read ptr len = self.read ptr len :=
  self.read_write_disjoint hlen ((disjoint_pages size base h).mono hread hwrite)

end Memory

end rust
