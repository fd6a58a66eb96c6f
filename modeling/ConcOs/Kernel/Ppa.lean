import ConcOs.Rust.Bitmap

open rust Result

namespace bootloader.bootinfo

inductive MemoryRegionType where
  | Usable
  | InUse
  | Reserved
  | AcpiReclaimable
  | AcpiNvs
  | BadMemory
  | Kernel
  | KernelStack
  | PageTable
  | Bootloader
  | FrameZero
  | Empty
  | BootInfo
  | Package
  | NonExhaustive
deriving DecidableEq

/-- A range of frames whose addresses are `u64`. -/
structure FrameRange where
  start_frame_number : UInt64
  end_frame_number : UInt64
  start_le_end : start_frame_number ≤ end_frame_number
  end_fits : end_frame_number.toNat * 4096 < 2 ^ 64

def FrameRange.start_addr (self : FrameRange) : UInt64 := self.start_frame_number * 4096

def FrameRange.end_addr (self : FrameRange) : UInt64 := self.end_frame_number * 4096

structure MemoryRegion where
  range : FrameRange
  region_type : MemoryRegionType

structure BootInfo where
  memory_map : List MemoryRegion
  physical_memory_offset : UInt64

end bootloader.bootinfo

namespace conc_os.allocation.ppa

open bootloader.bootinfo

def PAGE_SIZE : Nat := 4096

/-- `x86_64::PhysAddr`, an address without bits 52 to 63. -/
structure PhysAddr where
  val : Nat
  property : val < 2 ^ 52
deriving DecidableEq

/-- `PhysAddr::new`, which panics on an invalid address. -/
def PhysAddr.new (addr : Nat) : Result PhysAddr :=
  if h : addr < 2 ^ 52 then ok ⟨addr, h⟩
  else fail (.expect "physical addresses must not have any bits in the range 52 to 64 set")

def PhysAddr.as_u64 (self : PhysAddr) : Nat := self.val

/-- `x86_64::VirtAddr`, an address whose bits 48 to 63 repeat bit 47. -/
structure VirtAddr where
  val : UInt64
  property : val.toNat < 2 ^ 47 ∨ 2 ^ 64 - 2 ^ 47 ≤ val.toNat

/-- `VirtAddr::new`, which panics on an invalid address. -/
def VirtAddr.new (addr : UInt64) : Result VirtAddr :=
  if h : addr.toNat < 2 ^ 47 ∨ 2 ^ 64 - 2 ^ 47 ≤ addr.toNat then ok ⟨addr, h⟩
  else fail (.expect "virtual address must be sign extended in bits 48 to 64")

theorem VirtAddr.val_of_new {addr : UInt64} {virt : VirtAddr} (h : VirtAddr.new addr = ok virt) :
    virt.val = addr := by
  unfold VirtAddr.new at h
  split at h
  · rw [← ok.inj h]
  · cases h

/-- `core::slice::from_raw_parts_mut`, on the contents of the memory. A slice
longer than `isize::MAX` would be undefined. -/
def from_raw_parts_mut (memory : UInt64 → UInt8) (data : VirtAddr) (len : Nat) : Result (Slice UInt8) :=
  Vec.from ((List.range len).map fun i => memory (data.val + UInt64.ofNat i))

theorem div_ceil_page_le (addr : UInt64) : Usize.div_ceil addr.toNat PAGE_SIZE ≤ usizeMax := by
  have hlt := addr.toNat_lt
  rw [Usize.div_ceil_eq _ (by decide), PAGE_SIZE, usizeMax]
  omega

/-- The allocator; the number of frames is a `usize`. -/
structure PhysicalPageAllocator where
  bitmap : Slice UInt8
  num_frames : Nat
  num_frames_le : num_frames ≤ usizeMax

namespace PhysicalPageAllocator

def is_free (self : PhysicalPageAllocator) (page : Nat) : Result Bool := do
  let byte ← self.bitmap.index (page / 8)
  return (byte &&& ((1 : UInt8) <<< UInt8.ofNat (page % 8))) = 0

def set_bit (self : PhysicalPageAllocator) (frame : Nat) (used : Bool) : Result PhysicalPageAllocator := do
  let byte ← self.bitmap.index (frame / 8)
  let bit := (1 : UInt8) <<< UInt8.ofNat (frame % 8)
  let bitmap ← self.bitmap.set (frame / 8) (if used then byte ||| bit else byte &&& ~~~bit)
  return { self with bitmap := bitmap }

def set_used (self : PhysicalPageAllocator) (page : Nat) : Result PhysicalPageAllocator :=
  self.set_bit page true

def set_unused (self : PhysicalPageAllocator) (page : Nat) : Result PhysicalPageAllocator :=
  self.set_bit page false

def mark_region_free (self : PhysicalPageAllocator) (start stop : Nat) : Result PhysicalPageAllocator :=
  let first := start / PAGE_SIZE
  let last := Usize.div_ceil stop PAGE_SIZE
  (List.range' first (last - first)).foldlM (fun self frame => self.set_bit frame false) self

def mark_region_used (self : PhysicalPageAllocator) (start stop : Nat) : Result PhysicalPageAllocator :=
  let first := start / PAGE_SIZE
  let last := Usize.div_ceil stop PAGE_SIZE
  (List.range' first (last - first)).foldlM (fun self frame => self.set_used frame) self

/-- One iteration of the loop that frees the usable regions. -/
def free_usable (self : PhysicalPageAllocator) (region : MemoryRegion) : Result PhysicalPageAllocator :=
  if region.region_type = .Usable then
    self.mark_region_free region.range.start_addr.toNat region.range.end_addr.toNat
  else ok self

/-- What the first half of `new` finds out: how many frames there are, and where
the bitmap of them goes. -/
structure Placement where
  num_frames : Nat
  num_frames_le : num_frames ≤ usizeMax
  bitmap_bytes : Nat
  bitmap_size : Nat
  bitmap_phys : PhysAddr
  bitmap_virt : VirtAddr

/-- `PhysicalPageAllocator::new` as far as it only reads the memory map. -/
def place_bitmap (overflow_checks : Bool) (boot_info : BootInfo) : Result Placement := do
  let max_phys ← unwrap "called `Option::unwrap()` on a `None` value"
    (boot_info.memory_map.map fun r => r.range.end_addr).max?
  let num_frames := Usize.div_ceil max_phys.toNat PAGE_SIZE
  let bitmap_bytes := Usize.div_ceil num_frames 8
  let bitmap_pages := Usize.div_ceil bitmap_bytes PAGE_SIZE
  let bitmap_size ← Usize.mul bitmap_pages PAGE_SIZE
  let region ← unwrap "no usable region large enough for bitmap" (boot_info.memory_map.find? fun r =>
    r.region_type = .Usable ∧ (r.range.end_addr - r.range.start_addr).toNat ≥ bitmap_size)
  let bitmap_phys ← PhysAddr.new region.range.start_addr.toNat
  let bitmap_virt ← VirtAddr.new
    (← U64.add overflow_checks boot_info.physical_memory_offset (UInt64.ofNat bitmap_phys.as_u64))
  return ⟨num_frames, div_ceil_page_le max_phys, bitmap_bytes, bitmap_size, bitmap_phys, bitmap_virt⟩

/-- The rest of `PhysicalPageAllocator::new`, which fills the bitmap. -/
def fill_bitmap (place : Placement) (memory : UInt64 → UInt8) (boot_info : BootInfo) :
    Result PhysicalPageAllocator := do
  let bitmap ← from_raw_parts_mut memory place.bitmap_virt place.bitmap_bytes
  -- Everything starts allocated.
  let allocator : PhysicalPageAllocator := ⟨bitmap.fill 0xff, place.num_frames, place.num_frames_le⟩
  let allocator ← boot_info.memory_map.foldlM free_usable allocator
  -- Reserve the bitmap itself.
  allocator.mark_region_used place.bitmap_phys.as_u64
    (← Usize.add place.bitmap_phys.as_u64 place.bitmap_size)

/-- `PhysicalPageAllocator::new`, on the contents of the memory. -/
def new (overflow_checks : Bool) (memory : UInt64 → UInt8) (boot_info : BootInfo) :
    Result PhysicalPageAllocator := do
  fill_bitmap (← place_bitmap overflow_checks boot_info) memory boot_info

/-- One iteration of the search, on the current page and the run of free pages
before it. -/
def find_step (self : PhysicalPageAllocator) (count : Nat) (state : Nat × Nat × Nat) :
    Result (ControlFlow (Nat × Nat × Nat) (Option Nat)) := do
  let (page, run_start, run_length) := state
  if page < self.num_frames then
    if ← self.is_free page then
      let run_start := if run_length = 0 then page else run_start
      let run_length ← Usize.add run_length 1
      if run_length = count then return .done (some run_start)
      return .cont (page + 1, run_start, run_length)
    else return .cont (page + 1, run_start, 0)
  else return .done none

def find_contiguous_pages (self : PhysicalPageAllocator) (count : Nat) : Result (Option Nat) :=
  if count = 0 then ok none
  else loop (self.find_step count) (self.num_frames + 1) (0, 0, 0)

def alloc_contiguous_pages (self : PhysicalPageAllocator) (count : Nat) :
    Result (Option PhysAddr × PhysicalPageAllocator) := do
  match ← self.find_contiguous_pages count with
  | none => return (none, self)
  | some start =>
    let stop ← Usize.add start count
    let self ← (List.range' start (stop - start)).foldlM (fun self page => self.set_used page) self
    let addr ← PhysAddr.new (← Usize.mul start 4096)
    return (some addr, self)

def dealloc_contiguous_pages (self : PhysicalPageAllocator) (paddr count : Nat) :
    Result PhysicalPageAllocator := do
  let page := paddr / 4096
  let stop ← Usize.add page count
  (List.range' page (stop - page)).foldlM (fun self page => self.set_unused page) self

end PhysicalPageAllocator

end conc_os.allocation.ppa
