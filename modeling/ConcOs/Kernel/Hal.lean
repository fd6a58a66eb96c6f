import ConcOs.Kernel.Ppa
import ConcOs.Rust.Memory

open rust Result
open bootloader.bootinfo

namespace conc_os.allocation.ppa

/-- A `PhysicalPageAllocator` as it is in memory: its bitmap is a slice of the
memory that it allocates. -/
structure Pmm where
  bitmap : VirtAddr
  bitmap_len : Nat
  num_frames : Nat
  num_frames_le : num_frames ≤ usizeMax

namespace Pmm

/-- The allocator with what its bitmap holds. -/
def load (self : Pmm) (memory : Memory) : Result PhysicalPageAllocator := do
  let bitmap ← from_raw_parts_mut memory self.bitmap self.bitmap_len
  return ⟨bitmap, self.num_frames, self.num_frames_le⟩

/-- The memory after the allocator has written its bitmap. -/
def store (self : Pmm) (memory : Memory) (allocator : PhysicalPageAllocator) : Memory :=
  memory.write self.bitmap.val allocator.bitmap.val

/-- `PhysicalPageAllocator::new`, with the memory in which it leaves the bitmap. -/
def new (overflow_checks : Bool) (memory : Memory) (boot_info : BootInfo) : Result (Pmm × Memory) := do
  let place ← PhysicalPageAllocator.place_bitmap overflow_checks boot_info
  let allocator ← PhysicalPageAllocator.fill_bitmap place memory boot_info
  let pmm : Pmm :=
    ⟨place.bitmap_virt, allocator.bitmap.len, allocator.num_frames, allocator.num_frames_le⟩
  return (pmm, pmm.store memory allocator)

def alloc_contiguous_pages (self : Pmm) (memory : Memory) (count : Nat) : Result (Option PhysAddr × Memory) := do
  let (addr, allocator) ← (← self.load memory).alloc_contiguous_pages count
  return (addr, self.store memory allocator)

def dealloc_contiguous_pages (self : Pmm) (memory : Memory) (paddr count : Nat) : Result Memory := do
  let allocator ← (← self.load memory).dealloc_contiguous_pages paddr count
  return self.store memory allocator

end Pmm

end conc_os.allocation.ppa

namespace conc_os.memory

open conc_os.allocation.ppa

/-- The memory and the statics `PMM` and `OFFSET`. -/
structure Machine where
  ram : Memory
  pmm : Option Pmm
  offset : Option UInt64

def get_offset (self : Machine) : Result UInt64 := unwrap "offset must be initialized" self.offset

end conc_os.memory

namespace conc_os.allocation.allocator

open conc_os.memory conc_os.allocation.ppa

/-- `init_heap`, with the address and the size of the heap. -/
def init_heap (overflow_checks : Bool) (self : Machine) : Result ((UInt64 × Nat) × Machine) := do
  let pmm ← unwrap "PMM must be initialized before ALLOCATOR" self.pmm
  let (addr, memory) ← pmm.alloc_contiguous_pages self.ram 4096
  let addr ← unwrap "16MiB allocation failed" addr
  let vaddr ← U64.add overflow_checks (← get_offset self) (UInt64.ofNat addr.as_u64)
  return ((vaddr, 4096 * PAGE_SIZE), { self with ram := memory })

end conc_os.allocation.allocator

namespace conc_os.virtio

open conc_os.memory conc_os.allocation.ppa

/-- `NonNull::new`. -/
def NonNull.new (ptr : UInt64) : Option UInt64 := if ptr = 0 then none else some ptr

namespace KernelHal

def dma_alloc (overflow_checks : Bool) (self : Machine) (pages : Nat) :
    Result ((PhysAddr × UInt64) × Machine) := do
  let pmm ← unwrap "PMM must be initialized" self.pmm
  let (addr, memory) ← pmm.alloc_contiguous_pages self.ram pages
  let addr ← unwrap "allocation failed" addr
  let ptr ← U64.add overflow_checks (← get_offset self) (UInt64.ofNat addr.as_u64)
  let memory := memory.write_bytes ptr 0 (← Usize.mul pages PAGE_SIZE)
  let ptr ← unwrap "called `Option::unwrap()` on a `None` value" (NonNull.new ptr)
  return ((addr, ptr), { self with ram := memory })

def dma_dealloc (self : Machine) (paddr pages : Nat) : Result (Int32 × Machine) := do
  let pmm ← unwrap "PMM must be initialized" self.pmm
  let memory ← pmm.dealloc_contiguous_pages self.ram paddr pages
  return (0, { self with ram := memory })

def mmio_phys_to_virt (overflow_checks : Bool) (self : Machine) (paddr : UInt64) : Result UInt64 := do
  let ptr ← U64.add overflow_checks (← get_offset self) paddr
  unwrap "called `Option::unwrap()` on a `None` value" (NonNull.new ptr)

end KernelHal

end conc_os.virtio

namespace conc_os.memory

open conc_os.allocation.ppa conc_os.allocation.allocator conc_os.virtio

/-- What `main::init` does to the memory, with the address and the size of the heap. -/
def init (overflow_checks : Bool) (memory : Memory) (boot_info : BootInfo) :
    Result ((UInt64 × Nat) × Machine) := do
  let (pmm, memory) ← Pmm.new overflow_checks memory boot_info
  init_heap overflow_checks ⟨memory, some pmm, some boot_info.physical_memory_offset⟩

/-- `virtio_drivers::hal::Dma`, the pages that a driver holds. -/
structure Dma where
  paddr : PhysAddr
  vaddr : UInt64
  pages : Nat
deriving DecidableEq

/-- The machine with its heap and the buffers of its drivers. -/
structure System where
  machine : Machine
  heap : UInt64 × Nat
  buffers : List Dma

/-- The parts of the memory that have an owner, with their sizes. -/
def System.parts (self : System) : List (UInt64 × Nat) :=
  self.buffers.map (fun dma => (dma.vaddr, dma.pages * PAGE_SIZE)) ++ [self.heap]

inductive Label where
  | alloc (vaddr : UInt64) (pages : Nat)
  | dealloc (vaddr : UInt64)
  | write (vaddr : UInt64) (start : Nat) (bytes : List UInt8)

/-- Drivers allocate and free buffers. They, their devices and the users of the
heap write to what is theirs. -/
inductive Step (overflow_checks : Bool) : System → Label → System → Prop where
  | dma_alloc {s : System} {pages : Nat} {paddr : PhysAddr} {vaddr : UInt64} {after : Machine}
      (hcall : KernelHal.dma_alloc overflow_checks s.machine pages = ok ((paddr, vaddr), after)) :
      Step overflow_checks s (.alloc vaddr pages) ⟨after, s.heap, ⟨paddr, vaddr, pages⟩ :: s.buffers⟩
  | dma_dealloc {s : System} {dma : Dma} {code : Int32} {after : Machine} (hdma : dma ∈ s.buffers)
      (hcall : KernelHal.dma_dealloc s.machine dma.paddr.as_u64 dma.pages = ok (code, after)) :
      Step overflow_checks s (.dealloc dma.vaddr) ⟨after, s.heap, s.buffers.erase dma⟩
  | write {s : System} {part : UInt64 × Nat} {start : Nat} {bytes : List UInt8} (hpart : part ∈ s.parts)
      (hwithin : start + bytes.length ≤ part.2) :
      Step overflow_checks s (.write part.1 start bytes)
        { s with machine.ram := s.machine.ram.write (part.1 + UInt64.ofNat start) bytes }

/-- What the owners have in their parts of the memory, each apart from the
others. -/
abbrev Contents := UInt64 → Option (List UInt8)

/-- `bytes` in place of what a list has from `start` on. -/
def splice (contents : List UInt8) (start : Nat) (bytes : List UInt8) : List UInt8 :=
  contents.take start ++ bytes ++ contents.drop (start + bytes.length)

/-- A new buffer is zero, and a write changes what it is to and nothing else. -/
def Contents.apply (self : Contents) : Label → Contents
  | .alloc vaddr pages => Function.update self vaddr (some (List.replicate (pages * PAGE_SIZE) 0))
  | .dealloc vaddr => Function.update self vaddr none
  | .write vaddr start bytes =>
    Function.update self vaddr ((self vaddr).map fun contents => splice contents start bytes)

/-- The contents of the heap when it is made. -/
def Contents.initial (machine : Machine) (heap : UInt64 × Nat) : Contents :=
  Function.update (fun _ => none) heap.1 (some (machine.ram.read heap.1 heap.2))

end conc_os.memory
