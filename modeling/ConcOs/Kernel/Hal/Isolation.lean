import ConcOs.Kernel.Hal.Placement

open rust Result
open bootloader.bootinfo

namespace conc_os.memory

open conc_os.allocation conc_os.allocation.ppa conc_os.virtio

/-- The allocations behind the parts of the memory. -/
def allocations (buffers : List Dma) (heap : PhysAddr) : List (PhysAddr × Nat) :=
  buffers.map (fun dma => (dma.paddr, dma.pages)) ++ [(heap, 4096)]

/-- The allocator in memory is where a client of its own has brought it to, and
each part of the memory holds what its owner has put there. -/
structure Isolated (pmm : Pmm) (offset : UInt64) (fresh : PhysicalPageAllocator) (heap : PhysAddr)
    (contents : Contents) (s : System) : Prop where
  static_pmm : s.machine.pmm = some pmm
  static_offset : s.machine.offset = some offset
  refines : ∃ allocator, pmm.load s.machine.ram = ok allocator ∧
    Relation.ReflTransGen ppa.Step ⟨fresh, []⟩ ⟨allocator, allocations s.buffers heap⟩
  whole : ∀ a ∈ allocations s.buffers heap, WholePages a
  vaddr : ∀ dma ∈ s.buffers, dma.vaddr = bufferAddr offset (dma.paddr, dma.pages)
  heap_part : s.heap = (bufferAddr offset (heap, 4096), 4096 * 4096)
  held : ∀ a ∈ allocations s.buffers heap,
    contents (bufferAddr offset a) = some (s.machine.ram.read (bufferAddr offset a) (a.2 * 4096))

theorem NonNull.eq_of_new {ptr other : UInt64} (h : NonNull.new ptr = some other) : ptr = other := by
  unfold NonNull.new at h
  split at h
  · cases h
  · exact Option.some.inj h

/-- What a successful `dma_alloc` has done. -/
theorem dma_alloc_inv {machine after : Machine} {pmm : Pmm} {offset vaddr : UInt64}
    {allocator : PhysicalPageAllocator} {overflow_checks : Bool} {pages : Nat} {paddr : PhysAddr}
    (hpmm : machine.pmm = some pmm) (hoffset : machine.offset = some offset)
    (hload : pmm.load machine.ram = ok allocator)
    (hcall : KernelHal.dma_alloc overflow_checks machine pages = ok ((paddr, vaddr), after)) :
    ∃ next, allocator.alloc_contiguous_pages pages = ok (some paddr, next) ∧
      vaddr = bufferAddr offset (paddr, pages) ∧
      after = { machine with ram := (pmm.store machine.ram next).write_bytes vaddr 0 (pages * 4096) } := by
  simp only [KernelHal.dma_alloc, hpmm, unwrap_some, bind_tc_ok, get_offset, hoffset] at hcall
  obtain ⟨⟨found, ram⟩, halloc, hcall⟩ := bind_eq_ok_iff.mp hcall
  obtain ⟨addr, haddr, hcall⟩ := bind_eq_ok_iff.mp hcall
  obtain ⟨ptr, hptr, hcall⟩ := bind_eq_ok_iff.mp hcall
  obtain ⟨size, hsize, hcall⟩ := bind_eq_ok_iff.mp hcall
  obtain ⟨nonnull, hnonnull, hcall⟩ := bind_eq_ok_iff.mp hcall
  obtain ⟨hpair, hafter⟩ := Prod.mk.inj (ok.inj hcall)
  obtain ⟨rfl, rfl⟩ := Prod.mk.inj hpair
  obtain rfl : ptr = nonnull := NonNull.eq_of_new (unwrap_eq_ok hnonnull)
  obtain rfl : found = some addr := unwrap_eq_ok haddr
  obtain ⟨next, hnext, rfl⟩ := Pmm.alloc_inv hload halloc
  refine ⟨next, hnext, U64.eq_of_add hptr, ?_⟩
  rw [← hafter, hpmm, hoffset, Usize.eq_of_mul hsize]
  rfl

theorem dma_dealloc_inv {machine after : Machine} {pmm : Pmm} {allocator : PhysicalPageAllocator}
    {paddr pages : Nat} {code : Int32} (hpmm : machine.pmm = some pmm)
    (hload : pmm.load machine.ram = ok allocator)
    (hcall : KernelHal.dma_dealloc machine paddr pages = ok (code, after)) :
    ∃ next, allocator.dealloc_contiguous_pages paddr pages = ok next ∧
      after = { machine with ram := pmm.store machine.ram next } := by
  simp only [KernelHal.dma_dealloc, hpmm, unwrap_some, bind_tc_ok, Pmm.dealloc_contiguous_pages, hload] at hcall
  obtain ⟨ram, hdealloc, hcall⟩ := bind_eq_ok_iff.mp hcall
  obtain ⟨next, hnext, hram⟩ := bind_eq_ok_iff.mp hdealloc
  refine ⟨next, hnext, ?_⟩
  rw [← (Prod.mk.inj (ok.inj hcall)).2, hpmm, ← ok.inj hram]

namespace Isolated

variable {memory_map : List MemoryRegion} {region : MemoryRegion} {offset : UInt64} {pmm : Pmm}
  {fresh : PhysicalPageAllocator} {heap : PhysAddr} {contents : Contents} {s : System}

theorem parts_eq (h : Isolated pmm offset fresh heap contents s) :
    s.parts = (allocations s.buffers heap).map fun a => (bufferAddr offset a, a.2 * 4096) := by
  rw [System.parts, allocations, List.map_append, List.map_map, h.heap_part]
  refine congrArg (· ++ _) (List.map_congr_left fun dma hdma => ?_)
  rw [h.vaddr dma hdma]
  rfl

/-- A write to one part of the memory. -/
theorem write (h : Isolated pmm offset fresh heap contents s)
    (hfresh : PhysicalPageAllocator.Fresh memory_map region fresh)
    (hplaced : Placed memory_map region offset pmm)
    {part : UInt64 × Nat} {start : Nat} {bytes : List UInt8} (hpart : part ∈ s.parts)
    (hwithin : start + bytes.length ≤ part.2) :
    Isolated pmm offset fresh heap (contents.apply (.write part.1 start bytes))
      { s with machine.ram := s.machine.ram.write (part.1 + UInt64.ofNat start) bytes } := by
  obtain ⟨allocator, hload, hreach⟩ := h.refines
  have howned : Owned fresh ⟨allocator, allocations s.buffers heap⟩ := Owned.of_reaches hfresh.sized hreach
  rw [h.parts_eq] at hpart
  obtain ⟨a, ha, rfl⟩ := List.mem_map.mp hpart
  dsimp only at hwithin ⊢
  have hwrite : Memory.block (bufferAddr offset a + UInt64.ofNat start) bytes.length ⊆
      Memory.pages 4096 offset (frames a) :=
    (Memory.block_subset_block (buffer_size_le hfresh hplaced howned ha) hwithin).trans
      (buffer_subset hfresh hplaced howned ha (h.whole a ha))
  refine { h with refines := ⟨allocator, ?_, hreach⟩, held := fun b hb => ?_ }
  · rw [← hload]
    exact hplaced.load_write _ hwrite (Fresh.apart_bitmap hfresh hplaced howned ha).symm
  · have hsize := buffer_size_le hfresh hplaced howned hb
    dsimp only
    by_cases hsame : a = b
    · subst hsame
      rw [Contents.apply, Function.update_self, h.held a ha, Option.map_some,
        s.machine.ram.read_write_within _ hsize hwithin, splice]
    · obtain ⟨hapart, hne⟩ := buffers_apart hfresh hplaced howned h.whole ha hb hsame
      rw [Contents.apply, Function.update_of_ne hne.symm, h.held b hb,
        s.machine.ram.read_write_pages hsize (buffer_subset hfresh hplaced howned hb (h.whole b hb)) hwrite
          hapart.symm]

/-- The part of the memory that a new buffer is. -/
theorem dma_alloc (h : Isolated pmm offset fresh heap contents s)
    (hfresh : PhysicalPageAllocator.Fresh memory_map region fresh)
    (hplaced : Placed memory_map region offset pmm)
    {overflow_checks : Bool} {pages : Nat} {paddr : PhysAddr} {vaddr : UInt64} {after : Machine}
    (hcall : KernelHal.dma_alloc overflow_checks s.machine pages = ok ((paddr, vaddr), after)) :
    Isolated pmm offset fresh heap (contents.apply (.alloc vaddr pages))
      ⟨after, s.heap, ⟨paddr, vaddr, pages⟩ :: s.buffers⟩ := by
  obtain ⟨allocator, hload, hreach⟩ := h.refines
  have howned : Owned fresh ⟨allocator, allocations s.buffers heap⟩ := Owned.of_reaches hfresh.sized hreach
  obtain ⟨next, hnext, rfl, rfl⟩ := dma_alloc_inv h.static_pmm h.static_offset hload hcall
  obtain ⟨hlen₀, hframes₀⟩ := Pmm.load_inv hload
  obtain ⟨hwhole, hlen, hframes⟩ := WholePages.of_alloc howned.sized hnext
  have hlive := hreach.tail (.alloc hnext)
  have howned' := Owned.of_reaches hfresh.sized hlive
  have hnew : (paddr, pages) ∈ (paddr, pages) :: allocations s.buffers heap := List.mem_cons_self
  have hall : ∀ a ∈ (paddr, pages) :: allocations s.buffers heap, WholePages a :=
    List.forall_mem_cons.mpr ⟨hwhole, h.whole⟩
  have hzero : (List.replicate (pages * 4096) (0 : UInt8)).length = pages * 4096 := List.length_replicate
  have hwrite : Memory.block (bufferAddr offset (paddr, pages)) (List.replicate (pages * 4096)
    (0 : UInt8)).length ⊆
      Memory.pages 4096 offset (frames (paddr, pages)) := by
    rw [hzero]
    exact buffer_subset hfresh hplaced howned' hnew hwhole
  refine ⟨h.static_pmm, h.static_offset, ⟨next, ?_, hlive⟩, hall,
    List.forall_mem_cons.mpr ⟨rfl, h.vaddr⟩, h.heap_part, fun a ha => ?_⟩
  · rw [Memory.write_bytes, hplaced.load_write _ hwrite (Fresh.apart_bitmap hfresh hplaced howned' hnew).symm]
    exact Pmm.load_store _ (hlen.trans hlen₀) (hframes.trans hframes₀)
  · have hsize := buffer_size_le hfresh hplaced howned' ha
    by_cases hsame : a = (paddr, pages)
    · subst hsame
      rw [Contents.apply, Function.update_self]
      have hread := (pmm.store s.machine.ram next).read_write_self (bufferAddr offset (paddr, pages))
        (hzero.trans_le hsize)
      rw [hzero] at hread
      exact congrArg some hread.symm
    · have hold : a ∈ allocations s.buffers heap := (List.mem_cons.mp ha).resolve_left hsame
      obtain ⟨hapart, hne⟩ := buffers_apart hfresh hplaced howned' hall ha hnew hsame
      have hread := buffer_subset hfresh hplaced howned' ha (hall a ha)
      rw [Contents.apply, Function.update_of_ne hne, h.held a hold, Memory.write_bytes,
        Memory.read_write_pages _ hsize hread hwrite hapart,
        hplaced.read_store _ (hlen.trans hlen₀) hsize hread (Fresh.apart_bitmap hfresh hplaced howned' ha)]

theorem erase_allocations (h : Isolated pmm offset fresh heap contents s)
    {allocator : PhysicalPageAllocator} (howned : Owned fresh ⟨allocator, allocations s.buffers heap⟩)
    {dma : Dma}
    (hdma : dma ∈ s.buffers) :
    (allocations s.buffers heap).erase (dma.paddr, dma.pages) = allocations (s.buffers.erase dma) heap := by
  obtain ⟨before, rest, _, hsplit, herase⟩ := List.exists_erase_eq hdma
  have hnodup := howned.nodup h.whole
  rw [herase]
  simp only [allocations, hsplit, List.map_append, List.map_cons, List.append_assoc,
    List.cons_append] at hnodup ⊢
  have hnot : (dma.paddr, dma.pages) ∉ before.map fun dma => (dma.paddr, dma.pages) := fun hmem =>
    (List.nodup_append.mp hnodup).2.2 _ hmem _ List.mem_cons_self rfl
  rw [List.erase_append_right _ hnot, List.erase_cons_head]

/-- What is left when a buffer is freed. -/
theorem dma_dealloc (h : Isolated pmm offset fresh heap contents s)
    (hfresh : PhysicalPageAllocator.Fresh memory_map region fresh)
    (hplaced : Placed memory_map region offset pmm)
    {dma : Dma} {code : Int32} {after : Machine} (hdma : dma ∈ s.buffers)
    (hcall : KernelHal.dma_dealloc s.machine dma.paddr.as_u64 dma.pages = ok (code, after)) :
    Isolated pmm offset fresh heap (contents.apply (.dealloc dma.vaddr))
      ⟨after, s.heap, s.buffers.erase dma⟩ := by
  obtain ⟨allocator, hload, hreach⟩ := h.refines
  have howned : Owned fresh ⟨allocator, allocations s.buffers heap⟩ := Owned.of_reaches hfresh.sized hreach
  obtain ⟨next, hnext, rfl⟩ := dma_dealloc_inv h.static_pmm hload hcall
  obtain ⟨hlen₀, hframes₀⟩ := Pmm.load_inv hload
  have hlive : (dma.paddr, dma.pages) ∈ allocations s.buffers heap :=
    List.mem_append_left _ (List.mem_map_of_mem hdma)
  obtain ⟨hlen, hframes⟩ := dealloc_len howned hlive hnext
  have herase := h.erase_allocations howned hdma
  have hstill : ∀ a ∈ allocations (s.buffers.erase dma) heap,
      a ∈ allocations s.buffers heap ∧ a ≠ (dma.paddr, dma.pages) := by
    intro a ha
    rw [← herase] at ha
    exact ⟨List.mem_of_mem_erase ha, fun heq => (howned.nodup h.whole).not_mem_erase (heq ▸ ha)⟩
  refine ⟨h.static_pmm, h.static_offset,
    ⟨next, Pmm.load_store _ (hlen.trans hlen₀) (hframes.trans hframes₀), ?_⟩,
    fun a ha => h.whole a (hstill a ha).1,
    fun other hother => h.vaddr other (List.mem_of_mem_erase hother), h.heap_part, fun a ha => ?_⟩
  · rw [← herase]
    exact hreach.tail (.dealloc hlive hnext)
  · obtain ⟨hold, hother⟩ := hstill a ha
    obtain ⟨_, hne⟩ := buffers_apart hfresh hplaced howned h.whole hold hlive hother
    rw [Contents.apply, h.vaddr dma hdma, Function.update_of_ne hne, h.held a hold,
      hplaced.read_store _ (hlen.trans hlen₀) (buffer_size_le hfresh hplaced howned hold)
        (buffer_subset hfresh hplaced howned hold (h.whole a hold))
          (Fresh.apart_bitmap hfresh hplaced howned hold)]

theorem step (h : Isolated pmm offset fresh heap contents s)
    (hfresh : PhysicalPageAllocator.Fresh memory_map region fresh)
    (hplaced : Placed memory_map region offset pmm)
    {overflow_checks : Bool} {label : Label} {t : System} (hstep : Step overflow_checks s label t) :
    Isolated pmm offset fresh heap (contents.apply label) t := by
  cases hstep with
  | dma_alloc hcall => exact h.dma_alloc hfresh hplaced hcall
  | dma_dealloc hdma hcall => exact h.dma_dealloc hfresh hplaced hdma hcall
  | write hpart hwithin => exact h.write hfresh hplaced hpart hwithin

end Isolated

/-- Where there is room for the bitmap and for a run of 4096 more frames, `init`
returns. -/
theorem init_returns {overflow_checks : Bool} (memory : Memory) {boot_info : BootInfo} {region : MemoryRegion}
    (hregion : BitmapRegion boot_info.memory_map region)
    (haddressable : Addressable overflow_checks boot_info region)
    {start : Nat} (hroom : ∀ frame, start ≤ frame → frame < start + 4096 →
      InUsable boot_info.memory_map frame ∧ frame ∉ bitmapFrames boot_info.memory_map region)
    (hphys : numFrames boot_info.memory_map ≤ 2 ^ 40) (hsum : overflow_checks = true →
      boot_info.physical_memory_offset.toNat + numFrames boot_info.memory_map * 4096 < 2 ^ 64) :
    ∃ heap machine, init overflow_checks memory boot_info = ok (heap, machine) := by
  obtain ⟨pmm, ram, hnew⟩ := Pmm.new_returns memory hregion haddressable
  obtain ⟨other, fresh, _, hfresh, hplaced, hload⟩ := Pmm.new_inv hnew
  obtain rfl := hplaced.region.unique hregion
  have hfree : fresh.FreeRun start 4096 := by
    intro frame hlow hhigh
    obtain ⟨husable, hbitmap⟩ := hroom frame hlow hhigh
    obtain ⟨r, hr, _, hframe⟩ := husable
    have hlt : frame < fresh.num_frames := by
      rw [hfresh.num_frames]
      exact hframe.2.trans_le (le_numFrames hr)
    exact (hfresh.free frame hlt).mpr (hroom frame hlow hhigh)
  have hbound : start + 4096 ≤ fresh.num_frames := by
    obtain ⟨⟨r, hr, _, hframe⟩, _⟩ := hroom (start + 4095) (by omega) (by omega)
    have hle := le_numFrames hr
    have hlt : start + 4095 < r.range.end_frame_number.toNat := hframe.2
    rw [hfresh.num_frames]
    omega
  obtain ⟨addr, after, halloc, haddr⟩ := PhysicalPageAllocator.alloc_returns hfresh.sized.covers
    (show 0 < 4096 by decide) hfree hbound (hfresh.num_frames ▸ hphys)
  rw [hfresh.num_frames] at haddr
  have hadd : U64.add overflow_checks boot_info.physical_memory_offset (UInt64.ofNat addr.as_u64) =
      ok (boot_info.physical_memory_offset + UInt64.ofNat addr.as_u64) := by
    refine U64.add_eq fun hchecks => ?_
    have hlimit := hsum hchecks
    rw [UInt64.toNat_ofNat']
    omega
  refine ⟨(boot_info.physical_memory_offset + UInt64.ofNat addr.as_u64, 4096 * PAGE_SIZE),
    ⟨pmm.store ram after, some pmm, some boot_info.physical_memory_offset⟩, ?_⟩
  simp only [init, hnew, bind_tc_ok, allocator.init_heap, unwrap_some, Pmm.alloc_contiguous_pages, hload,
    halloc, get_offset, hadd, pure_eq_ok]

/-- Where there is a run of free frames, `dma_alloc` returns. -/
theorem dma_alloc_returns (overflow_checks : Bool) {machine : Machine} {pmm : Pmm} {offset : UInt64}
    {allocator : PhysicalPageAllocator} (hpmm : machine.pmm = some pmm) (hoffset : machine.offset = some offset)
    (hload : pmm.load machine.ram = ok allocator) (hcovers : allocator.Covers) {pages start : Nat}
    (hpages : 0 < pages) (hfree : allocator.FreeRun start pages) (hbound : start + pages ≤ allocator.num_frames)
    (hphys : allocator.num_frames ≤ 2 ^ 40) (hpos : 0 < offset.toNat)
    (hsum : offset.toNat + allocator.num_frames * 4096 < 2 ^ 64) :
    ∃ paddr vaddr after, KernelHal.dma_alloc overflow_checks machine pages = ok ((paddr, vaddr), after) := by
  obtain ⟨addr, after, halloc, haddr⟩ := PhysicalPageAllocator.alloc_returns hcovers hpages hfree hbound hphys
  have haddr' : (UInt64.ofNat addr.as_u64).toNat = addr.as_u64 := by
    rw [UInt64.toNat_ofNat']
    exact Nat.mod_eq_of_lt (by omega)
  have hadd : U64.add overflow_checks offset (UInt64.ofNat addr.as_u64) =
      ok (offset + UInt64.ofNat addr.as_u64) := U64.add_eq fun _ => by omega
  have hsize : Usize.mul pages PAGE_SIZE = ok (pages * PAGE_SIZE) := by
    rw [Usize.mul, if_pos]
    simp only [PAGE_SIZE, usizeMax]
    omega
  have hnonnull : offset + UInt64.ofNat addr.as_u64 ≠ 0 := by
    intro hzero
    have htoNat := congrArg UInt64.toNat hzero
    rw [UInt64.toNat_add, haddr', Nat.mod_eq_of_lt (by omega)] at htoNat
    have hzero' : offset.toNat + addr.as_u64 = 0 := htoNat
    omega
  simp only [KernelHal.dma_alloc, hpmm, unwrap_some, bind_tc_ok, Pmm.alloc_contiguous_pages, hload, halloc,
    get_offset, hoffset, hadd, hsize, NonNull.new, if_neg hnonnull, pure_eq_ok]
  exact ⟨_, _, _, rfl⟩

/-- After `init` the heap is the only part of the memory that has an owner. -/
theorem init_inv {overflow_checks : Bool} {memory : Memory} {boot_info : BootInfo} {heap : UInt64 × Nat}
    {machine : Machine} (h : init overflow_checks memory boot_info = ok (heap, machine)) :
    ∃ region fresh pmm addr, PhysicalPageAllocator.new overflow_checks memory boot_info = ok fresh ∧
      PhysicalPageAllocator.Fresh boot_info.memory_map region fresh ∧
      Placed boot_info.memory_map region boot_info.physical_memory_offset pmm ∧
      Isolated pmm boot_info.physical_memory_offset fresh addr (Contents.initial machine heap)
        ⟨machine, heap, []⟩ := by
  obtain ⟨⟨pmm, ram⟩, hnew, h⟩ := bind_eq_ok_iff.mp h
  obtain ⟨region, fresh, hnew, hfresh, hplaced, hload⟩ := Pmm.new_inv hnew
  simp only [allocator.init_heap, unwrap_some, bind_tc_ok, get_offset] at h
  obtain ⟨⟨found, after⟩, halloc, h⟩ := bind_eq_ok_iff.mp h
  obtain ⟨addr, haddr, h⟩ := bind_eq_ok_iff.mp h
  obtain ⟨vaddr, hvaddr, h⟩ := bind_eq_ok_iff.mp h
  obtain ⟨rfl, rfl⟩ := Prod.mk.inj (ok.inj h)
  obtain rfl : found = some addr := unwrap_eq_ok haddr
  obtain ⟨next, hnext, rfl⟩ := Pmm.alloc_inv hload halloc
  obtain ⟨hlen₀, hframes₀⟩ := Pmm.load_inv hload
  obtain ⟨hwhole, hlen, hframes⟩ := WholePages.of_alloc hfresh.sized hnext
  have hvaddr' : vaddr = bufferAddr boot_info.physical_memory_offset (addr, 4096) := U64.eq_of_add hvaddr
  refine ⟨region, fresh, pmm, addr, hnew, hfresh, hplaced, rfl, rfl,
    ⟨next, Pmm.load_store _ (hlen.trans hlen₀) (hframes.trans hframes₀), .single (.alloc hnext)⟩, ?_, by simp,
    ?_, ?_⟩
  · exact List.forall_mem_singleton.mpr hwhole
  · rw [hvaddr']
    rfl
  · refine List.forall_mem_singleton.mpr ?_
    rw [← hvaddr', Contents.initial, Function.update_self]
    rfl

/-- The memory that drivers get from `dma_alloc` and the heap are theirs alone.
Whatever they, their devices and the users of the heap do, and in whatever order,
each part of the memory holds what was written to it last, a new buffer is zero,
and the bitmap in memory is that of an allocator whose client has made the same
calls. Every buffer can be freed. -/
theorem dma_isolation {overflow_checks : Bool} {memory : Memory} {boot_info : BootInfo} {heap : UInt64 × Nat}
    {machine : Machine} (hinit : init overflow_checks memory boot_info = ok (heap, machine)) {trace : List Label}
    {s : System} (hrun : Run (Step overflow_checks) ⟨machine, heap, []⟩ trace s) :
    (∀ part ∈ s.parts, trace.foldl Contents.apply (Contents.initial machine heap) part.1 =
        some (s.machine.ram.read part.1 part.2)) ∧
      (∃ fresh pmm allocator addr, PhysicalPageAllocator.new overflow_checks memory boot_info = ok fresh ∧
        s.machine.pmm = some pmm ∧ pmm.load s.machine.ram = ok allocator ∧
        Relation.ReflTransGen ppa.Step ⟨fresh, []⟩ ⟨allocator, allocations s.buffers addr⟩) ∧
      ∀ dma ∈ s.buffers, ∃ result, KernelHal.dma_dealloc s.machine dma.paddr.as_u64 dma.pages = ok result := by
  obtain ⟨region, fresh, pmm, addr, hnew, hfresh, hplaced, hinitial⟩ := init_inv hinit
  have hisolated := hrun.invariant
    (fun trace s => Isolated pmm boot_info.physical_memory_offset fresh addr
      (trace.foldl Contents.apply (Contents.initial machine heap)) s) hinitial
    (fun trace label s t h hstep => by
      rw [List.foldl_append]
      exact h.step hfresh hplaced hstep)
  obtain ⟨allocator, hload, hreach⟩ := hisolated.refines
  refine ⟨fun part hpart => ?_, ⟨fresh, pmm, allocator, addr, hnew, hisolated.static_pmm, hload, hreach⟩,
    fun dma hdma => ?_⟩
  · rw [hisolated.parts_eq] at hpart
    obtain ⟨a, ha, rfl⟩ := List.mem_map.mp hpart
    exact hisolated.held a ha
  · have howned := Owned.of_reaches hfresh.sized hreach
    have hbound := howned.bounded _ (List.mem_append_left _ (List.mem_map_of_mem hdma))
    rw [← howned.same_frames] at hbound
    obtain ⟨next, hnext, _⟩ := PhysicalPageAllocator.dealloc_contiguous_pages_spec howned.sized hbound
    dsimp only at hnext
    refine ⟨(0, { s.machine with ram := pmm.store s.machine.ram next }), ?_⟩
    simp only [KernelHal.dma_dealloc, hisolated.static_pmm, unwrap_some, bind_tc_ok,
      Pmm.dealloc_contiguous_pages, hload, hnext]
    rfl

/-- A memory map with a bitmap of one page and room for the heap. -/
def sampleRegion : MemoryRegion := ⟨⟨1, 4200, by decide, by decide +kernel⟩, .Usable⟩

def sampleMap : BootInfo := ⟨[sampleRegion], 0x400000000000⟩

theorem numFrames_sampleMap : numFrames sampleMap.memory_map = 4200 := by decide +kernel

theorem bitmapRegion_sampleMap : BitmapRegion sampleMap.memory_map sampleRegion := by
  have hholds : Holds sampleMap.memory_map sampleRegion := ⟨rfl, by decide +kernel⟩
  exact ⟨hholds, [], [], rfl, by simp⟩

/-- The bitmap is in the first frame of the region. -/
theorem sampleMap_room {frame : Nat} (hlow : 2 ≤ frame) (hhigh : frame < 4200) :
    InUsable sampleMap.memory_map frame ∧ frame ∉ bitmapFrames sampleMap.memory_map sampleRegion := by
  have hpages : bitmapPages sampleMap.memory_map = 1 := by decide +kernel
  refine ⟨⟨sampleRegion, List.mem_cons_self, rfl, Nat.le_of_succ_le hlow, hhigh⟩, fun hmem => ?_⟩
  have hstop := hmem.2
  rw [hpages] at hstop
  exact absurd hstop (Nat.not_lt.mpr hlow)

theorem sampleMap_init : ∃ heap machine, init true (fun _ => 0) sampleMap = ok (heap, machine) := by
  have haddressable : Addressable true sampleMap sampleRegion :=
    ⟨by decide +kernel, by decide +kernel, by decide +kernel⟩
  refine init_returns (fun _ => 0) bitmapRegion_sampleMap haddressable
    (fun frame hlow hhigh => sampleMap_room hlow (hhigh.trans (by decide))) ?_ fun _ => ?_
  · rw [numFrames_sampleMap]
    decide
  · rw [numFrames_sampleMap]
    decide +kernel

/-- The heap leaves the first of these frames or the last one. -/
theorem exists_outside_heap (addr : PhysAddr) :
    ∃ frame, 2 ≤ frame ∧ frame < 4200 ∧ frame ∉ frames (addr, 4096) := by
  by_cases hfirst : 2 ∈ frames (addr, 4096)
  · refine ⟨4199, by decide, by decide, fun hlast => ?_⟩
    have hstart := hfirst.1
    have hstop := hlast.2
    dsimp only at hstart hstop
    omega
  · exact ⟨2, by decide, by decide, hfirst⟩

/-- There is room for a buffer besides the heap. -/
theorem sampleMap_alloc : ∃ heap machine paddr vaddr after,
    init true (fun _ => 0) sampleMap = ok (heap, machine) ∧
    KernelHal.dma_alloc true machine 1 = ok ((paddr, vaddr), after) := by
  obtain ⟨heap, machine, hinit⟩ := sampleMap_init
  obtain ⟨region, fresh, pmm, addr, _, hfresh, hplaced, hisolated⟩ := init_inv hinit
  obtain rfl := hplaced.region.unique bitmapRegion_sampleMap
  obtain ⟨allocator, hload, hreach⟩ := hisolated.refines
  have howned := Owned.of_reaches hfresh.sized hreach
  have hframes : fresh.num_frames = 4200 := hfresh.num_frames.trans numFrames_sampleMap
  have hcount : allocator.num_frames = 4200 := howned.same_frames.trans hframes
  obtain ⟨start, hlow, hhigh, hheap⟩ := exists_outside_heap addr
  have hunused : allocator.used start = false :=
    howned.unused ((hfresh.free start (hframes ▸ hhigh)).mpr (sampleMap_room hlow hhigh))
      (List.forall_mem_singleton.mpr hheap)
  have hfree : allocator.FreeRun start 1 := by
    intro frame hge hlt
    rwa [show frame = start by omega]
  obtain ⟨paddr, vaddr, after, hcall⟩ := dma_alloc_returns true hisolated.static_pmm hisolated.static_offset
    hload howned.sized.covers Nat.one_pos hfree (show start + 1 ≤ allocator.num_frames by omega)
    (by rw [hcount]; decide) (by decide +kernel) (by rw [hcount]; decide +kernel)
  exact ⟨heap, machine, paddr, vaddr, after, hinit, hcall⟩

/-- A driver gets a page and writes a byte to it. -/
theorem dma_isolation_sample : ∃ heap machine vaddr s, init true (fun _ => 0) sampleMap = ok (heap, machine) ∧
    Run (Step true) ⟨machine, heap, []⟩ [.alloc vaddr 1, .write vaddr 0 [42]] s ∧
    s.machine.ram.read vaddr 4096 = 42 :: List.replicate 4095 0 := by
  obtain ⟨heap, machine, paddr, vaddr, after, hinit, hcall⟩ := sampleMap_alloc
  have halloc : Step true ⟨machine, heap, []⟩ (.alloc vaddr 1) ⟨after, heap, [⟨paddr, vaddr, 1⟩]⟩ :=
    .dma_alloc hcall
  have hpart : (vaddr, 1 * PAGE_SIZE) ∈ System.parts ⟨after, heap, [⟨paddr, vaddr, 1⟩]⟩ := List.mem_cons_self
  have hsize : 1 * PAGE_SIZE = 4096 := rfl
  have hwrite : Step true ⟨after, heap, [⟨paddr, vaddr, 1⟩]⟩ (.write vaddr 0 [42]) _ :=
    .write hpart (show 0 + 1 ≤ 1 * PAGE_SIZE by omega)
  have hrun := (Run.nil.snoc halloc).snoc hwrite
  have hheld := (dma_isolation hinit hrun).1 _ hpart
  refine ⟨heap, machine, vaddr, _, hinit, hrun, ?_⟩
  simp only [List.nil_append, List.cons_append, List.foldl_cons, List.foldl_nil, Contents.apply,
    Function.update_self, Option.map_some, Option.some.injEq, hsize] at hheld
  rw [← hheld, splice, List.take_zero, List.nil_append, List.drop_replicate]
  rfl

end conc_os.memory
