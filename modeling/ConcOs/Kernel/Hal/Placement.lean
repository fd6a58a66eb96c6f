import ConcOs.Kernel.Hal
import ConcOs.Kernel.Ppa.New

open rust Result
open bootloader.bootinfo

namespace conc_os.allocation.ppa

/-- An allocator whose bitmap lies in `region`, in a memory where the physical
addresses start at `offset`. -/
structure Placed (memory_map : List MemoryRegion) (region : MemoryRegion) (offset : UInt64) (pmm : Pmm) :
    Prop where
  bitmap : pmm.bitmap.val = offset + UInt64.ofNat (region.range.start_frame_number.toNat * 4096)
  bitmap_len : pmm.bitmap_len = bitmapBytes memory_map
  num_frames : pmm.num_frames = numFrames memory_map
  region : BitmapRegion memory_map region
  fits : numFrames memory_map * 4096 < 2 ^ 64

/-- The address of a buffer. -/
def bufferAddr (offset : UInt64) (a : PhysAddr × Nat) : UInt64 := offset + UInt64.ofNat a.1.as_u64

/-- What a client of the allocator gets: whole pages, and at least one. -/
structure WholePages (a : PhysAddr × Nat) : Prop where
  aligned : a.1.as_u64 / 4096 * 4096 = a.1.as_u64
  nonempty : 0 < a.2

section

variable {memory_map : List MemoryRegion} {region : MemoryRegion} {offset : UInt64} {pmm : Pmm}
  {fresh allocator : PhysicalPageAllocator} {live : List (PhysAddr × Nat)}

theorem WholePages.mem_frames {a : PhysAddr × Nat} (h : WholePages a) : a.1.as_u64 / 4096 ∈ frames a :=
  ⟨le_rfl, Nat.lt_add_of_pos_right h.nonempty⟩

theorem Placed.bitmap_subset (h : Placed memory_map region offset pmm) :
    Memory.block pmm.bitmap.val pmm.bitmap_len ⊆ Memory.pages 4096 offset (bitmapFrames memory_map region) := by
  have hbound := h.region.bound
  have hfits := h.fits
  have hlen : bitmapBytes memory_map ≤ bitmapPages memory_map * 4096 := by
    unfold bitmapPages
    omega
  rw [h.bitmap, h.bitmap_len]
  exact Memory.block_subset_pages (by decide) hlen (by omega)

/-- The frames of the bitmap are not free to begin with. -/
theorem Fresh.bitmapFrames_subset (h : PhysicalPageAllocator.Fresh memory_map region fresh)
    (hregion : BitmapRegion memory_map region) : bitmapFrames memory_map region ⊆ fresh.usedFrames := by
  intro frame hframe
  have hbound := hregion.bound
  have hlt : frame < fresh.num_frames := by
    rw [h.num_frames]
    exact hframe.2.trans_le hbound
  by_contra hfree
  exact ((h.free frame hlt).mp (Bool.not_eq_true _ ▸ hfree)).2 hframe

theorem buffer_bound (hfresh : PhysicalPageAllocator.Fresh memory_map region fresh)
    (hplaced : Placed memory_map region offset pmm) (howned : Owned fresh ⟨allocator, live⟩) {a : PhysAddr × Nat}
    (ha : a ∈ live) : a.1.as_u64 / 4096 * 4096 + a.2 * 4096 < 2 ^ 64 := by
  have hbound := Nat.mul_le_mul_right 4096 (howned.bounded a ha)
  rw [hfresh.num_frames, Nat.add_mul] at hbound
  exact hbound.trans_lt hplaced.fits

/-- A buffer lies in its frames. -/
theorem buffer_subset (hfresh : PhysicalPageAllocator.Fresh memory_map region fresh)
    (hplaced : Placed memory_map region offset pmm) (howned : Owned fresh ⟨allocator, live⟩) {a : PhysAddr × Nat}
    (ha : a ∈ live) (hwhole : WholePages a) :
    Memory.block (bufferAddr offset a) (a.2 * 4096) ⊆ Memory.pages 4096 offset (frames a) := by
  have hbound := buffer_bound hfresh hplaced howned ha
  rw [bufferAddr, ← hwhole.aligned]
  exact Memory.block_subset_pages (by decide) le_rfl (by omega)

theorem Pmm.load_inv {memory : Memory} (h : pmm.load memory = ok allocator) :
    allocator.bitmap.len = pmm.bitmap_len ∧ allocator.num_frames = pmm.num_frames := by
  obtain ⟨bitmap, hbitmap, hallocator⟩ := bind_eq_ok_iff.mp h
  obtain rfl := ok.inj hallocator
  refine ⟨?_, rfl⟩
  rw [from_raw_parts_mut, Vec.from] at hbitmap
  split at hbitmap
  · rw [← ok.inj hbitmap]
    simp [Slice.len]
  · cases hbitmap

theorem Pmm.alloc_inv {memory after : Memory} {count : Nat} {found : Option PhysAddr}
    (hload : pmm.load memory = ok allocator) (h : pmm.alloc_contiguous_pages memory count = ok (found, after)) :
    ∃ next, allocator.alloc_contiguous_pages count = ok (found, next) ∧ after = pmm.store memory next := by
  rw [Pmm.alloc_contiguous_pages, hload, bind_tc_ok] at h
  obtain ⟨⟨addr, next⟩, halloc, hresult⟩ := bind_eq_ok_iff.mp h
  obtain ⟨rfl, rfl⟩ := Prod.mk.inj (ok.inj hresult)
  exact ⟨next, halloc, rfl⟩

/-- What the allocator writes is what it reads back. -/
theorem Pmm.load_store (memory : Memory)
    (hlen : allocator.bitmap.len = pmm.bitmap_len) (hframes : allocator.num_frames = pmm.num_frames) :
    pmm.load (pmm.store memory allocator) = ok allocator := by
  have hsmall : allocator.bitmap.val.length ≤ 2 ^ 64 := by
    have hle := allocator.bitmap.len_le
    rw [Slice.length_val]
    exact hle.trans (by decide)
  have hread : (pmm.store memory allocator).read pmm.bitmap.val pmm.bitmap_len = allocator.bitmap.val := by
    rw [← hlen]
    exact memory.read_write_self pmm.bitmap.val hsmall
  have hload : from_raw_parts_mut (pmm.store memory allocator) pmm.bitmap pmm.bitmap_len =
      ok allocator.bitmap := by
    change Vec.from ((pmm.store memory allocator).read pmm.bitmap.val pmm.bitmap_len) = _
    rw [hread, Vec.from, dif_pos allocator.bitmap.property]
  obtain ⟨bitmap, num_frames, hle⟩ := allocator
  obtain rfl : num_frames = pmm.num_frames := hframes
  rw [Pmm.load, hload]
  rfl

/-- What the allocator writes leaves the buffers as they are. -/
theorem Placed.read_store (h : Placed memory_map region offset pmm) (memory : Memory)
    (hlen : allocator.bitmap.len = pmm.bitmap_len) {ptr : UInt64} {len : Nat} {numbers : Set Nat}
    (hsmall : len ≤ 2 ^ 64) (hread : Memory.block ptr len ⊆ Memory.pages 4096 offset numbers)
    (hapart : Disjoint numbers (bitmapFrames memory_map region)) :
    (pmm.store memory allocator).read ptr len = memory.read ptr len := by
  have hwrite := h.bitmap_subset
  rw [← hlen] at hwrite
  exact memory.read_write_pages hsmall hread hwrite hapart

/-- A write to a buffer leaves the bitmap as it is. -/
theorem Placed.load_write (h : Placed memory_map region offset pmm) (memory : Memory) {target : UInt64}
    {bytes : List UInt8} {numbers : Set Nat}
    (hwrite : Memory.block target bytes.length ⊆ Memory.pages 4096 offset numbers)
    (hapart : Disjoint (bitmapFrames memory_map region) numbers) :
    pmm.load (memory.write target bytes) = pmm.load memory := by
  have hsmall : pmm.bitmap_len ≤ 2 ^ 64 := by
    have hfits := h.fits
    rw [h.bitmap_len, bitmapBytes]
    omega
  have hread := memory.read_write_pages hsmall h.bitmap_subset hwrite hapart
  unfold Pmm.load from_raw_parts_mut
  exact congrArg (fun bytes => (Vec.from bytes >>= _)) hread

theorem buffer_size_le (hfresh : PhysicalPageAllocator.Fresh memory_map region fresh)
    (hplaced : Placed memory_map region offset pmm) (howned : Owned fresh ⟨allocator, live⟩) {a : PhysAddr × Nat}
    (ha : a ∈ live) : a.2 * 4096 ≤ 2 ^ 64 := by
  have hbound := buffer_bound hfresh hplaced howned ha
  omega

/-- Two allocations have nothing in common. -/
theorem buffers_apart (hfresh : PhysicalPageAllocator.Fresh memory_map region fresh)
    (hplaced : Placed memory_map region offset pmm) (howned : Owned fresh ⟨allocator, live⟩)
    (hwhole : ∀ a ∈ live, WholePages a) {a b : PhysAddr × Nat} (ha : a ∈ live) (hb : b ∈ live) (hne : a ≠ b) :
    Disjoint (frames a) (frames b) ∧ bufferAddr offset a ≠ bufferAddr offset b := by
  have hsymm : Std.Symm fun a b : PhysAddr × Nat => Disjoint (frames a) (frames b) := ⟨fun _ _ hab => hab.symm⟩
  have hapart : Disjoint (frames a) (frames b) := List.Pairwise.forall howned.apart_live ha hb hne
  refine ⟨hapart, fun heq => ?_⟩
  have hself : ∀ c ∈ live, bufferAddr offset c ∈ Memory.pages 4096 offset (frames c) := by
    intro c hc
    have hpos := (hwhole c hc).nonempty
    refine buffer_subset hfresh hplaced howned hc (hwhole c hc) ?_
    change (bufferAddr offset c - bufferAddr offset c).toNat < c.2 * 4096
    rw [UInt64.sub_self]
    exact Nat.mul_pos hpos (by decide)
  exact Set.disjoint_left.mp hapart (hself a ha) (heq ▸ hself b hb)

/-- No allocation has anything in common with the bitmap. -/
theorem Fresh.apart_bitmap (hfresh : PhysicalPageAllocator.Fresh memory_map region fresh)
    (hplaced : Placed memory_map region offset pmm) (howned : Owned fresh ⟨allocator, live⟩) {a : PhysAddr × Nat}
    (ha : a ∈ live) : Disjoint (frames a) (bitmapFrames memory_map region) :=
  (howned.apart_initial a ha).mono_right (Fresh.bitmapFrames_subset hfresh hplaced.region)

theorem Owned.of_reaches {s : Session} (hsized : fresh.Sized) (hreach : Relation.ReflTransGen Step ⟨fresh,
    []⟩ s) : Owned fresh s :=
  reaches_invariant (Owned fresh) (fun _ _ => Owned.step) hreach (.initial hsized)

/-- What an allocation hands out is whole pages. -/
theorem WholePages.of_alloc (hsized : allocator.Sized) {count : Nat} {addr : PhysAddr}
    {after : PhysicalPageAllocator} (hcall : allocator.alloc_contiguous_pages count = ok (some addr, after)) :
    WholePages (addr, count) ∧ after.bitmap.len = allocator.bitmap.len ∧
      after.num_frames = allocator.num_frames := by
  have hspec := PhysicalPageAllocator.alloc_contiguous_pages_spec hsized count
  have hcount : count ≠ 0 := by
    rintro rfl
    cases hcall
  rw [hcall] at hspec
  cases hspec with
  | allocated haddr hbound hfree hframes hsized' hused =>
    refine ⟨⟨?_, Nat.pos_of_ne_zero hcount⟩, ?_, hframes⟩
    · dsimp only
      omega
    · rw [PhysicalPageAllocator.Sized] at hsized hsized'
      rw [hsized, hsized', hframes]

/-- No allocation is made twice. -/
theorem Owned.nodup (howned : Owned fresh ⟨allocator, live⟩) (hwhole : ∀ a ∈ live, WholePages a) : live.Nodup :=
  howned.apart_live.imp_of_mem fun {_ _} ha _ hapart heq =>
    Set.disjoint_left.mp hapart (hwhole _ ha).mem_frames (heq ▸ (hwhole _ ha).mem_frames)

theorem dealloc_len (howned : Owned fresh ⟨allocator, live⟩) {a : PhysAddr × Nat} (ha : a ∈ live)
    {after : PhysicalPageAllocator} (hcall : allocator.dealloc_contiguous_pages a.1.as_u64 a.2 = ok after) :
    after.bitmap.len = allocator.bitmap.len ∧ after.num_frames = allocator.num_frames := by
  have hbound := howned.bounded a ha
  rw [← howned.same_frames] at hbound
  have hsized := howned.sized
  obtain ⟨after', hcall', hframes, hsized', _⟩ :=
    PhysicalPageAllocator.dealloc_contiguous_pages_spec hsized hbound
  obtain rfl : after' = after := ok.inj (hcall'.symm.trans hcall)
  rw [PhysicalPageAllocator.Sized] at hsized hsized'
  dsimp only at hsized hframes
  exact ⟨by rw [hsized, hsized', hframes], hframes⟩

end

/-- There is one place for the bitmap. -/
theorem BitmapRegion.unique {memory_map : List MemoryRegion} {region other : MemoryRegion}
    (h : BitmapRegion memory_map region) (hother : BitmapRegion memory_map other) : region = other := by
  classical
  have hfind : ∀ r, BitmapRegion memory_map r →
    memory_map.find? (fun r => decide (Holds memory_map r)) = some r := by
    intro r hr
    obtain ⟨before, after, hsplit, hbefore⟩ := hr.first
    refine List.find?_eq_some_iff_append.mpr ⟨decide_eq_true hr.holds, before, after, hsplit, fun b hb => ?_⟩
    rw [decide_eq_false (hbefore b hb)]
    rfl
  exact Option.some.inj ((hfind region h).symm.trans (hfind other hother))

/-- A successful `new` leaves an allocator whose bitmap is in place. -/
theorem Pmm.new_inv {overflow_checks : Bool} {memory after : Memory} {boot_info : BootInfo} {pmm : Pmm}
    (h : Pmm.new overflow_checks memory boot_info = ok (pmm, after)) :
    ∃ region fresh, PhysicalPageAllocator.new overflow_checks memory boot_info = ok fresh ∧
      PhysicalPageAllocator.Fresh boot_info.memory_map region fresh ∧
      Placed boot_info.memory_map region boot_info.physical_memory_offset pmm ∧
      pmm.load after = ok fresh := by
  obtain ⟨place, hplace, h⟩ := bind_eq_ok_iff.mp h
  obtain ⟨fresh, hfill, h⟩ := bind_eq_ok_iff.mp h
  obtain ⟨hpmm, hafter⟩ := Prod.mk.inj (ok.inj h)
  obtain ⟨region, hregion, ⟨_, place', hplace', hplaced⟩ | ⟨_, panic, _, hpanic⟩⟩ :=
    PhysicalPageAllocator.place_bitmap_spec overflow_checks (PhysicalPageAllocator.room_of_place_bitmap hplace)
  swap
  · rw [hpanic] at hplace
    cases hplace
  obtain rfl : place' = place := ok.inj (hplace'.symm.trans hplace)
  obtain ⟨fresh', hfill', hfresh⟩ := PhysicalPageAllocator.fill_bitmap_spec hregion hplaced memory
  obtain rfl : fresh' = fresh := ok.inj (hfill'.symm.trans hfill)
  refine ⟨region, fresh', ?_, hfresh, ⟨?_, ?_, ?_, hregion, numFrames_lt (List.ne_nil_of_mem hregion.mem)⟩, ?_⟩
  · rw [PhysicalPageAllocator.new, hplace, bind_tc_ok, hfill]
  · rw [← hpmm]
    exact hplaced.bitmap_virt
  · rw [← hpmm]
    exact hfresh.len
  · rw [← hpmm]
    exact hfresh.num_frames
  · rw [← hafter, hpmm]
    exact Pmm.load_store memory (by rw [← hpmm]) (by rw [← hpmm])

theorem Pmm.new_returns {overflow_checks : Bool} (memory : Memory) {boot_info : BootInfo} {region : MemoryRegion}
    (hregion : BitmapRegion boot_info.memory_map region)
    (haddressable : Addressable overflow_checks boot_info region) :
    ∃ pmm after, Pmm.new overflow_checks memory boot_info = ok (pmm, after) := by
  obtain ⟨other, hother, hspec⟩ :=
    PhysicalPageAllocator.place_bitmap_spec overflow_checks ⟨region, hregion.mem, hregion.holds⟩
  obtain rfl := hother.unique hregion
  obtain ⟨_, place, hplace, hplaced⟩ := hspec.resolve_right fun h => h.1 haddressable
  obtain ⟨fresh, hfill, _⟩ := PhysicalPageAllocator.fill_bitmap_spec hother hplaced memory
  rw [Pmm.new, hplace, bind_tc_ok, hfill, bind_tc_ok]
  exact ⟨_, _, rfl⟩

end conc_os.allocation.ppa
