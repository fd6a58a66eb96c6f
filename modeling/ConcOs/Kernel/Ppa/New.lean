import ConcOs.Kernel.Ppa.Ownership

open rust Result

namespace bootloader.bootinfo

/-- The frames of a range. -/
def FrameRange.frames (self : FrameRange) : Set Nat :=
  Set.Ico self.start_frame_number.toNat self.end_frame_number.toNat

theorem FrameRange.toNat_start_le (self : FrameRange) :
    self.start_frame_number.toNat ≤ self.end_frame_number.toNat := UInt64.le_iff_toNat_le.mp self.start_le_end

theorem FrameRange.toNat_end_addr (self : FrameRange) :
    self.end_addr.toNat = self.end_frame_number.toNat * 4096 := by
  rw [end_addr, UInt64.toNat_mul]
  exact Nat.mod_eq_of_lt self.end_fits

theorem FrameRange.toNat_start_addr (self : FrameRange) :
    self.start_addr.toNat = self.start_frame_number.toNat * 4096 := by
  have hfits : self.start_frame_number.toNat * 4096 < 2 ^ 64 :=
    (Nat.mul_le_mul_right 4096 self.toNat_start_le).trans_lt self.end_fits
  rw [start_addr, UInt64.toNat_mul]
  exact Nat.mod_eq_of_lt hfits

theorem FrameRange.toNat_size (self : FrameRange) :
    (self.end_addr - self.start_addr).toNat = self.end_addr.toNat - self.start_addr.toNat := by
  apply UInt64.toNat_sub_of_le
  have hle := self.toNat_start_le
  rw [UInt64.le_iff_toNat_le, self.toNat_start_addr, self.toNat_end_addr]
  omega

end bootloader.bootinfo

namespace conc_os.allocation.ppa

open bootloader.bootinfo

section layout

/-- The number of frames below the highest address of a memory map. -/
def numFrames (memory_map : List MemoryRegion) : Nat :=
  (memory_map.map fun r => r.range.end_frame_number.toNat).foldr max 0

/-- The bytes of a bitmap with a bit for each of these frames. -/
def bitmapBytes (memory_map : List MemoryRegion) : Nat := (numFrames memory_map + 7) / 8

/-- The pages such a bitmap takes. -/
def bitmapPages (memory_map : List MemoryRegion) : Nat := (bitmapBytes memory_map + 4095) / 4096

/-- A region that can hold the bitmap. -/
structure Holds (memory_map : List MemoryRegion) (region : MemoryRegion) : Prop where
  usable : region.region_type = .Usable
  size : bitmapPages memory_map * 4096 ≤ region.range.end_addr.toNat - region.range.start_addr.toNat

/-- The first region of the map that can hold the bitmap. -/
structure BitmapRegion (memory_map : List MemoryRegion) (region : MemoryRegion) : Prop where
  holds : Holds memory_map region
  first : ∃ before after, memory_map = before ++ region :: after ∧ ∀ r ∈ before, ¬ Holds memory_map r

/-- The frames of the bitmap. -/
def bitmapFrames (memory_map : List MemoryRegion) (region : MemoryRegion) : Set Nat :=
  Set.Ico region.range.start_frame_number.toNat
    (region.range.start_frame_number.toNat + bitmapPages memory_map)

/-- The frame lies in a usable region. -/
def InUsable (memory_map : List MemoryRegion) (frame : Nat) : Prop :=
  ∃ r ∈ memory_map, r.region_type = .Usable ∧ frame ∈ r.range.frames

/-- The bitmap can be reached: neither its physical nor its virtual address is
one that panics. -/
structure Addressable (overflow_checks : Bool) (boot_info : BootInfo) (region : MemoryRegion) : Prop where
  phys : region.range.start_addr.toNat < 2 ^ 52
  sum : overflow_checks = true → boot_info.physical_memory_offset.toNat + region.range.start_addr.toNat < 2 ^ 64
  canonical : (boot_info.physical_memory_offset + region.range.start_addr).toNat < 2 ^ 47 ∨
    2 ^ 64 - 2 ^ 47 ≤ (boot_info.physical_memory_offset + region.range.start_addr).toNat

theorem numFrames_cons (first : MemoryRegion) (rest : List MemoryRegion) :
    numFrames (first :: rest) = max first.range.end_frame_number.toNat (numFrames rest) := rfl

theorem le_numFrames {memory_map : List MemoryRegion} {r : MemoryRegion} (hr : r ∈ memory_map) :
    r.range.end_frame_number.toNat ≤ numFrames memory_map := by
  induction memory_map with
  | nil => cases hr
  | cons first rest ih =>
    rw [numFrames_cons]
    rcases List.mem_cons.mp hr with rfl | hr
    · exact le_max_left _ _
    · exact (ih hr).trans (le_max_right _ _)

theorem exists_numFrames {memory_map : List MemoryRegion} (hne : memory_map ≠ []) :
    ∃ r ∈ memory_map, r.range.end_frame_number.toNat = numFrames memory_map := by
  induction memory_map with
  | nil => exact absurd rfl hne
  | cons first rest ih =>
    rw [numFrames_cons]
    rcases Nat.le_total (numFrames rest) first.range.end_frame_number.toNat with hle | hle
    · exact ⟨first, List.mem_cons_self, (max_eq_left hle).symm⟩
    · by_cases hrest : rest = []
      · have hzero : numFrames rest = 0 := by rw [hrest]; rfl
        exact ⟨first, List.mem_cons_self, by rw [hzero, Nat.max_zero]⟩
      · obtain ⟨r, hr, heq⟩ := ih hrest
        exact ⟨r, List.mem_cons_of_mem _ hr, by rw [heq, max_eq_right hle]⟩

theorem numFrames_lt {memory_map : List MemoryRegion} (hne : memory_map ≠ []) :
    numFrames memory_map * 4096 < 2 ^ 64 := by
  obtain ⟨r, _, heq⟩ := exists_numFrames hne
  rw [← heq]
  exact r.range.end_fits

/-- The highest address of the map is the end of the last frame. -/
theorem max_end_addr {memory_map : List MemoryRegion} (hne : memory_map ≠ []) :
    ∃ max_phys, (memory_map.map fun r => r.range.end_addr).max? = some max_phys ∧
      max_phys.toNat = numFrames memory_map * 4096 := by
  obtain ⟨r, hr, heq⟩ := exists_numFrames hne
  refine ⟨r.range.end_addr, ?_, by rw [r.range.toNat_end_addr, heq]⟩
  rw [List.max?_eq_some_iff]
  refine ⟨List.mem_map_of_mem hr, ?_⟩
  intro other hother
  obtain ⟨r', hr', rfl⟩ := List.mem_map.mp hother
  rw [UInt64.le_iff_toNat_le, r.range.toNat_end_addr, r'.range.toNat_end_addr, heq]
  exact Nat.mul_le_mul_right 4096 (le_numFrames hr')

/-- The search for the bitmap's region finds the first that can hold it. -/
theorem find_region {memory_map : List MemoryRegion} (hroom : ∃ r ∈ memory_map, Holds memory_map r) :
    ∃ region, BitmapRegion memory_map region ∧ memory_map.find? (fun r => r.region_type = .Usable ∧
      (r.range.end_addr - r.range.start_addr).toNat ≥ bitmapPages memory_map * 4096) = some region := by
  have hpred : ∀ r : MemoryRegion, decide (r.region_type = .Usable ∧
      (r.range.end_addr - r.range.start_addr).toNat ≥ bitmapPages memory_map * 4096) = true ↔
        Holds memory_map r := by
    intro r
    rw [decide_eq_true_eq, r.range.toNat_size]
    exact ⟨fun h => ⟨h.1, h.2⟩, fun h => ⟨h.usable, h.size⟩⟩
  obtain ⟨r, hr, hholds⟩ := hroom
  have hsome : (memory_map.find? fun r => r.region_type = .Usable ∧
      (r.range.end_addr - r.range.start_addr).toNat ≥ bitmapPages memory_map * 4096).isSome :=
    List.find?_isSome.mpr ⟨r, hr, (hpred r).mpr hholds⟩
  obtain ⟨region, hfind⟩ := Option.isSome_iff_exists.mp hsome
  obtain ⟨hregion, before, after, hsplit, hbefore⟩ := List.find?_eq_some_iff_append.mp hfind
  refine ⟨region, ⟨(hpred region).mp hregion, before, after, hsplit, fun r hr hholds => ?_⟩, hfind⟩
  have hnot := hbefore r hr
  rw [(hpred r).mpr hholds] at hnot
  cases hnot

theorem BitmapRegion.mem {memory_map : List MemoryRegion} {region : MemoryRegion}
    (h : BitmapRegion memory_map region) : region ∈ memory_map := by
  obtain ⟨before, after, hsplit, _⟩ := h.first
  rw [hsplit]
  exact List.mem_append_right _ List.mem_cons_self

/-- The bitmap lies within its region, and so below the highest address. -/
theorem BitmapRegion.bound {memory_map : List MemoryRegion} {region : MemoryRegion}
    (h : BitmapRegion memory_map region) :
    region.range.start_frame_number.toNat + bitmapPages memory_map ≤ numFrames memory_map := by
  have hsize := h.holds.size
  have hend := le_numFrames h.mem
  have hordered := region.range.toNat_start_le
  rw [region.range.toNat_start_addr, region.range.toNat_end_addr] at hsize
  omega

/-- No two regions of the map share a frame. -/
def Apart (memory_map : List MemoryRegion) : Prop :=
  memory_map.Pairwise fun a b => Disjoint a.range.frames b.range.frames

/-- In a map without overlaps a frame of a usable region is in no other. -/
theorem InUsable.not_reserved {memory_map : List MemoryRegion} {frame : Nat}
    (h : InUsable memory_map frame) (hapart : Apart memory_map) {r : MemoryRegion} (hr : r ∈ memory_map)
    (htype : r.region_type ≠ .Usable) : frame ∉ r.range.frames := by
  intro hframe
  obtain ⟨usable, husable, htype', hframe'⟩ := h
  have hne : usable ≠ r := by
    rintro rfl
    exact htype htype'
  have hsymm : Std.Symm fun a b : MemoryRegion => Disjoint a.range.frames b.range.frames :=
    ⟨fun _ _ hab => hab.symm⟩
  exact Set.disjoint_left.mp (List.Pairwise.forall hapart husable hr hne) hframe' hframe

end layout

namespace PhysicalPageAllocator

theorem div_ceil_page (frame : Nat) : Usize.div_ceil (frame * 4096) PAGE_SIZE = frame := by
  rw [Usize.div_ceil_eq _ (by decide)]
  change (frame * 4096 + 4095) / 4096 = frame
  omega

/-- Marking a region of whole frames. -/
theorem mark_region_spec {self : PhysicalPageAllocator} (h : self.Covers) {first last : Nat}
    (hle : first ≤ last) (hbound : last ≤ self.num_frames) (value : Bool) :
    ∃ after, (List.range' (first * 4096 / PAGE_SIZE) (Usize.div_ceil (last * 4096) PAGE_SIZE -
        first * 4096 / PAGE_SIZE)).foldlM (fun self frame => self.set_bit frame value) self = ok after ∧
      after.num_frames = self.num_frames ∧ after.bitmap.len = self.bitmap.len ∧
      ∀ frame, after.used frame = if first ≤ frame ∧ frame < last then value else self.used frame := by
  have hfirst : first * 4096 / PAGE_SIZE = first := Nat.mul_div_cancel first (by decide)
  have hlast := div_ceil_page last
  obtain ⟨after, hset, hframes, hlen, hused⟩ :=
    set_range_spec h (show first + (last - first) ≤ self.num_frames by omega) value
  refine ⟨after, by rw [hfirst, hlast, hset], hframes, hlen, fun frame => ?_⟩
  rw [hused, Nat.add_sub_cancel' hle]

/-- The loop over the memory map frees the frames of the usable regions and no
others. -/
theorem free_usable_all {self : PhysicalPageAllocator} (h : self.Covers) {regions : List MemoryRegion}
    (hbound : ∀ r ∈ regions, r.range.end_frame_number.toNat ≤ self.num_frames) :
    ∃ after, regions.foldlM free_usable self = ok after ∧ after.num_frames = self.num_frames ∧
      after.bitmap.len = self.bitmap.len ∧
      ∀ frame, after.used frame = false ↔ InUsable regions frame ∨ self.used frame = false := by
  induction regions generalizing self with
  | nil => exact ⟨self, rfl, rfl, rfl, fun frame => by simp [InUsable]⟩
  | cons region regions ih =>
    have hstep : ∃ next, self.free_usable region = ok next ∧ next.num_frames = self.num_frames ∧
        next.bitmap.len = self.bitmap.len ∧ ∀ frame, next.used frame = false ↔
          (region.region_type = .Usable ∧ frame ∈ region.range.frames) ∨ self.used frame = false := by
      by_cases husable : region.region_type = .Usable
      · obtain ⟨next, hnext, hframes, hlen, hused⟩ := mark_region_spec h region.range.toNat_start_le
          (hbound region List.mem_cons_self) false
        refine ⟨next, ?_, hframes, hlen, fun frame => ?_⟩
        · rw [free_usable, if_pos husable, mark_region_free, region.range.toNat_start_addr,
            region.range.toNat_end_addr, hnext]
        · rw [hused, FrameRange.frames, Set.mem_Ico]
          split_ifs with hin <;> simp [husable, hin]
      · exact ⟨self, if_neg husable, rfl, rfl, fun frame => by simp [husable]⟩
    obtain ⟨next, hnext, hframes, hlen, hused⟩ := hstep
    have hcovers : next.Covers := by rwa [Covers, hframes, hlen]
    obtain ⟨after, hafter, hframes', hlen', hused'⟩ := ih hcovers fun r hr => by
      rw [hframes]
      exact hbound r (List.mem_cons_of_mem _ hr)
    refine ⟨after, ?_, hframes'.trans hframes, hlen'.trans hlen, fun frame => ?_⟩
    · rw [List.foldlM_cons, hnext, bind_tc_ok, hafter]
    · rw [hused', hused]
      simp only [InUsable, List.mem_cons, exists_eq_or_imp]
      rw [or_left_comm, or_assoc]

/-- An allocator just made from a memory map, with its bitmap in `region`. -/
structure Fresh (memory_map : List MemoryRegion) (region : MemoryRegion) (allocator : PhysicalPageAllocator) :
    Prop where
  num_frames : allocator.num_frames = numFrames memory_map
  len : allocator.bitmap.len = bitmapBytes memory_map
  free : ∀ frame < allocator.num_frames, allocator.used frame = false ↔
    InUsable memory_map frame ∧ frame ∉ bitmapFrames memory_map region
  beyond : ∀ frame, allocator.num_frames ≤ frame → frame < 8 * allocator.bitmap.len →
    allocator.used frame = true

theorem Fresh.sized {memory_map : List MemoryRegion} {region : MemoryRegion}
    {allocator : PhysicalPageAllocator} (h : Fresh memory_map region allocator) : allocator.Sized := by
  rw [Sized, h.len, h.num_frames, bitmapBytes]

/-- The two marking passes over a bitmap of ones. -/
theorem marking_spec {memory_map : List MemoryRegion} {region : MemoryRegion}
    (hregion : BitmapRegion memory_map region) {start : PhysicalPageAllocator}
    (hframes : start.num_frames = numFrames memory_map) (hlen : start.bitmap.len = bitmapBytes memory_map)
    (hones : ∀ frame, frame / 8 < start.bitmap.len → start.used frame = true) :
    ∃ freed after, memory_map.foldlM free_usable start = ok freed ∧
      freed.mark_region_used (region.range.start_frame_number.toNat * 4096)
        ((region.range.start_frame_number.toNat + bitmapPages memory_map) * 4096) = ok after ∧
      Fresh memory_map region after := by
  have hcovers : start.Covers := by rw [Covers, hframes, hlen, bitmapBytes]
  obtain ⟨freed, hfreed, hframes₁, hlen₁, hused₁⟩ := free_usable_all hcovers fun r hr => by
    rw [hframes]
    exact le_numFrames hr
  have hcovers₁ : freed.Covers := by rwa [Covers, hframes₁, hlen₁]
  have hbound : region.range.start_frame_number.toNat + bitmapPages memory_map ≤ freed.num_frames := by
    rw [hframes₁, hframes]
    exact hregion.bound
  obtain ⟨after, hafter, hframes₂, hlen₂, hused₂⟩ :=
    mark_region_spec hcovers₁ (Nat.le_add_right _ (bitmapPages memory_map)) hbound true
  have hall : after.num_frames = numFrames memory_map := hframes₂.trans (hframes₁.trans hframes)
  have hbytes : after.bitmap.len = bitmapBytes memory_map := hlen₂.trans (hlen₁.trans hlen)
  refine ⟨freed, after, hfreed, hafter, hall, hbytes, fun frame hframe => ?_, fun frame hlow hhigh => ?_⟩
  · have hset : start.used frame = true := hones frame (by rw [hlen, bitmapBytes]; omega)
    rw [hused₂, bitmapFrames, Set.mem_Ico]
    split_ifs with hin
    · simp [hin]
    · rw [hused₁, hset]
      simp [hin]
  · have hset : start.used frame = true := hones frame (by rw [hlen, ← hbytes]; omega)
    have hnone : ¬ InUsable memory_map frame := by
      rintro ⟨r, hr, _, hframe⟩
      have hend := le_numFrames hr
      have hlt : frame < r.range.end_frame_number.toNat := hframe.2
      omega
    rw [hused₂, if_neg (by rw [← hframes₂] at hbound; omega)]
    by_contra hfree
    rcases (hused₁ frame).mp (Bool.not_eq_true _ ▸ hfree) with hin | hclear
    · exact hnone hin
    · rw [hset] at hclear
      cases hclear

/-- The address of the bitmap can be computed, or the attempt panics whatever
was to follow. -/
theorem address_outcome (overflow_checks : Bool) (boot_info : BootInfo) (region : MemoryRegion) :
    (Addressable overflow_checks boot_info region ∧ ∃ phys sum virt,
        PhysAddr.new region.range.start_addr.toNat = ok phys ∧
        phys.as_u64 = region.range.start_frame_number.toNat * 4096 ∧
        U64.add overflow_checks boot_info.physical_memory_offset (UInt64.ofNat phys.as_u64) = ok sum ∧
        VirtAddr.new sum = ok virt) ∨
      (¬ Addressable overflow_checks boot_info region ∧ ∃ panic, panic ≠ .indexOutOfRange ∧
        ∀ rest : PhysAddr → VirtAddr → Result Placement, (do
          let phys ← PhysAddr.new region.range.start_addr.toNat
          let sum ← U64.add overflow_checks boot_info.physical_memory_offset (UInt64.ofNat phys.as_u64)
          let virt ← VirtAddr.new sum
          rest phys virt) = fail panic) := by
  by_cases hphys : region.range.start_addr.toNat < 2 ^ 52
  swap
  · refine Or.inr ⟨fun h => hphys h.phys,
      .expect "physical addresses must not have any bits in the range 52 to 64 set", by simp, fun rest => ?_⟩
    rw [PhysAddr.new, dif_neg hphys, bind_tc_fail]
  have hnew : PhysAddr.new region.range.start_addr.toNat = ok ⟨_, hphys⟩ := dif_pos hphys
  have hback : UInt64.ofNat (PhysAddr.as_u64 ⟨_, hphys⟩) = region.range.start_addr := UInt64.ofNat_toNat
  by_cases hover : overflow_checks = true ∧
      2 ^ 64 ≤ boot_info.physical_memory_offset.toNat + region.range.start_addr.toNat
  · refine Or.inr ⟨fun h => absurd (h.sum hover.1) (by omega), .overflow, by simp, fun rest => ?_⟩
    rw [hnew, bind_tc_ok, hback, U64.add, if_pos hover, bind_tc_fail]
  have hsum : U64.add overflow_checks boot_info.physical_memory_offset region.range.start_addr =
      ok (boot_info.physical_memory_offset + region.range.start_addr) := if_neg hover
  by_cases hvirt : (boot_info.physical_memory_offset + region.range.start_addr).toNat < 2 ^ 47 ∨
      2 ^ 64 - 2 ^ 47 ≤ (boot_info.physical_memory_offset + region.range.start_addr).toNat
  · refine Or.inl ⟨⟨hphys, fun hchecks => ?_, hvirt⟩, _, _, _, hnew, region.range.toNat_start_addr, ?_,
      dif_pos hvirt⟩
    · exact Nat.lt_of_not_le fun hle => hover ⟨hchecks, hle⟩
    · rw [hback, hsum]
  · refine Or.inr ⟨fun h => hvirt h.canonical,
      .expect "virtual address must be sign extended in bits 48 to 64", by simp, fun rest => ?_⟩
    rw [hnew, bind_tc_ok, hback, hsum, bind_tc_ok, VirtAddr.new, dif_neg hvirt, bind_tc_fail]

/-- The place of the bitmap is the one `region` gives it. -/
structure PlacedIn (boot_info : BootInfo) (region : MemoryRegion) (place : Placement) : Prop where
  num_frames : place.num_frames = numFrames boot_info.memory_map
  bitmap_bytes : place.bitmap_bytes = bitmapBytes boot_info.memory_map
  bitmap_size : place.bitmap_size = bitmapPages boot_info.memory_map * 4096
  bitmap_phys : place.bitmap_phys.as_u64 = region.range.start_frame_number.toNat * 4096
  bitmap_virt : place.bitmap_virt.val =
    boot_info.physical_memory_offset + UInt64.ofNat (region.range.start_frame_number.toNat * 4096)

/-- The search for a place, once the size of the bitmap is known. -/
theorem place_bitmap_eq (overflow_checks : Bool) {boot_info : BootInfo} (hne : boot_info.memory_map ≠ []) :
    ∃ hle, place_bitmap overflow_checks boot_info = (do
      let region ← unwrap "no usable region large enough for bitmap" (boot_info.memory_map.find? fun r =>
        r.region_type = .Usable ∧
          (r.range.end_addr - r.range.start_addr).toNat ≥ bitmapPages boot_info.memory_map * 4096)
      let bitmap_phys ← PhysAddr.new region.range.start_addr.toNat
      let sum ← U64.add overflow_checks boot_info.physical_memory_offset (UInt64.ofNat bitmap_phys.as_u64)
      let bitmap_virt ← VirtAddr.new sum
      ok ⟨numFrames boot_info.memory_map, hle, bitmapBytes boot_info.memory_map,
        bitmapPages boot_info.memory_map * 4096, bitmap_phys, bitmap_virt⟩) := by
  have hlt := numFrames_lt hne
  obtain ⟨max_phys, hmax, hmaxVal⟩ := max_end_addr hne
  have hframes : Usize.div_ceil max_phys.toNat PAGE_SIZE = numFrames boot_info.memory_map := by
    rw [hmaxVal, div_ceil_page]
  have hbytes : Usize.div_ceil (numFrames boot_info.memory_map) 8 = bitmapBytes boot_info.memory_map :=
    Usize.div_ceil_eq _ (by decide)
  have hpages : Usize.div_ceil (bitmapBytes boot_info.memory_map) PAGE_SIZE = bitmapPages boot_info.memory_map :=
    Usize.div_ceil_eq _ (by decide)
  have hsize : Usize.mul (bitmapPages boot_info.memory_map) PAGE_SIZE =
      ok (bitmapPages boot_info.memory_map * 4096) := by
    rw [Usize.mul, PAGE_SIZE, if_pos]
    simp only [bitmapPages, bitmapBytes, usizeMax]
    omega
  refine ⟨hframes ▸ div_ceil_page_le max_phys, ?_⟩
  simp only [place_bitmap, hmax, unwrap_some, bind_tc_ok, hframes, hbytes, hpages, hsize, pure_eq_ok]

/-- There is a place for the bitmap whenever a region has room for it; only its
address can panic. -/
theorem place_bitmap_spec (overflow_checks : Bool) {boot_info : BootInfo}
    (hroom : ∃ r ∈ boot_info.memory_map, Holds boot_info.memory_map r) :
    ∃ region, BitmapRegion boot_info.memory_map region ∧
      ((Addressable overflow_checks boot_info region ∧
          ∃ place, place_bitmap overflow_checks boot_info = ok place ∧ PlacedIn boot_info region place) ∨
        (¬ Addressable overflow_checks boot_info region ∧ ∃ panic, panic ≠ .indexOutOfRange ∧
          place_bitmap overflow_checks boot_info = fail panic)) := by
  have hne : boot_info.memory_map ≠ [] := by
    obtain ⟨r, hr, _⟩ := hroom
    exact List.ne_nil_of_mem hr
  obtain ⟨region, hregion, hfind⟩ := find_region hroom
  obtain ⟨hle, hplace⟩ := place_bitmap_eq overflow_checks hne
  refine ⟨region, hregion, ?_⟩
  rw [hplace, hfind, unwrap_some, bind_tc_ok]
  rcases address_outcome overflow_checks boot_info region with
    ⟨haddressable, phys, sum, virt, hphys, hstart, hsum, hvirt⟩ | ⟨hnot, panic, hpanic, hfails⟩
  · rw [hphys, bind_tc_ok, hsum, bind_tc_ok, hvirt, bind_tc_ok]
    refine Or.inl ⟨haddressable, _, rfl, rfl, rfl, rfl, hstart, ?_⟩
    rw [VirtAddr.val_of_new hvirt, U64.eq_of_add hsum, hstart]
  · exact Or.inr ⟨hnot, panic, hpanic, hfails _⟩

/-- Without room for the bitmap there is no place. -/
theorem room_of_place_bitmap {overflow_checks : Bool} {boot_info : BootInfo} {place : Placement}
    (h : place_bitmap overflow_checks boot_info = ok place) :
    ∃ r ∈ boot_info.memory_map, Holds boot_info.memory_map r := by
  have hne : boot_info.memory_map ≠ [] := by
    intro hnil
    rw [place_bitmap, hnil] at h
    cases h
  obtain ⟨_, hplace⟩ := place_bitmap_eq overflow_checks hne
  rw [hplace] at h
  obtain ⟨region, hregion, _⟩ := bind_eq_ok_iff.mp h
  have hfind := unwrap_eq_ok hregion
  have hholds := List.find?_some hfind
  rw [decide_eq_true_eq, region.range.toNat_size] at hholds
  exact ⟨region, List.mem_of_find?_eq_some hfind, hholds.1, hholds.2⟩

/-- Filling a bitmap that is in place makes a fresh allocator. -/
theorem fill_bitmap_spec {boot_info : BootInfo} {region : MemoryRegion}
    (hregion : BitmapRegion boot_info.memory_map region) {place : Placement}
    (hplace : PlacedIn boot_info region place) (memory : UInt64 → UInt8) :
    ∃ allocator, fill_bitmap place memory boot_info = ok allocator ∧
      Fresh boot_info.memory_map region allocator := by
  have hlt := numFrames_lt (List.ne_nil_of_mem hregion.mem)
  have hbound := hregion.bound
  obtain ⟨bitmap, hbitmap, _, hlen⟩ : ∃ bitmap, from_raw_parts_mut memory place.bitmap_virt
      place.bitmap_bytes = ok bitmap ∧ _ := Vec.from_eq (by
    simp only [List.length_map, List.length_range, hplace.bitmap_bytes, bitmapBytes, isizeMax]
    omega)
  rw [List.length_map, List.length_range] at hlen
  let start : PhysicalPageAllocator := ⟨bitmap.fill 0xff, place.num_frames, place.num_frames_le⟩
  have hlenStart : start.bitmap.len = bitmapBytes boot_info.memory_map :=
    (Slice.len_fill bitmap 0xff).trans (hlen.trans hplace.bitmap_bytes)
  have hones : ∀ frame, frame / 8 < start.bitmap.len → start.used frame = true := fun frame hframe =>
    bitmap.bit_fill_ones ((Slice.len_fill bitmap 0xff) ▸ hframe)
  obtain ⟨freed, after, hfreed, hafter, hfresh⟩ := marking_spec hregion hplace.num_frames hlenStart hones
  have hstop : Usize.add (region.range.start_frame_number.toNat * 4096)
      (bitmapPages boot_info.memory_map * 4096) =
        ok ((region.range.start_frame_number.toNat + bitmapPages boot_info.memory_map) * 4096) := by
    rw [Usize.add_eq, Nat.add_mul]
    simp only [usizeMax]
    omega
  refine ⟨after, ?_, hfresh⟩
  simp only [fill_bitmap, hbitmap, bind_tc_ok, hplace.bitmap_phys, hplace.bitmap_size, hstop]
  rw [hfreed, bind_tc_ok, hafter]

/-- `new` finds a place for the bitmap whenever there is one; it can panic only
on the address of the bitmap. -/
theorem new_spec (overflow_checks : Bool) (memory : UInt64 → UInt8) {boot_info : BootInfo}
    (hroom : ∃ r ∈ boot_info.memory_map, Holds boot_info.memory_map r) :
    ∃ region, BitmapRegion boot_info.memory_map region ∧
      ((Addressable overflow_checks boot_info region ∧
          ∃ allocator, PhysicalPageAllocator.new overflow_checks memory boot_info = ok allocator ∧
            Fresh boot_info.memory_map region allocator) ∨
        (¬ Addressable overflow_checks boot_info region ∧ ∃ panic, panic ≠ .indexOutOfRange ∧
          PhysicalPageAllocator.new overflow_checks memory boot_info = fail panic)) := by
  obtain ⟨region, hregion, hplace⟩ := place_bitmap_spec overflow_checks hroom
  refine ⟨region, hregion, ?_⟩
  rcases hplace with ⟨haddressable, place, hcall, hplaced⟩ | ⟨hnot, panic, hpanic, hcall⟩
  · obtain ⟨allocator, hfill, hfresh⟩ := fill_bitmap_spec hregion hplaced memory
    exact Or.inl ⟨haddressable, allocator, by rw [PhysicalPageAllocator.new, hcall, bind_tc_ok, hfill], hfresh⟩
  · exact Or.inr ⟨hnot, panic, hpanic, by rw [PhysicalPageAllocator.new, hcall, bind_tc_fail]⟩

/-- Whatever the client of a fresh allocator does, it is only given frames that
were free in it. -/
theorem Fresh.allocated {memory_map : List MemoryRegion} {region : MemoryRegion}
    {fresh : PhysicalPageAllocator} (h : Fresh memory_map region fresh) {s : Session}
    (hrun : Relation.ReflTransGen Step ⟨fresh, []⟩ s) {count : Nat} {addr : PhysAddr}
    {after : PhysicalPageAllocator} (hcall : s.allocator.alloc_contiguous_pages count = ok (some addr, after))
    {frame : Nat} (hframe : frame ∈ frames (addr, count)) :
    InUsable memory_map frame ∧ frame ∉ bitmapFrames memory_map region := by
  have howned : Owned fresh ⟨after, (addr, count) :: s.live⟩ :=
    reaches_invariant (Owned fresh) (fun _ _ => Owned.step) (hrun.tail (.alloc hcall)) (.initial h.sized)
  have hmem : (addr, count) ∈ (addr, count) :: s.live := List.mem_cons_self
  have hfree := Set.disjoint_left.mp (howned.apart_initial _ hmem) hframe
  rw [mem_usedFrames, Bool.not_eq_true] at hfree
  exact (h.free frame (hframe.2.trans_le (howned.bounded _ hmem))).mp hfree

/-- In a memory map with room for the bitmap, `new` never indexes outside of it
and panics only on its address. A frame of the new allocator is free if it is
in a usable region and not in the bitmap, and nothing else is ever handed out. -/
theorem new_reserves (overflow_checks : Bool) (memory : UInt64 → UInt8) {boot_info : BootInfo}
    (hroom : ∃ r ∈ boot_info.memory_map, Holds boot_info.memory_map r) :
    ∃ region, BitmapRegion boot_info.memory_map region ∧
      PhysicalPageAllocator.new overflow_checks memory boot_info ≠ fail .indexOutOfRange ∧
      (Addressable overflow_checks boot_info region →
        ∃ allocator, PhysicalPageAllocator.new overflow_checks memory boot_info = ok allocator) ∧
      ∀ allocator, PhysicalPageAllocator.new overflow_checks memory boot_info = ok allocator →
        allocator.num_frames = numFrames boot_info.memory_map ∧
        allocator.bitmap.len = bitmapBytes boot_info.memory_map ∧
        (∀ frame < allocator.num_frames, allocator.is_free frame = ok true ↔
          InUsable boot_info.memory_map frame ∧ frame ∉ bitmapFrames boot_info.memory_map region) ∧
        (∀ frame, allocator.num_frames ≤ frame → frame < 8 * allocator.bitmap.len →
          allocator.is_free frame = ok false) ∧
        (Apart boot_info.memory_map → ∀ s, Relation.ReflTransGen Step ⟨allocator, []⟩ s →
          ∀ count addr after, s.allocator.alloc_contiguous_pages count = ok (some addr, after) →
            ∀ frame ∈ frames (addr, count), frame ∉ bitmapFrames boot_info.memory_map region ∧
              ∀ r ∈ boot_info.memory_map, r.region_type ≠ .Usable → frame ∉ r.range.frames) := by
  obtain ⟨region, hregion, hnew⟩ := new_spec overflow_checks memory hroom
  refine ⟨region, hregion, ?_⟩
  rcases hnew with ⟨_, fresh, hnew, hfresh⟩ | ⟨hnot, panic, hpanic, hnew⟩
  swap
  · refine ⟨by simp [hnew, hpanic], fun h => absurd h hnot, fun allocator hallocator => ?_⟩
    rw [hnew] at hallocator
    cases hallocator
  refine ⟨by simp [hnew], fun _ => ⟨fresh, hnew⟩, fun allocator hallocator => ?_⟩
  obtain rfl : fresh = allocator := ok.inj (hnew.symm.trans hallocator)
  refine ⟨hfresh.num_frames, hfresh.len, fun frame hframe => ?_, fun frame hlow hhigh => ?_, ?_⟩
  · rw [is_free_eq (hfresh.sized.covers.byte_lt hframe), ok.injEq, Bool.not_eq_true', hfresh.free frame hframe]
  · rw [is_free_eq (by omega), hfresh.beyond frame hlow hhigh, Bool.not_true]
  · intro hapart s hrun count addr after hcall frame hframe
    obtain ⟨husable, hbitmap⟩ := hfresh.allocated hrun hcall hframe
    exact ⟨hbitmap, fun r hr htype => husable.not_reserved hapart hr htype⟩

/-- Seven usable frames, the first of which takes the bitmap. -/
def sampleUsable : MemoryRegion := ⟨⟨1, 8, by decide, by decide⟩, .Usable⟩

/-- The usable frames behind the reserved frame zero. -/
def sampleBoot : BootInfo := ⟨[⟨⟨0, 1, by decide, by decide⟩, .FrameZero⟩, sampleUsable], 0⟩

theorem new_reserves_sample : ∃ allocator,
    PhysicalPageAllocator.new true (fun _ => 0) sampleBoot = ok allocator ∧
      allocator.is_free 0 ≠ ok true ∧ allocator.is_free 1 ≠ ok true ∧ allocator.is_free 2 = ok true := by
  have hmem : sampleUsable ∈ sampleBoot.memory_map := List.mem_cons_of_mem _ List.mem_cons_self
  have hholds : Holds sampleBoot.memory_map sampleUsable := ⟨rfl, by decide +kernel⟩
  obtain ⟨region, hregion, _, hreturns, hresult⟩ := new_reserves true (fun _ => 0) ⟨_, hmem, hholds⟩
  have husable : ∀ r ∈ sampleBoot.memory_map, r.region_type = .Usable → r = sampleUsable := by
    intro r hr htype
    rcases List.mem_cons.mp hr with rfl | hr
    · cases htype
    · exact List.mem_singleton.mp hr
  obtain rfl := husable region hregion.mem hregion.holds.usable
  obtain ⟨allocator, hnew⟩ := hreturns ⟨by decide +kernel, by decide +kernel, by decide +kernel⟩
  obtain ⟨hframes, _, hfree, _⟩ := hresult allocator hnew
  have hcount : allocator.num_frames = 8 := hframes
  refine ⟨allocator, hnew, ?_, ?_, ?_⟩
  · rw [ne_eq, hfree 0 (by omega)]
    rintro ⟨⟨r, hr, htype, hframe⟩, _⟩
    rw [husable r hr htype] at hframe
    exact absurd hframe.1 (by decide +kernel)
  · rw [ne_eq, hfree 1 (by omega)]
    rintro ⟨_, hbitmap⟩
    exact hbitmap ⟨by decide +kernel, by decide +kernel⟩
  · rw [hfree 2 (by omega)]
    refine ⟨⟨_, hmem, rfl, by decide +kernel, by decide +kernel⟩, ?_⟩
    intro hbitmap
    exact absurd hbitmap.2 (by decide +kernel)

end PhysicalPageAllocator

end conc_os.allocation.ppa
