import ConcOs.Kernel.Ppa.Search
import ConcOs.Rust.Run
import Mathlib

open rust Result

namespace conc_os.allocation.ppa

/-- The frames of an allocation. -/
def frames (allocation : PhysAddr × Nat) : Set Nat :=
  Set.Ico (allocation.1.as_u64 / 4096) (allocation.1.as_u64 / 4096 + allocation.2)

def PhysicalPageAllocator.usedFrames (self : PhysicalPageAllocator) : Set Nat :=
  { frame | self.used frame = true }

theorem mem_usedFrames {self : PhysicalPageAllocator} {frame : Nat} :
    frame ∈ self.usedFrames ↔ self.used frame = true := Iff.rfl

/-- An allocator with the allocations that have not been freed. -/
structure Session where
  allocator : PhysicalPageAllocator
  live : List (PhysAddr × Nat)

/-- The calls of a client that only frees what it has been given. -/
inductive Step : Session → Session → Prop where
  | alloc {s : Session} {count : Nat} {addr : PhysAddr} {after : PhysicalPageAllocator}
      (hcall : s.allocator.alloc_contiguous_pages count = ok (some addr, after)) :
      Step s ⟨after, (addr, count) :: s.live⟩
  | exhausted {s : Session} {count : Nat} {after : PhysicalPageAllocator}
      (hcall : s.allocator.alloc_contiguous_pages count = ok (none, after)) : Step s ⟨after, s.live⟩
  | dealloc {s : Session} {addr : PhysAddr} {count : Nat} {after : PhysicalPageAllocator}
      (hlive : (addr, count) ∈ s.live)
      (hcall : s.allocator.dealloc_contiguous_pages addr.as_u64 count = ok after) :
      Step s ⟨after, s.live.erase (addr, count)⟩

/-- The used frames are those used at the start and those of the live
allocations, and none of these overlap. -/
structure Owned (initial : PhysicalPageAllocator) (s : Session) : Prop where
  same_frames : s.allocator.num_frames = initial.num_frames
  sized : s.allocator.Sized
  used : s.allocator.usedFrames = initial.usedFrames ∪ ⋃ a ∈ s.live, frames a
  apart_initial : ∀ a ∈ s.live, Disjoint (frames a) initial.usedFrames
  apart_live : s.live.Pairwise fun a b => Disjoint (frames a) (frames b)
  bounded : ∀ a ∈ s.live, a.1.as_u64 / 4096 + a.2 ≤ initial.num_frames

namespace PhysicalPageAllocator

/-- What `alloc_contiguous_pages` may do. It can panic only on a run of frames
beyond the physical address space. -/
inductive AllocOutcome (self : PhysicalPageAllocator) (count : Nat) :
    Result (Option PhysAddr × PhysicalPageAllocator) → Prop where
  | exhausted : AllocOutcome self count (ok (none, self))
  | allocated {addr : PhysAddr} {after : PhysicalPageAllocator} {start : Nat}
      (haddr : addr.as_u64 = start * 4096) (hbound : start + count ≤ self.num_frames)
      (hfree : self.FreeRun start count) (hframes : after.num_frames = self.num_frames) (hsized : after.Sized)
      (hused : ∀ frame, after.used frame =
        if start ≤ frame ∧ frame < start + count then true else self.used frame) :
      AllocOutcome self count (ok (some addr, after))
  | unaddressable {panic : Panic} {start : Nat} (hstart : 2 ^ 40 ≤ start) (hpanic : panic ≠ .indexOutOfRange) :
      AllocOutcome self count (fail panic)

theorem alloc_contiguous_pages_spec {self : PhysicalPageAllocator} (h : self.Sized) (count : Nat) :
    self.AllocOutcome count (self.alloc_contiguous_pages count) := by
  by_cases hcount : count = 0
  · rw [alloc_contiguous_pages, find_contiguous_pages, if_pos hcount]
    exact .exhausted
  obtain ⟨result, hfind, hresult⟩ := find_contiguous_pages_spec h.covers (Nat.pos_of_ne_zero hcount)
  cases result with
  | none =>
    rw [alloc_contiguous_pages, hfind, bind_tc_ok]
    exact .exhausted
  | some start =>
    obtain ⟨hbound, hfree, _⟩ := hresult
    obtain ⟨after, hused, hframes, hlen, hcall⟩ := alloc_of_find h.covers hfind hbound
    rcases hcall with ⟨addr, haddr, hcall⟩ | ⟨hbig, panic, hpanic, hcall⟩
    · rw [hcall]
      exact .allocated haddr hbound hfree hframes (h.of_len hframes hlen) hused
    · rw [hcall]
      exact .unaddressable hbig hpanic

theorem dealloc_contiguous_pages_spec {self : PhysicalPageAllocator} (h : self.Sized) {paddr count : Nat}
    (hbound : paddr / 4096 + count ≤ self.num_frames) :
    ∃ after, self.dealloc_contiguous_pages paddr count = ok after ∧ after.num_frames = self.num_frames ∧
      after.Sized ∧ ∀ frame, after.used frame =
        if paddr / 4096 ≤ frame ∧ frame < paddr / 4096 + count then false else self.used frame := by
  obtain ⟨after, hset, hframes, hlen, hused⟩ := set_range_spec h.covers hbound false
  have hset' : (List.range' (paddr / 4096) count).foldlM (fun self page => self.set_unused page) self =
      ok after :=
    hset
  have hfits := self.num_frames_le
  refine ⟨after, ?_, hframes, h.of_len hframes hlen, hused⟩
  simp only [dealloc_contiguous_pages, Usize.add_eq (show paddr / 4096 + count ≤ usizeMax by omega), bind_tc_ok,
    Nat.add_sub_cancel_left, hset']

end PhysicalPageAllocator

theorem Owned.initial {initial : PhysicalPageAllocator} (h : initial.Sized) : Owned initial ⟨initial, []⟩ where
  same_frames := rfl
  sized := h
  used := by simp
  apart_initial := by simp
  apart_live := List.Pairwise.nil
  bounded := by simp

/-- A frame is free that was free at the start and is in no live allocation. -/
theorem Owned.unused {initial : PhysicalPageAllocator} {s : Session} (h : Owned initial s) {frame : Nat}
    (hinitial : initial.used frame = false) (hlive : ∀ a ∈ s.live, frame ∉ frames a) :
    s.allocator.used frame = false := by
  rw [← Bool.not_eq_true, ← mem_usedFrames, h.used]
  rintro (hmem | hmem)
  · exact Bool.false_ne_true (hinitial.symm.trans (mem_usedFrames.mp hmem))
  · obtain ⟨a, ha, hframe⟩ := Set.mem_iUnion₂.mp hmem
    exact hlive a ha hframe

/-- The order in which the live allocations are listed does not matter. -/
theorem Owned.perm {initial allocator : PhysicalPageAllocator} {live live' : List (PhysAddr × Nat)}
    (h : Owned initial ⟨allocator, live⟩) (hperm : live.Perm live') : Owned initial ⟨allocator, live'⟩ where
  same_frames := h.same_frames
  sized := h.sized
  used := by
    rw [h.used]
    ext frame
    simp only [Set.mem_union, Set.mem_iUnion, hperm.mem_iff]
  apart_initial := fun a ha => h.apart_initial a (hperm.mem_iff.mpr ha)
  apart_live := (hperm.pairwise_iff fun hab => hab.symm).mp h.apart_live
  bounded := fun a ha => h.bounded a (hperm.mem_iff.mpr ha)

/-- A client is given frames that nobody uses. -/
theorem Owned.alloc {initial : PhysicalPageAllocator} {s : Session} (h : Owned initial s) {count start : Nat}
    {addr : PhysAddr} {after : PhysicalPageAllocator} (haddr : addr.as_u64 = start * 4096)
    (hbound : start + count ≤ s.allocator.num_frames) (hfree : s.allocator.FreeRun start count)
    (hframes : after.num_frames = s.allocator.num_frames) (hsized : after.Sized)
    (hused : ∀ frame, after.used frame =
      if start ≤ frame ∧ frame < start + count then true else s.allocator.used frame) :
    Owned initial ⟨after, (addr, count) :: s.live⟩ := by
  have hstart : addr.as_u64 / 4096 = start := by omega
  have hnew : frames (addr, count) = Set.Ico start (start + count) := by rw [frames, hstart]
  have hapart : Disjoint (frames (addr, count)) s.allocator.usedFrames := by
    rw [hnew, Set.disjoint_left]
    intro frame hframe hin
    exact Bool.false_ne_true ((hfree frame hframe.1 hframe.2).symm.trans hin)
  rw [h.used, Set.disjoint_union_right, Set.disjoint_iUnion₂_right] at hapart
  refine ⟨hframes.trans h.same_frames, hsized, ?_, ?_, List.pairwise_cons.mpr ⟨hapart.2, h.apart_live⟩, ?_⟩
  · have hset : after.usedFrames = frames (addr, count) ∪ s.allocator.usedFrames := by
      ext frame
      rw [hnew, Set.mem_union, Set.mem_Ico, mem_usedFrames, mem_usedFrames, hused]
      by_cases hin : start ≤ frame ∧ frame < start + count
      · simp [hin]
      · rw [if_neg hin, or_iff_right hin]
    simp only [hset, h.used, List.mem_cons, Set.iUnion_iUnion_eq_or_left, Set.union_left_comm]
  · exact List.forall_mem_cons.mpr ⟨hapart.1, h.apart_initial⟩
  · refine List.forall_mem_cons.mpr ⟨?_, h.bounded⟩
    rw [hstart, ← h.same_frames]
    exact hbound

/-- Freed frames are used by nobody else. -/
theorem Owned.dealloc {initial allocator after : PhysicalPageAllocator} {live : List (PhysAddr × Nat)}
    {a : PhysAddr × Nat} (h : Owned initial ⟨allocator, a :: live⟩)
    (hframes : after.num_frames = allocator.num_frames) (hsized : after.Sized)
    (hused : ∀ frame, after.used frame =
      if a.1.as_u64 / 4096 ≤ frame ∧ frame < a.1.as_u64 / 4096 + a.2 then false else allocator.used frame) :
    Owned initial ⟨after, live⟩ := by
  obtain ⟨hinitial, hrest⟩ := List.forall_mem_cons.mp h.apart_initial
  obtain ⟨hlive, hpairs⟩ := List.pairwise_cons.mp h.apart_live
  refine ⟨hframes.trans h.same_frames, hsized, ?_, hrest, hpairs,
    fun b hb => h.bounded b (List.mem_cons_of_mem a hb)⟩
  have hset : after.usedFrames = allocator.usedFrames \ frames a := by
    ext frame
    rw [Set.mem_sdiff, frames, Set.mem_Ico, mem_usedFrames, mem_usedFrames, hused]
    by_cases hin : a.1.as_u64 / 4096 ≤ frame ∧ frame < a.1.as_u64 / 4096 + a.2
    · simp [hin]
    · rw [if_neg hin, and_iff_left hin]
  have hother : Disjoint (frames a) (initial.usedFrames ∪ ⋃ b ∈ live, frames b) := by
    rw [Set.disjoint_union_right, Set.disjoint_iUnion₂_right]
    exact ⟨hinitial, hlive⟩
  have hall : allocator.usedFrames = frames a ∪ (initial.usedFrames ∪ ⋃ b ∈ live, frames b) := by
    rw [h.used]
    simp only [List.mem_cons, Set.iUnion_iUnion_eq_or_left, Set.union_left_comm]
  change after.usedFrames = initial.usedFrames ∪ ⋃ b ∈ live, frames b
  rw [hset, hall, Set.union_sdiff_cancel_left (Set.disjoint_iff.mp hother)]

theorem Owned.step {initial : PhysicalPageAllocator} {s t : Session} (h : Owned initial s) (hstep : Step s t) :
    Owned initial t := by
  cases hstep with
  | @alloc count addr after hcall =>
    have hspec := PhysicalPageAllocator.alloc_contiguous_pages_spec h.sized count
    rw [hcall] at hspec
    cases hspec with
    | allocated haddr hbound hfree hframes hsized hused => exact h.alloc haddr hbound hfree hframes hsized hused
  | @exhausted count after hcall =>
    have hspec := PhysicalPageAllocator.alloc_contiguous_pages_spec h.sized count
    rw [hcall] at hspec
    cases hspec
    exact h
  | @dealloc addr count after hlive hcall =>
    have hbound := h.bounded _ hlive
    rw [← h.same_frames] at hbound
    obtain ⟨after', hcall', hframes, hsized, hused⟩ :=
      PhysicalPageAllocator.dealloc_contiguous_pages_spec h.sized hbound
    obtain rfl : after' = after := ok.inj (hcall'.symm.trans hcall)
    exact (h.perm (List.perm_cons_erase hlive)).dealloc hframes hsized hused

/-- Whatever a client allocates and frees, and in whatever order, its
allocations, the frames used at the start and the free frames stay apart; once
everything is freed the bitmap is the initial one. -/
theorem allocator_ownership {initial : PhysicalPageAllocator} (hsized : initial.Sized) {s : Session}
    (hrun : Relation.ReflTransGen Step ⟨initial, []⟩ s) :
    Owned initial s ∧
    (∀ a ∈ s.live, ∀ frame ∈ frames a, frame ∉ initial.usedFrames ∧ frame < initial.num_frames) ∧
    (∀ count after, s.allocator.alloc_contiguous_pages count = ok (none, after) → after = s.allocator) ∧
    (∀ count, s.allocator.alloc_contiguous_pages count ≠ fail .indexOutOfRange) ∧
    (∀ a ∈ s.live, ∃ after, s.allocator.dealloc_contiguous_pages a.1.as_u64 a.2 = ok after) ∧
    (s.live = [] → s.allocator.bitmap = initial.bitmap) := by
  have howned : Owned initial s := reaches_invariant (Owned initial)
    (fun _ _ => Owned.step) hrun (.initial hsized)
  refine ⟨howned, ?_, ?_, ?_, ?_, ?_⟩
  · intro a ha frame hframe
    exact ⟨Set.disjoint_left.mp (howned.apart_initial a ha) hframe, hframe.2.trans_le (howned.bounded a ha)⟩
  · intro count after hcall
    have hspec := PhysicalPageAllocator.alloc_contiguous_pages_spec howned.sized count
    rw [hcall] at hspec
    cases hspec
    rfl
  · intro count hcall
    have hspec := PhysicalPageAllocator.alloc_contiguous_pages_spec howned.sized count
    rw [hcall] at hspec
    cases hspec with
    | unaddressable _ hpanic => exact hpanic rfl
  · intro a ha
    have hbound := howned.bounded a ha
    rw [← howned.same_frames] at hbound
    obtain ⟨after, hcall, _⟩ := PhysicalPageAllocator.dealloc_contiguous_pages_spec howned.sized hbound
    exact ⟨after, hcall⟩
  · intro hempty
    have hused := howned.used
    simp only [hempty, List.not_mem_nil, Set.iUnion_of_empty, Set.iUnion_empty, Set.union_empty] at hused
    refine Slice.ext_bit (howned.sized.trans (howned.same_frames ▸ hsized.symm)) fun frame _ => ?_
    exact Bool.eq_iff_iff.mpr (Set.ext_iff.mp hused frame)

/-- Two allocations next to a reserved frame, the first of which is freed. -/
theorem allocator_ownership_reserved :
    ∃ s : Session, s.live = [(⟨16384, by decide⟩, 2)] ∧
      Owned ⟨⟨[1], by decide⟩, 7, by decide⟩ s ∧ s.allocator.bitmap.val = [49] := by
  let allocator (byte : UInt8) : PhysicalPageAllocator := ⟨⟨[byte], by simp [isizeMax]⟩, 7, by decide⟩
  let first : PhysAddr × Nat := (⟨4096, by decide⟩, 3)
  let second : PhysAddr × Nat := (⟨16384, by decide⟩, 2)
  have hfirst : Step ⟨allocator 1, []⟩ ⟨allocator 15, [first]⟩ := .alloc rfl
  have hsecond : Step ⟨allocator 15, [first]⟩ ⟨allocator 63, [second, first]⟩ := .alloc rfl
  have hfreed : Step ⟨allocator 63, [second, first]⟩ ⟨allocator 49, [second, first].erase first⟩ :=
    .dealloc (by decide) rfl
  have hrun := ((Relation.ReflTransGen.single hfirst).tail hsecond).tail hfreed
  have hsized : (allocator 1).Sized := by simp [PhysicalPageAllocator.Sized, Slice.len, allocator]
  exact ⟨_, rfl, (allocator_ownership hsized hrun).1, rfl⟩

end conc_os.allocation.ppa
