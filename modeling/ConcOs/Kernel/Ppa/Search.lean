import ConcOs.Kernel.Ppa
import Mathlib.Order.Bounds.Basic

open rust Result

namespace conc_os.allocation.ppa

namespace PhysicalPageAllocator

/-- The bitmap has a bit for every frame. -/
def Sized (self : PhysicalPageAllocator) : Prop := self.bitmap.len = (self.num_frames + 7) / 8

/-- Whether a frame is in use. -/
def used (self : PhysicalPageAllocator) (frame : Nat) : Bool := self.bitmap.bit frame

/-- The bitmap has a bit for every frame, and may be longer. -/
def Covers (self : PhysicalPageAllocator) : Prop := (self.num_frames + 7) / 8 ≤ self.bitmap.len

theorem Sized.covers {self : PhysicalPageAllocator} (h : self.Sized) : self.Covers := h.ge

theorem Sized.of_len {self after : PhysicalPageAllocator} (h : self.Sized)
    (hframes : after.num_frames = self.num_frames) (hlen : after.bitmap.len = self.bitmap.len) :
    after.Sized := by rwa [Sized, hframes, hlen]

theorem Covers.byte_lt {self : PhysicalPageAllocator} (h : self.Covers) {frame : Nat}
    (hframe : frame < self.num_frames) : frame / 8 < self.bitmap.len := by
  rw [Covers] at h
  omega

/-- `is_free` reads the bit of a frame. -/
theorem is_free_eq {self : PhysicalPageAllocator} {page : Nat} (hpage : page / 8 < self.bitmap.len) :
    self.is_free page = ok (!self.used page) := by
  rw [is_free, Slice.index_byte hpage, bind_tc_ok, pure_eq_ok, ok.injEq]
  have hiff := Slice.and_bitMask_eq_zero_iff (self.bitmap.byte (page / 8)) page
  rw [Slice.shiftLeft_eq_bitMask, used, Slice.bit]
  cases hbit : (self.bitmap.byte (page / 8)).toNat.testBit (page % 8) with
  | true => simpa [hbit] using hiff
  | false => simpa [hbit] using hiff

/-- `set_bit` changes the bit of its frame and no other. -/
theorem set_bit_spec {self : PhysicalPageAllocator} (h : self.Covers) {frame : Nat}
    (hframe : frame < self.num_frames) (value : Bool) :
    ∃ after, self.set_bit frame value = ok after ∧ after.num_frames = self.num_frames ∧
      after.bitmap.len = self.bitmap.len ∧
      ∀ other, after.used other = if other = frame then value else self.used other := by
  have hbyte := h.byte_lt hframe
  obtain ⟨bitmap, hset, hval, hlen⟩ := self.bitmap.set_eq (frame / 8)
    (if value then self.bitmap.byte (frame / 8) ||| Slice.bitMask frame
      else self.bitmap.byte (frame / 8) &&& ~~~Slice.bitMask frame) hbyte
  refine ⟨{ self with bitmap := bitmap }, ?_, rfl, hlen, fun other => ?_⟩
  · simp only [set_bit, Slice.index_byte hbyte, bind_tc_ok, Slice.shiftLeft_eq_bitMask, hset, pure_eq_ok]
  · change bitmap.bit other = _
    rw [Slice.bit, self.bitmap.byte_set hbyte hval, used, Slice.bit]
    have hmod : other % 8 < 8 := Nat.mod_lt _ (by decide)
    by_cases hsame : frame / 8 = other / 8
    · have hmask : decide (frame % 8 = other % 8) = decide (other = frame) := by
        rw [decide_eq_decide]
        omega
      rw [if_pos hsame]
      cases value with
      | true =>
        rw [if_pos rfl, Slice.testBit_or_bitMask, hsame, hmask]
        by_cases heq : other = frame <;> simp [heq]
      | false =>
        rw [if_neg (by decide), Slice.testBit_and_not_bitMask _ _ hmod, hsame, hmask]
        by_cases heq : other = frame <;> simp [heq]
    · have hother : other ≠ frame := by
        rintro rfl
        exact hsame rfl
      rw [if_neg hsame, if_neg hother]

/-- Writing the bits of a range of frames. -/
theorem set_range_spec {self : PhysicalPageAllocator} (h : self.Covers) {start count : Nat}
    (hrange : start + count ≤ self.num_frames) (value : Bool) :
    ∃ after, (List.range' start count).foldlM (fun self page => self.set_bit page value) self = ok after ∧
      after.num_frames = self.num_frames ∧ after.bitmap.len = self.bitmap.len ∧
      ∀ frame, after.used frame = if start ≤ frame ∧ frame < start + count then value else self.used frame := by
  induction count generalizing self start with
  | zero =>
    refine ⟨self, rfl, rfl, rfl, fun frame => ?_⟩
    rw [if_neg (by omega)]
  | succ count ih =>
    have hfirst : start < self.num_frames := by omega
    obtain ⟨next, hnext, hframes, hlen, hused⟩ := set_bit_spec h hfirst value
    have hcovers : next.Covers := by rwa [Covers, hframes, hlen]
    have hrest : start + 1 + count ≤ next.num_frames := by omega
    obtain ⟨after, hafter, hframes', hlen', hused'⟩ := ih hcovers hrest
    refine ⟨after, ?_, hframes'.trans hframes, hlen'.trans hlen, fun frame => ?_⟩
    · rw [List.range'_succ, List.foldlM_cons, hnext, bind_tc_ok, hafter]
    · rw [hused', hused]
      split_ifs <;> first | rfl | omega

/-- All frames of a range are free. -/
def FreeRun (self : PhysicalPageAllocator) (start count : Nat) : Prop :=
  ∀ frame, start ≤ frame → frame < start + count → self.used frame = false

/-- What the search knows when it has come to `page`: `run_length` is the
length of the longest free run that ends there, and no run of `count` pages
ends before. -/
structure Searched (allocator : PhysicalPageAllocator) (count page run_start run_length : Nat) : Prop where
  bound : page ≤ allocator.num_frames
  short : run_length < count
  within : run_length ≤ page
  start_eq : 0 < run_length → run_start = page - run_length
  free : ∀ frame, page - run_length ≤ frame → frame < page → allocator.used frame = false
  longest : ∀ start ≤ page, (∀ frame, start ≤ frame → frame < page → allocator.used frame = false) →
    page - run_length ≤ start
  none_before : ∀ start, start + count ≤ page → ¬ allocator.FreeRun start count

/-- The search result: the least run of free pages, if there is one. -/
def FindOutcome (self : PhysicalPageAllocator) (count : Nat) : Option Nat → Prop
  | some start => start + count ≤ self.num_frames ∧ self.FreeRun start count ∧
      ∀ other, self.FreeRun other count → start ≤ other
  | none => ∀ start, start + count ≤ self.num_frames → ¬ self.FreeRun start count

theorem Searched.start {self : PhysicalPageAllocator} {count : Nat} (hcount : 0 < count) :
    Searched self count 0 0 0 where
  bound := Nat.zero_le _
  short := hcount
  within := le_rfl
  start_eq := by omega
  free := by omega
  longest := by omega
  none_before := by omega

/-- A used page ends every run. -/
theorem Searched.used {self : PhysicalPageAllocator} {count page run_start run_length : Nat}
    (h : Searched self count page run_start run_length) (hpage : page < self.num_frames)
    (hused : self.used page = true) : Searched self count (page + 1) run_start 0 where
  bound := hpage
  short := by
    have := h.short
    omega
  within := Nat.zero_le _
  start_eq := by omega
  free := by omega
  longest := by
    intro start hstart hfree
    by_contra hless
    have := hfree page (by omega) (by omega)
    rw [hused] at this
    cases this
  none_before := by
    intro start hbound hrun
    rcases Nat.lt_or_ge page (start + count) with hlast | hbefore
    · have hpos := h.short
      have := hrun page (by omega) hlast
      rw [hused] at this
      cases this
    · exact h.none_before start hbefore hrun

/-- A free page extends the longest run. -/
theorem Searched.free_page {self : PhysicalPageAllocator} {count page run_start run_length : Nat}
    (h : Searched self count page run_start run_length) (hfree : self.used page = false) :
    (∀ frame, page - run_length ≤ frame → frame < page + 1 → self.used frame = false) ∧
      ∀ start ≤ page + 1, (∀ frame, start ≤ frame → frame < page + 1 → self.used frame = false) →
        page - run_length ≤ start := by
  constructor
  · intro frame hlow hhigh
    rcases Nat.lt_or_ge frame page with hlt | hge
    · exact h.free frame hlow hlt
    · rwa [show frame = page by omega]
  · intro start hstart hrun
    rcases Nat.lt_or_ge page start with hlt | hle
    · omega
    · exact h.longest start hle fun frame hlow hhigh => hrun frame hlow (by omega)

/-- One iteration of the search. -/
theorem find_step_spec {self : PhysicalPageAllocator} (hcovers : self.Covers)
    {count page run_start run_length : Nat} (h : Searched self count page run_start run_length) :
    (∃ run_start' run_length', self.find_step count (page, run_start, run_length) =
          ok (.cont (page + 1, run_start', run_length')) ∧
        Searched self count (page + 1) run_start' run_length') ∨
      ∃ result, self.find_step count (page, run_start, run_length) = ok (.done result) ∧
        self.FindOutcome count result := by
  have hfits := self.num_frames_le
  have hbound := h.bound
  have hshort := h.short
  have hwithin := h.within
  by_cases hpage : page < self.num_frames
  swap
  · refine Or.inr ⟨none, by simp only [find_step, if_neg hpage, pure_eq_ok], fun start hstart => ?_⟩
    exact h.none_before start (by omega)
  simp only [find_step, if_pos hpage, is_free_eq (hcovers.byte_lt hpage), bind_tc_ok]
  cases hused : self.used page with
  | true => exact Or.inl ⟨run_start, 0, rfl, h.used hpage hused⟩
  | false =>
    obtain ⟨hrun, hlongest⟩ := h.free_page hused
    have hstart : (if run_length = 0 then page else run_start) = page - run_length := by
      split
      · omega
      · exact h.start_eq (by omega)
    simp only [Bool.not_false, if_true, Usize.add_eq (show run_length + 1 ≤ usizeMax by omega), bind_tc_ok,
      hstart]
    by_cases hdone : run_length + 1 = count
    · refine Or.inr ⟨some (page - run_length), by rw [if_pos hdone]; rfl, by omega, ?_, ?_⟩
      · intro frame hlow hhigh
        exact hrun frame hlow (by omega)
      · intro other hother
        -- An earlier run would have ended before this page.
        by_contra hless
        exact h.none_before other (by omega) hother
    · refine Or.inl ⟨page - run_length, run_length + 1, by rw [if_neg hdone]; rfl, ?_⟩
      refine ⟨hpage, by omega, by omega, by omega, ?_, ?_, ?_⟩
      · intro frame hlow hhigh
        exact hrun frame (by omega) hhigh
      · intro start hle hfree
        have := hlongest start hle hfree
        omega
      · intro start hstop hfree
        rcases Nat.lt_or_ge page (start + count) with hlast | hbefore
        · have := hlongest start (by omega) fun frame hlow hhigh => hfree frame hlow (by omega)
          omega
        · exact h.none_before start hbefore hfree

/-- The search always returns, and finds the least free run. -/
theorem find_contiguous_pages_spec {self : PhysicalPageAllocator} (hcovers : self.Covers) {count : Nat}
    (hcount : 0 < count) :
    ∃ result, self.find_contiguous_pages count = ok result ∧ self.FindOutcome count result := by
  rw [find_contiguous_pages, if_neg (by omega)]
  refine loop_spec (fun state => Searched self count state.1 state.2.1 state.2.2) (self.FindOutcome count)
    (fun state => self.num_frames - state.1) ?_ (self.num_frames + 1) (0, 0, 0) (Searched.start hcount)
    (by simp)
  rintro ⟨page, run_start, run_length⟩ hinv
  rcases find_step_spec hcovers hinv with ⟨run_start', run_length', hstep, hnext⟩ | hdone
  · have hbound := hnext.bound
    exact Or.inl ⟨_, hstep, hnext, by dsimp only; omega⟩
  · exact Or.inr hdone

/-- What `alloc_contiguous_pages` does with the run it has found: it marks the
run and returns its address, which panics beyond the physical address space. -/
theorem alloc_of_find {self : PhysicalPageAllocator} (h : self.Covers) {count start : Nat}
    (hfind : self.find_contiguous_pages count = ok (some start)) (hbound : start + count ≤ self.num_frames) :
    ∃ after, (∀ frame, after.used frame =
          if start ≤ frame ∧ frame < start + count then true else self.used frame) ∧
      after.num_frames = self.num_frames ∧ after.bitmap.len = self.bitmap.len ∧
      ((∃ addr, addr.as_u64 = start * 4096 ∧ self.alloc_contiguous_pages count = ok (some addr, after)) ∨
        (2 ^ 40 ≤ start ∧ ∃ panic, panic ≠ .indexOutOfRange ∧
          self.alloc_contiguous_pages count = fail panic)) := by
  obtain ⟨after, hset, hframes, hlen, hused⟩ := set_range_spec h hbound true
  have hset' : (List.range' start count).foldlM (fun self page => self.set_used page) self = ok after := hset
  have hfits := self.num_frames_le
  refine ⟨after, hused, hframes, hlen, ?_⟩
  simp only [alloc_contiguous_pages, hfind, bind_tc_ok, Usize.add_eq (show start + count ≤ usizeMax by omega),
    Nat.add_sub_cancel_left, hset']
  by_cases hmul : start * 4096 ≤ usizeMax
  · rw [Usize.mul, if_pos hmul, bind_tc_ok]
    by_cases haddr : start * 4096 < 2 ^ 52
    · rw [PhysAddr.new, dif_pos haddr, bind_tc_ok]
      exact Or.inl ⟨_, rfl, rfl⟩
    · rw [PhysAddr.new, dif_neg haddr]
      exact Or.inr ⟨by omega, _, by simp, rfl⟩
  · rw [Usize.mul, if_neg hmul]
    simp only [usizeMax] at hmul
    exact Or.inr ⟨by omega, _, by simp, rfl⟩

/-- Where there is a run of free frames below the end of the physical address
space, an allocation returns one. -/
theorem alloc_returns {self : PhysicalPageAllocator} (h : self.Covers) {count start : Nat} (hcount : 0 < count)
    (hfree : self.FreeRun start count) (hbound : start + count ≤ self.num_frames)
    (hphys : self.num_frames ≤ 2 ^ 40) :
    ∃ addr after, self.alloc_contiguous_pages count = ok (some addr, after) ∧
      addr.as_u64 < self.num_frames * 4096 := by
  obtain ⟨result, hfind, hresult⟩ := find_contiguous_pages_spec h hcount
  cases result with
  | none => exact absurd hfree (hresult start hbound)
  | some found =>
    have hfits : found + count ≤ self.num_frames := hresult.1
    obtain ⟨after, _, _, _, ⟨addr, haddr, halloc⟩ | ⟨hbig, _⟩⟩ := alloc_of_find h hfind hfits
    · exact ⟨addr, after, halloc, by omega⟩
    · omega

/-- A run of `count` frames of the allocator whose bits are all clear. -/
structure Fits (allocator : PhysicalPageAllocator) (count start : Nat) : Prop where
  bound : start + count ≤ allocator.num_frames
  free : ∀ frame, start ≤ frame → frame < start + count → allocator.used frame = false

/-- The two outcomes of the search, in terms of the runs there are. -/
theorem find_contiguous_pages_cases {self : PhysicalPageAllocator} (h : self.Covers) {count : Nat}
    (hcount : 0 < count) :
    (∃ start, self.find_contiguous_pages count = ok (some start) ∧
        IsLeast { start | self.Fits count start } start) ∨
      (self.find_contiguous_pages count = ok none ∧ ∀ start, ¬ self.Fits count start) := by
  obtain ⟨result, hfind, hresult⟩ := find_contiguous_pages_spec h hcount
  cases result with
  | some start =>
    obtain ⟨hbound, hrun, hleast⟩ := hresult
    refine Or.inl ⟨start, hfind, ⟨hbound, hrun⟩, ?_⟩
    intro other hother
    exact hleast other hother.free
  | none =>
    refine Or.inr ⟨hfind, fun start hfits => ?_⟩
    exact hresult start hfits.bound hfits.free

/-- The search finds the least free run that is long enough, and nothing only
if there is none; so an allocation reports exhaustion only then. -/
theorem find_contiguous_pages_least {self : PhysicalPageAllocator} {count : Nat}
    (hcovers : (self.num_frames + 7) / 8 ≤ self.bitmap.len) (hcount : 0 < count) :
    (∀ start, self.find_contiguous_pages count = ok (some start) ↔
      IsLeast { start | self.Fits count start } start) ∧
    (self.find_contiguous_pages count = ok none ↔ ¬ ∃ start, self.Fits count start) ∧
    ((∃ start, self.Fits count start) → ∀ after, self.alloc_contiguous_pages count ≠ ok (none, after)) ∧
    (∀ start, IsLeast { start | self.Fits count start } start → start < 2 ^ 40 →
      ∃ addr after, addr.as_u64 = start * 4096 ∧ self.alloc_contiguous_pages count = ok (some addr, after)) := by
  have h : self.Covers := hcovers
  rcases find_contiguous_pages_cases h hcount with ⟨found, hfind, hfound⟩ | ⟨hfind, hnone⟩
  · obtain ⟨after, _, _, _, halloc⟩ := alloc_of_find h hfind hfound.1.bound
    refine ⟨fun start => ?_, ?_, fun _ other hother => ?_, fun start hleast hsmall => ?_⟩
    · rw [hfind, ok.injEq, Option.some.injEq]
      constructor
      · rintro rfl
        exact hfound
      · exact hfound.unique
    · simp only [hfind, ok.injEq, reduceCtorEq, false_iff, not_not]
      exact ⟨found, hfound.1⟩
    · rcases halloc with ⟨addr, _, hcall⟩ | ⟨_, panic, _, hcall⟩ <;> simp [hcall] at hother
    · obtain rfl := hfound.unique hleast
      rcases halloc with ⟨addr, haddr, hcall⟩ | ⟨hbig, _⟩
      · exact ⟨addr, after, haddr, hcall⟩
      · omega
  · refine ⟨fun start => ?_, ?_, fun hsome => ?_, fun start hleast => ?_⟩
    · simp only [hfind, ok.injEq, reduceCtorEq, false_iff]
      exact fun hleast => hnone start hleast.1
    · simp only [hfind, true_iff, not_exists]
      exact hnone
    · obtain ⟨start, hfits⟩ := hsome
      exact absurd hfits (hnone start)
    · exact absurd hleast.1 (hnone start)

/-- A run that follows a shorter one and ends at the last frame, in a bitmap
with a byte to spare. -/
theorem find_contiguous_pages_least_last :
    PhysicalPageAllocator.find_contiguous_pages ⟨⟨[0b100, 0xff], by decide⟩, 7, by decide⟩ 4 = ok (some 3) := by
  refine ((find_contiguous_pages_least (by decide) (by decide)).1 3).mpr ⟨⟨by decide, ?_⟩, ?_⟩
  · intro frame hlow hhigh
    interval_cases frame <;> rfl
  · intro other hother
    by_contra hless
    have hused := hother.free 2 (by omega) (by omega)
    exact absurd hused (by decide)

end PhysicalPageAllocator

end conc_os.allocation.ppa
