import ConcOs.Kernel.Stream.Delivery

open rust Result

namespace conc_os.task.stream

variable {α Waker : Type}

namespace Channel

/-- The calls of the producer in one interrupt handler, with what became of the
items. -/
def addAll : Channel α Waker → List α → List (α × Added × Option Waker) × Channel α Waker
  | self, [] => ([], self)
  | self, item :: items =>
    ((item, (self.add item).1, (self.add item).2.1) :: ((self.add item).2.2.addAll items).1,
      ((self.add item).2.2.addAll items).2)

theorem addAll_uninit (items : List α) : ((uninit : Channel α Waker).addAll items).2 = .uninit ∧
    ∀ event ∈ ((uninit : Channel α Waker).addAll items).1, event.2.1 = .uninitialized := by
  induction items with
  | nil => exact ⟨rfl, by simp [addAll]⟩
  | cons item items ih => exact ⟨ih.1, List.forall_mem_cons.mpr ⟨rfl, ih.2⟩⟩

theorem addAll_items (self : Channel α Waker) (items : List α) : (self.addAll items).1.map Prod.fst = items := by
  induction items generalizing self with
  | nil => rfl
  | cons item items ih => rw [addAll, List.map_cons, ih]

/-- What is queued stays queued when items are added. -/
theorem mem_items_add {self : Channel α Waker} {queued : α} (h : queued ∈ self.items) (item : α) :
    queued ∈ (self.add item).2.2.items := by
  cases hqueue : self.queue with
  | none => simp [items, hqueue] at h
  | some queue =>
    have hspec := add_spec (show self.Ready by rw [Ready, hqueue]; rfl) item
    generalize self.add item = result at hspec ⊢
    cases hspec with
    | accepted hroom hready hitems hwaker =>
      rw [hitems]
      exact List.mem_append_left _ h
    | dropped hfull => exact h

theorem mem_items_addAll {self : Channel α Waker} {queued : α} (h : queued ∈ self.items) (items : List α) :
    queued ∈ (self.addAll items).2.items := by
  induction items generalizing self with
  | nil => exact h
  | cons item items ih => exact ih (mem_items_add h item)

end Channel

/-- The steps of the stream that an interrupt handler makes. -/
def streamLabels (events : List (α × Added × Option Waker)) : List (Label α Waker) :=
  (events.filter fun event => event.2.1 ≠ .uninitialized).map fun event =>
    .produced event.1 event.2.1 event.2.2

theorem streamLabels_uninit {events : List (α × Added × Option Waker)}
    (h : ∀ event ∈ events, event.2.1 = .uninitialized) : streamLabels events = [] := by
  rw [streamLabels, List.map_eq_nil_iff, List.filter_eq_nil_iff]
  intro event hevent
  simp [h event hevent]

/-- The items that an interrupt handler has queued. -/
def acceptedBy (events : List (α × Added × Option Waker)) : List α :=
  (events.filter fun event => event.2.1 = .accepted).map Prod.fst

theorem acceptedItems_streamLabels (events : List (α × Added × Option Waker)) :
    acceptedItems (streamLabels events) = acceptedBy events := by
  induction events with
  | nil => rfl
  | cons event events ih =>
    obtain ⟨item, result, woken⟩ := event
    unfold acceptedItems streamLabels acceptedBy at ih ⊢
    cases result with
    | accepted =>
      rw [List.filter_cons_of_pos (by simp), List.filter_cons_of_pos (by simp)]
      exact congrArg (List.cons item) ih
    | dropped =>
      rw [List.filter_cons_of_pos (by simp), List.filter_cons_of_neg (by simp)]
      exact ih
    | uninitialized => rw [List.filter_cons_of_neg (by simp), List.filter_cons_of_neg (by simp), ih]

theorem yieldedItems_streamLabels (events : List (α × Added × Option Waker)) :
    yieldedItems (streamLabels events) = [] := by
  simp [yieldedItems, streamLabels, Label.yielded?, List.filterMap_eq_nil_iff]

theorem addAll_run {channel : Channel α Waker} (h : channel.Ready) (control : Control Waker) (items : List α) :
    Run Step ⟨channel, control⟩ (streamLabels (channel.addAll items).1) ⟨(channel.addAll items).2, control⟩ := by
  induction items generalizing channel with
  | nil => exact .nil
  | cons item items ih =>
    have hspec := Channel.add_spec h item
    have hstep : Step (⟨channel, control⟩ : Session α Waker)
        (.produced item (channel.add item).1 (channel.add item).2.1) ⟨(channel.add item).2.2, control⟩ :=
          .add rfl
    obtain ⟨hready, hresult⟩ : (channel.add item).2.2.Ready ∧ (channel.add item).1 ≠ .uninitialized := by
      generalize channel.add item = result at hspec ⊢
      cases hspec with
      | accepted hroom hready hitems hwaker => exact ⟨hready, by simp⟩
      | dropped hfull => exact ⟨h, by simp⟩
    have hcons : streamLabels (channel.addAll (item :: items)).1 =
        [.produced item (channel.add item).1 (channel.add item).2.1] ++
          streamLabels ((channel.add item).2.2.addAll items).1 := by
      simp [streamLabels, Channel.addAll, hresult]
    rw [hcons]
    exact (Run.nil.snoc hstep).append (ih hready)

/-- The stream's part of a run of a task and its interrupts is a run of the stream,
from its construction on. -/
structure Streamed (constructed : Prop) (labels : List (Label α Waker)) (s : Session α Waker) : Prop where
  before : ¬ constructed → s = ⟨.uninit, .idle⟩ ∧ labels = []
  after : constructed → Run Step Session.new labels s

namespace Streamed

variable {constructed : Prop} {labels : List (Label α Waker)} {s : Session α Waker}

theorem boot : Streamed False ([] : List (Label α Waker)) ⟨.uninit, .idle⟩ := ⟨fun _ => ⟨rfl, rfl⟩, False.elim⟩

/-- The constructor finds the queue as it was at the start. -/
theorem init_returns (h : Streamed constructed labels s) (hnot : ¬ constructed) :
    ∃ channel, s.channel.init = ok channel := by
  rw [(h.before hnot).1]
  exact ⟨_, rfl⟩

/-- Once the stream has been constructed, `poll_next` finds its queue. -/
theorem pops_return (h : Streamed constructed labels s) (hconstructed : constructed) :
    (∃ popped, s.channel.pop = ok popped) ∧ ∃ popped, s.channel.second_pop = ok popped := by
  have hready := (run_consistent (h.after hconstructed)).ready
  obtain ⟨item, after, hpop, _⟩ := Channel.pop_spec hready
  obtain ⟨item', after', hsecond, _⟩ := Channel.second_pop_spec hready
  exact ⟨⟨_, hpop⟩, _, hsecond⟩

/-- The constructor. -/
theorem construct (h : Streamed constructed labels s) (hnot : ¬ constructed) {channel : Channel α Waker}
    (hinit : s.channel.init = ok channel) : Streamed True labels ⟨channel, s.control⟩ := by
  obtain ⟨rfl, rfl⟩ := h.before hnot
  obtain rfl := ok.inj hinit
  exact ⟨fun hfalse => absurd trivial hfalse, fun _ => .nil⟩

/-- An interrupt handler. -/
theorem interrupt (h : Streamed constructed labels s) (items : List α) :
    Streamed constructed (labels ++ streamLabels (s.channel.addAll items).1)
      ⟨(s.channel.addAll items).2, s.control⟩ := by
  refine ⟨fun hnot => ?_, fun hconstructed => ?_⟩
  · obtain ⟨rfl, rfl⟩ := h.before hnot
    obtain ⟨hchannel, hevents⟩ := @Channel.addAll_uninit α Waker items
    exact ⟨by rw [hchannel], streamLabels_uninit hevents⟩
  · have hrun := h.after hconstructed
    exact hrun.append (addAll_run (run_consistent hrun).ready s.control items)

/-- A step of `poll_next`. -/
theorem poll (h : Streamed constructed labels s) (hconstructed : constructed) {label : Label α Waker}
    {next : Session α Waker} (hstep : Step s label next) : Streamed constructed (labels ++ [label]) next :=
  ⟨fun hnot => absurd hconstructed hnot, fun _ => (h.after hconstructed).snoc hstep⟩

theorem congr {other : Prop} (h : Streamed constructed labels s) (hiff : constructed ↔ other) :
    Streamed other labels s :=
  ⟨fun hnot => h.before fun hc => hnot (hiff.mp hc), fun hother => h.after (hiff.mpr hother)⟩

end Streamed

end conc_os.task.stream
