import ConcOs.Rust.Run
import ConcOs.Kernel.Stream

open rust Result
open conc_os.task.network

namespace conc_os.task.stream

variable {α Waker : Type}

/-- Where the task is in `poll_next`. -/
inductive Control (Waker : Type) where
  /-- not in `poll_next` -/
  | idle
  /-- after a first `pop` that found nothing -/
  | missed (waker : Waker)
  /-- after `register` -/
  | registered (waker : Waker)

structure Session (α Waker : Type) where
  channel : Channel α Waker
  control : Control Waker

/-- A stream that has just been constructed. -/
def Session.new : Session α Waker := ⟨⟨some (ArrayQueue.new α 100), none⟩, .idle⟩

inductive Label (α Waker : Type) where
  | produced (item : α) (result : Added) (woken : Option Waker)
  | hit (waker : Waker) (item : α)
  | missed (waker : Waker)
  | registered (waker : Waker)
  | late (waker : Waker) (item : α)
  | pended (waker : Waker)

/-- The producer and the three steps of `poll_next`. -/
inductive Step : Session α Waker → Label α Waker → Session α Waker → Prop where
  | add {s : Session α Waker} {item : α} {result : Added} {woken : Option Waker} {channel : Channel α Waker}
      (hcall : s.channel.add item = (result, woken, channel)) :
      Step s (.produced item result woken) { s with channel := channel }
  | hit {s : Session α Waker} {item : α} {channel : Channel α Waker} (waker : Waker)
      (hcontrol : s.control = .idle) (hcall : s.channel.pop = ok (some item, channel)) :
      Step s (.hit waker item) ⟨channel, .idle⟩
  | miss {s : Session α Waker} {channel : Channel α Waker} (waker : Waker) (hcontrol : s.control = .idle)
      (hcall : s.channel.pop = ok (none, channel)) : Step s (.missed waker) ⟨channel, .missed waker⟩
  | register {s : Session α Waker} {waker : Waker} (hcontrol : s.control = .missed waker) :
      Step s (.registered waker) ⟨s.channel.register waker, .registered waker⟩
  | late {s : Session α Waker} {waker : Waker} {item : α} {channel : Channel α Waker}
      (hcontrol : s.control = .registered waker) (hcall : s.channel.second_pop = ok (some item, channel)) :
      Step s (.late waker item) ⟨channel, .idle⟩
  | pend {s : Session α Waker} {waker : Waker} {channel : Channel α Waker}
      (hcontrol : s.control = .registered waker) (hcall : s.channel.second_pop = ok (none, channel)) :
      Step s (.pended waker) ⟨channel, .idle⟩

namespace Label

def accepted? : Label α Waker → Option α
  | produced item .accepted _ => some item
  | _ => none

def yielded? : Label α Waker → Option α
  | hit _ item | late _ item => some item
  | _ => none

def woken : Label α Waker → Option Waker
  | produced _ _ woken => woken
  | _ => none

/-- The steps of `poll_next`. -/
def Polls : Label α Waker → Prop
  | produced _ _ _ => False
  | _ => True

/-- The steps at which `poll_next` returns. -/
def Completes : Label α Waker → Prop
  | hit _ _ | late _ _ | pended _ => True
  | _ => False

end Label

/-- The items that have been queued. -/
def acceptedItems (trace : List (Label α Waker)) : List α := trace.filterMap Label.accepted?

/-- The items that the stream has yielded. -/
def yieldedItems (trace : List (Label α Waker)) : List α := trace.filterMap Label.yielded?

theorem acceptedItems_snoc (trace : List (Label α Waker)) (label : Label α Waker) :
    acceptedItems (trace ++ [label]) = acceptedItems trace ++ label.accepted?.toList :=
  filterMap_snoc _ _ _

theorem yieldedItems_snoc (trace : List (Label α Waker)) (label : Label α Waker) :
    yieldedItems (trace ++ [label]) = yieldedItems trace ++ label.yielded?.toList :=
  filterMap_snoc _ _ _

/-- The last call of `poll_next` to complete returned `Pending`; it was passed
`waker`, and `since` is what has happened since it registered it. -/
def LastPending (trace : List (Label α Waker)) (waker : Waker) (since : List (Label α Waker)) : Prop :=
  ∃ before wait after, trace = before ++ .registered waker :: since ∧ since = wait ++ .pended waker :: after ∧
    (∀ label ∈ wait, ¬ label.Polls) ∧ ∀ label ∈ after, ¬ label.Completes

/-- A call of `poll_next` has just registered `waker`, and `since` is what has
happened since. -/
def Registered (trace : List (Label α Waker)) (waker : Waker) (since : List (Label α Waker)) : Prop :=
  Since Label.Polls trace (.registered waker) since

def WokenIn (since : List (Label α Waker)) (waker : Waker) : Prop := ∃ label ∈ since, label.woken = some waker

theorem WokenIn.snoc {since : List (Label α Waker)} {waker : Waker} (h : WokenIn since waker)
    (label : Label α Waker) : WokenIn (since ++ [label]) waker := by
  obtain ⟨old, hmem, hwoken⟩ := h
  exact ⟨old, List.mem_append_left _ hmem, hwoken⟩

theorem WokenIn.last (since : List (Label α Waker)) {label : Label α Waker} {waker : Waker}
    (h : label.woken = some waker) : WokenIn (since ++ [label]) waker :=
  ⟨label, by simp, h⟩

theorem LastPending.snoc {trace since : List (Label α Waker)} {waker : Waker} (h : LastPending trace waker since)
    {label : Label α Waker} (hlabel : ¬ label.Completes) :
    LastPending (trace ++ [label]) waker (since ++ [label]) := by
  obtain ⟨before, wait, after, htrace, hsince, hwait, hafter⟩ := h
  refine ⟨before, wait, after ++ [label], by simp [htrace], by simp [hsince], hwait, fun other hother => ?_⟩
  rcases List.mem_append.mp hother with hold | hnew
  · exact hafter other hold
  · rwa [List.mem_singleton.mp hnew]

/-- A registration that found nothing the second time is the last to return
`Pending`. -/
theorem Registered.pend {trace since : List (Label α Waker)} {waker : Waker} (h : Registered trace waker since) :
    LastPending (trace ++ [.pended waker]) waker (since ++ [.pended waker]) := by
  obtain ⟨before, htrace⟩ := h.split
  exact ⟨before, since, [], by simp [htrace], rfl, h.quiet, by simp⟩

/-- The items are delivered in order, and no item waits without a wake-up: a
registered waker is in its slot until it is woken, and while the last one is,
nothing is queued. -/
structure Consistent (trace : List (Label α Waker)) (s : Session α Waker) : Prop where
  ready : s.channel.Ready
  fifo : yieldedItems trace ++ s.channel.items = acceptedItems trace
  armed : ∀ waker, s.control = .registered waker →
    ∃ since, Registered trace waker since ∧ (s.channel.waker = some waker ∨ WokenIn since waker)
  pending : ∀ waker after, Since Label.Completes trace (.pended waker) after →
    ∃ since, LastPending trace waker since ∧
      (WokenIn since waker ∨
        (∃ next since', s.control = .registered next ∧ Registered trace next since' ∧
          (s.channel.items = [] ∨ WokenIn since' next)) ∨
        (∀ next, s.control ≠ .registered next) ∧ s.channel.waker = some waker ∧ s.channel.items = [])

theorem Consistent.new : Consistent ([] : List (Label α Waker)) Session.new where
  ready := rfl
  fifo := rfl
  armed := by simp [Session.new]
  pending := by
    intro waker after hsince
    obtain ⟨before, hsplit⟩ := hsince.split
    simp at hsplit

/-- After a poll that yields an item, none is pending. -/
theorem not_pending_snoc {trace after : List (Label α Waker)} {label : Label α Waker} {waker : Waker}
    (hcompletes : label.Completes) (hlabel : label ≠ .pended waker) :
    ¬ Since Label.Completes (trace ++ [label]) (.pended waker) after := by
  intro hsince
  rcases hsince.snoc_cases with ⟨_, heq, _⟩ | ⟨_, hnot, _⟩
  · exact hlabel heq.symm
  · exact hnot hcompletes

theorem Consistent.add {trace : List (Label α Waker)} {s : Session α Waker} (h : Consistent trace s) {item : α}
    {result : Added} {woken : Option Waker} {channel : Channel α Waker}
    (hcall : s.channel.add item = (result, woken, channel)) :
    Consistent (trace ++ [.produced item result woken]) { s with channel := channel } := by
  have hspec := Channel.add_spec h.ready item
  have hpolls : ¬ (Label.produced item result woken).Polls := id
  have hcompletes : ¬ (Label.produced item result woken).Completes := id
  rw [hcall] at hspec
  have hpending : ∀ waker after, Since Label.Completes (trace ++ [.produced item result woken])
    (.pended waker) after →
      ∃ after, Since Label.Completes trace (.pended waker) after := by
    intro waker after hsince
    rcases hsince.snoc_cases with ⟨hlast, _⟩ | ⟨before, _, _, hbefore⟩
    · exact absurd hlast hcompletes
    · exact ⟨before, hbefore⟩
  cases hspec with
  | accepted hroom hready hitems hwaker =>
    refine ⟨hready, ?_, fun waker hcontrol => ?_, fun waker after hsince => ?_⟩
    · rw [yieldedItems_snoc, acceptedItems_snoc, ← h.fifo]
      simp [Label.yielded?, Label.accepted?, hitems]
    · obtain ⟨since, hregistered, hslot | hwoken⟩ := h.armed waker hcontrol
      · exact ⟨_, hregistered.snoc hpolls, Or.inr (.last since hslot)⟩
      · exact ⟨_, hregistered.snoc hpolls, Or.inr (hwoken.snoc _)⟩
    · obtain ⟨_, hbefore⟩ := hpending waker after hsince
      obtain ⟨since, hlast, hwoken | ⟨next, since', hcontrol, hregistered, _⟩ | ⟨_, hslot, _⟩⟩ :=
        h.pending _ _ hbefore
      · exact ⟨_, hlast.snoc hcompletes, Or.inl (hwoken.snoc _)⟩
      · refine ⟨_, hlast.snoc hcompletes, Or.inr (Or.inl ⟨next, _, hcontrol, hregistered.snoc hpolls,
          Or.inr ?_⟩)⟩
        obtain ⟨since, hsame, hslot | hwoken⟩ := h.armed next hcontrol
        · exact .last since' hslot
        · rw [(hregistered.unique hsame).2]
          exact hwoken.snoc _
      · exact ⟨_, hlast.snoc hcompletes, Or.inl (.last since hslot)⟩
  | dropped hfull =>
    refine ⟨h.ready, ?_, fun waker hcontrol => ?_, fun waker after hsince => ?_⟩
    · rw [yieldedItems_snoc, acceptedItems_snoc, ← h.fifo]
      simp [Label.yielded?, Label.accepted?]
    · obtain ⟨since, hregistered, harmed⟩ := h.armed waker hcontrol
      exact ⟨_, hregistered.snoc hpolls, harmed.imp_right fun hwoken => hwoken.snoc _⟩
    · obtain ⟨_, hbefore⟩ := hpending waker after hsince
      obtain ⟨since, hlast, hwoken | ⟨next, since', hcontrol, hregistered, hnext⟩ | hparked⟩ :=
        h.pending _ _ hbefore
      · exact ⟨_, hlast.snoc hcompletes, Or.inl (hwoken.snoc _)⟩
      · exact ⟨_, hlast.snoc hcompletes, Or.inr (Or.inl ⟨next, _, hcontrol, hregistered.snoc hpolls,
          hnext.imp_right fun hwoken => hwoken.snoc _⟩)⟩
      · exact ⟨_, hlast.snoc hcompletes, Or.inr (Or.inr hparked)⟩

/-- A `pop` that yields an item completes the poll. -/
theorem Consistent.yield {trace : List (Label α Waker)} {s : Session α Waker} (h : Consistent trace s)
    {label : Label α Waker} {item : α} {channel : Channel α Waker} (htakes : s.channel.Takes (some item) channel)
    (hcompletes : label.Completes) (hyielded : label.yielded? = some item) (haccepted : label.accepted? = none)
    (hlabel : ∀ waker, label ≠ .pended waker) : Consistent (trace ++ [label]) ⟨channel, .idle⟩ where
  ready := htakes.1
  fifo := by
    rw [yieldedItems_snoc, acceptedItems_snoc, ← h.fifo, htakes.2.1, hyielded, haccepted]
    simp
  armed := by simp
  pending := fun waker _ hsince => absurd hsince (not_pending_snoc hcompletes (hlabel waker))

theorem Consistent.miss {trace : List (Label α Waker)} {s : Session α Waker} (h : Consistent trace s)
    (hcontrol : s.control = .idle) {channel : Channel α Waker} (htakes : s.channel.Takes none channel)
    (hwaker : channel.waker = s.channel.waker) (waker : Waker) :
    Consistent (trace ++ [.missed waker]) ⟨channel, .missed waker⟩ := by
  have hitems : channel.items = s.channel.items := htakes.2.1.symm
  refine ⟨htakes.1, ?_, by simp, fun last after hsince => ?_⟩
  · rw [yieldedItems_snoc, acceptedItems_snoc, ← h.fifo]
    simp [Label.yielded?, Label.accepted?, hitems]
  · rcases hsince.snoc_cases with ⟨hlast, _⟩ | ⟨before, hnot, _, hbefore⟩
    · cases hlast
    · obtain ⟨since, hlast, hwoken | ⟨next, _, hnext, _⟩ | ⟨_, hslot, hempty⟩⟩ := h.pending _ _ hbefore
      · exact ⟨_, hlast.snoc hnot, Or.inl (hwoken.snoc _)⟩
      · cases hcontrol.symm.trans hnext
      · exact ⟨_, hlast.snoc hnot, Or.inr (Or.inr ⟨by simp, hwaker.trans hslot, hitems.trans hempty⟩)⟩

theorem Consistent.register {trace : List (Label α Waker)} {s : Session α Waker} (h : Consistent trace s)
    {waker : Waker} (hcontrol : s.control = .missed waker) :
    Consistent (trace ++ [.registered waker]) ⟨s.channel.register waker, .registered waker⟩ := by
  have hregistered : Registered (trace ++ [.registered waker]) waker [] := .start trace trivial
  refine ⟨h.ready, ?_, fun other hother => ?_, fun last after hsince => ?_⟩
  · rw [yieldedItems_snoc, acceptedItems_snoc, ← h.fifo]
    simp [Label.yielded?, Label.accepted?, Channel.register, Channel.items]
  · obtain rfl := Control.registered.inj hother
    exact ⟨[], hregistered, Or.inl rfl⟩
  · rcases hsince.snoc_cases with ⟨hlast, _⟩ | ⟨before, hnot, _, hbefore⟩
    · cases hlast
    · obtain ⟨since, hlast, hwoken | ⟨next, _, hnext, _⟩ | ⟨_, _, hempty⟩⟩ := h.pending _ _ hbefore
      · exact ⟨_, hlast.snoc hnot, Or.inl (hwoken.snoc _)⟩
      · cases hcontrol.symm.trans hnext
      · -- the waker of the last poll is replaced while nothing is queued
        exact ⟨_, hlast.snoc hnot, Or.inr (Or.inl ⟨waker, [], rfl, hregistered, Or.inl hempty⟩)⟩

theorem Consistent.pend {trace : List (Label α Waker)} {s : Session α Waker} (h : Consistent trace s)
    {waker : Waker} (hcontrol : s.control = .registered waker) {channel : Channel α Waker}
    (htakes : s.channel.Takes none channel) (hwaker : channel.waker = s.channel.waker) :
    Consistent (trace ++ [.pended waker]) ⟨channel, .idle⟩ := by
  have hitems : channel.items = s.channel.items := htakes.2.1.symm
  refine ⟨htakes.1, ?_, by simp, fun last after hsince => ?_⟩
  · rw [yieldedItems_snoc, acceptedItems_snoc, ← h.fifo]
    simp [Label.yielded?, Label.accepted?, hitems]
  · rcases hsince.snoc_cases with ⟨_, heq, _⟩ | ⟨_, hnot, _⟩
    · obtain rfl := Label.pended.inj heq
      obtain ⟨since, hregistered, hslot | hwoken⟩ := h.armed last hcontrol
      · exact ⟨_, hregistered.pend, Or.inr (Or.inr ⟨by simp, hwaker.trans hslot, hitems.trans (htakes.2.2 rfl)⟩)⟩
      · exact ⟨_, hregistered.pend, Or.inl (hwoken.snoc _)⟩
    · exact absurd trivial hnot

theorem Consistent.step {trace : List (Label α Waker)} {s s' : Session α Waker} {label : Label α Waker}
    (h : Consistent trace s) (hstep : Step s label s') : Consistent (trace ++ [label]) s' := by
  cases hstep with
  | add hcall => exact h.add hcall
  | hit waker hcontrol hcall =>
    obtain ⟨item, channel, hpop, htakes, _⟩ := Channel.pop_spec h.ready
    obtain ⟨rfl, rfl⟩ := Prod.mk.inj (ok.inj (hpop.symm.trans hcall))
    exact h.yield htakes trivial rfl rfl (by simp)
  | miss waker hcontrol hcall =>
    obtain ⟨item, channel, hpop, htakes, hwaker⟩ := Channel.pop_spec h.ready
    obtain ⟨rfl, rfl⟩ := Prod.mk.inj (ok.inj (hpop.symm.trans hcall))
    exact h.miss hcontrol htakes hwaker waker
  | register hcontrol => exact h.register hcontrol
  | late hcontrol hcall =>
    obtain ⟨item, channel, hpop, htakes, _⟩ := Channel.second_pop_spec h.ready
    obtain ⟨rfl, rfl⟩ := Prod.mk.inj (ok.inj (hpop.symm.trans hcall))
    exact h.yield htakes trivial rfl rfl (by simp)
  | pend hcontrol hcall =>
    obtain ⟨item, channel, hpop, htakes, hwaker⟩ := Channel.second_pop_spec h.ready
    obtain ⟨rfl, rfl⟩ := Prod.mk.inj (ok.inj (hpop.symm.trans hcall))
    exact h.pend hcontrol htakes hwaker

theorem run_consistent {trace : List (Label α Waker)} {s : Session α Waker}
    (hrun : Run Step Session.new trace s) : Consistent trace s :=
  hrun.invariant Consistent .new fun _ _ _ _ => Consistent.step

/-- While an item is queued after a poll that returned `Pending`, the task has
been woken. -/
theorem Consistent.woken {trace after : List (Label α Waker)} {s : Session α Waker} (h : Consistent trace s)
    {waker : Waker} (hsince : Since Label.Completes trace (.pended waker) after)
    (hitems : s.channel.items ≠ []) :
    ∃ since, LastPending trace waker since ∧
      (WokenIn since waker ∨
        ∃ next since', s.control = .registered next ∧ Registered trace next since' ∧ WokenIn since' next) := by
  obtain ⟨since, hlast, hwoken | ⟨next, since', hcontrol, hregistered, hnext⟩ | ⟨_, _, hempty⟩⟩ :=
    h.pending waker after hsince
  · exact ⟨since, hlast, Or.inl hwoken⟩
  · exact ⟨since, hlast, Or.inr ⟨next, since', hcontrol, hregistered, hnext.resolve_left hitems⟩⟩
  · exact absurd hempty hitems

theorem Label.Polls.accepted? {label : Label α Waker} (h : label.Polls) : label.accepted? = none := by
  cases label with
  | produced => exact h.elim
  | _ => rfl

/-- A step of `poll_next` takes what it yields from the front of the queue. -/
theorem Consistent.items_poll {trace : List (Label α Waker)} {s s' : Session α Waker} {label : Label α Waker}
    (h : Consistent trace s) (hpolls : label.Polls) (hstep : Step s label s') :
    s.channel.items = label.yielded?.toList ++ s'.channel.items := by
  have hafter := (h.step hstep).fifo
  rw [yieldedItems_snoc, acceptedItems_snoc, hpolls.accepted?, Option.toList_none, List.append_nil, ← h.fifo,
    List.append_assoc] at hafter
  exact (List.append_cancel_left hafter).symm

/-- In every interleaving of producers with the steps of `poll_next`: what is
accepted is delivered in order and once, and only a full queue drops an item.
While an item is queued after a poll that returned `Pending`, the waker of that
poll has been woken; or a later call has put another waker in its place, and
that one has been woken. -/
theorem stream_delivery {trace : List (Label α Waker)} {s : Session α Waker}
    (hrun : Run Step Session.new trace s) : yieldedItems trace ++ s.channel.items = acceptedItems trace ∧
    (∀ item result woken s', Step s (.produced item result woken) s' → result ≠ .accepted →
      s.channel.items.length = 100) ∧
    ∀ waker after, Since Label.Completes trace (.pended waker) after → s.channel.items ≠ [] →
      ∃ since, LastPending trace waker since ∧
        (WokenIn since waker ∨
          ∃ next since', s.control = .registered next ∧ Registered trace next since' ∧ WokenIn since' next) := by
  have h := run_consistent hrun
  refine ⟨h.fifo, fun item result woken s' hstep hresult => ?_, fun waker after hsince hitems => ?_⟩
  · cases hstep with
    | add hcall =>
      have hspec := Channel.add_spec h.ready item
      rw [hcall] at hspec
      cases hspec with
      | accepted => exact absurd rfl hresult
      | dropped hfull => exact hfull
  · obtain ⟨since, hlast, hcases⟩ := h.pending waker after hsince
    refine ⟨since, hlast, ?_⟩
    rcases hcases with hwoken | ⟨next, since', hcontrol, hregistered, hnext⟩ | ⟨_, _, hempty⟩
    · exact Or.inl hwoken
    · exact Or.inr ⟨next, since', hcontrol, hregistered, hnext.resolve_left hitems⟩
    · exact absurd hempty hitems

/-- A stream in which one event is queued. -/
def oneEvent (waker : Option Nat) : NetworkStream Nat := ⟨some ⟨[.Queue], by decide⟩, waker⟩

def noEvent (waker : Option Nat) : NetworkStream Nat := ⟨some (ArrayQueue.new NetworkEvent 100), waker⟩

/-- A call of `poll_next` that returns `Pending`. -/
theorem run_pended : Run Step (Session.new : Session NetworkEvent Nat)
    [.missed 1, .registered 1, .pended 1] ⟨noEvent (some 1), .idle⟩ := by
  have hmissed : Step Session.new (.missed 1) ⟨noEvent none, .missed 1⟩ := .miss 1 rfl rfl
  have hregistered : Step ⟨noEvent none, .missed 1⟩ (.registered 1) ⟨noEvent (some 1), .registered 1⟩ :=
    .register rfl
  have hpended : Step ⟨noEvent (some 1), .registered 1⟩ (.pended 1) ⟨noEvent (some 1), .idle⟩ := .pend rfl rfl
  exact ((Run.nil.snoc hmissed).snoc hregistered).snoc hpended

/-- An event after a poll that returned `Pending`. -/
theorem stream_delivery_pended :
    ∃ (trace since : List (Label NetworkEvent Nat)) (s : Session NetworkEvent Nat),
      Run Step Session.new trace s ∧ s.channel.items = [.Queue] ∧ LastPending trace 1 since ∧ WokenIn since 1 := by
  have hadded : Step ⟨noEvent (some 1), .idle⟩ (.produced NetworkEvent.Queue .accepted (some 1))
      ⟨oneEvent none, .idle⟩ := .add rfl
  have hsince : Since Label.Completes
      ([.missed 1, .registered 1, .pended 1] ++ [.produced NetworkEvent.Queue .accepted (some 1)]) (.pended 1)
      [.produced NetworkEvent.Queue .accepted (some 1)] :=
    ⟨⟨[.missed 1, .registered 1], rfl⟩, trivial, by simp [Label.Completes]⟩
  have hqueued : (oneEvent none).items ≠ [] := by simp [oneEvent, Channel.items]
  obtain ⟨since, hlast, hwoken | ⟨_, _, hcontrol, _⟩⟩ :=
    (stream_delivery (run_pended.snoc hadded)).2.2 1 _ hsince hqueued
  · exact ⟨_, since, _, run_pended.snoc hadded, rfl, hlast, hwoken⟩
  · cases hcontrol

/-- A second call with another waker replaces the first one, which is then not
woken by the event that follows. -/
theorem pending_waker_replaced :
    ∃ (trace after : List (Label NetworkEvent Nat)) (s : Session NetworkEvent Nat),
      Run Step Session.new trace s ∧ Since Label.Completes trace (.pended 1) after ∧ s.channel.items ≠ [] ∧
      ∀ label ∈ trace, label.woken ≠ some 1 := by
  have hmissed : Step ⟨noEvent (some 1), .idle⟩ (.missed 2) ⟨noEvent (some 1), .missed 2⟩ := .miss 2 rfl rfl
  have hregistered : Step ⟨noEvent (some 1), .missed 2⟩ (.registered 2) ⟨noEvent (some 2), .registered 2⟩ :=
    .register rfl
  have hadded : Step ⟨noEvent (some 2), .registered 2⟩ (.produced NetworkEvent.Queue .accepted (some 2))
      ⟨oneEvent none, .registered 2⟩ := .add rfl
  refine ⟨_, [.missed 2, .registered 2, .produced .Queue .accepted (some 2)], _,
    ((run_pended.snoc hmissed).snoc hregistered).snoc hadded, ?_, by simp [oneEvent, Channel.items], ?_⟩
  · exact ⟨⟨[.missed 1, .registered 1], rfl⟩, trivial, by simp [Label.Completes]⟩
  · simp [Label.woken]

end conc_os.task.stream
