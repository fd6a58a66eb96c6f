import ConcOs.Kernel.Handler.Receive
import ConcOs.Kernel.Network
import ConcOs.Kernel.Stream.Feed

open rust Result
open conc_os_net conc_os_net.ethernet
open conc_os.network.handler conc_os.network.device conc_os.interrupts conc_os.task.stream

namespace conc_os.network.device

/-- What the network task relies on: `waiting` are the packets in buffers that the
device has filled and the driver has not handed out, `posted` counts the empty buffers
that the device has, and a buffer is `Lent` from when it is handed out until it is
recycled. -/
structure Contract (Driver RxBuffer : Type) [VirtioNetDriver Driver RxBuffer] where
  waiting : Driver → List (Slice UInt8)
  posted : Driver → Nat
  Lent : Driver → RxBuffer → Prop
  /-- the packets are handed out in the order in which they have come -/
  receive_some : ∀ {driver after : Driver} {buffer : RxBuffer},
    VirtioNetDriver.receive driver = (some buffer, after) →
      waiting driver = VirtioNetDriver.packet Driver buffer :: waiting after ∧ posted after = posted driver ∧
        Lent after buffer
  /-- it is an error only when there is none -/
  receive_none : ∀ {driver after : Driver}, VirtioNetDriver.receive driver = (none, after) →
    waiting driver = [] ∧ waiting after = [] ∧ posted after = posted driver
  /-- a buffer that is out can be given back -/
  recycle : ∀ {driver : Driver} {buffer : RxBuffer}, Lent driver buffer →
    ∃ after, VirtioNetDriver.recycle_rx_buffer driver buffer = some after ∧ waiting after = waiting driver ∧
      posted after = posted driver + 1
  /-- it does nothing to the buffers -/
  ack_interrupt : ∀ driver : Driver, waiting (VirtioNetDriver.ack_interrupt driver).2 = waiting driver ∧
    posted (VirtioNetDriver.ack_interrupt driver).2 = posted driver ∧
    ∀ buffer, Lent driver buffer → Lent (VirtioNetDriver.ack_interrupt driver).2 buffer
  /-- the device fills a buffer that it has, or leaves all of them alone -/
  device_step : ∀ {driver after : Driver} {packet : Option (Slice UInt8)},
    VirtioNetDriver.Device driver packet after → waiting after = waiting driver ++ packet.toList ∧
      posted driver = posted after + packet.toList.length ∧ ∀ buffer, Lent driver buffer → Lent after buffer

/-- A driver that has just been made, with its eight buffers at the device. -/
structure Contract.Fresh {Driver RxBuffer : Type} [VirtioNetDriver Driver RxBuffer]
    (contract : Contract Driver RxBuffer) (driver : Driver) : Prop where
  waiting : contract.waiting driver = []
  posted : contract.posted driver = 8

/-- The device interrupts at least for a packet that comes when no other waits, and
the interrupt is then pending until it is acknowledged. -/
structure Contract.Interrupts {Driver RxBuffer : Type} [VirtioNetDriver Driver RxBuffer]
    (contract : Contract Driver RxBuffer) where
  Raised : Driver → Prop
  fill : ∀ {driver after : Driver} {packet : Slice UInt8}, VirtioNetDriver.Device driver (some packet) after →
    contract.waiting driver = [] → Raised after
  device_step : ∀ {driver after : Driver} {packet : Option (Slice UInt8)},
    VirtioNetDriver.Device driver packet after → Raised driver → Raised after
  ack_interrupt : ∀ {driver : Driver}, Raised driver →
    (VirtioNetDriver.ack_interrupt driver).1.QUEUE_INTERRUPT = true

end conc_os.network.device

namespace conc_os.task.network

section events

variable {Waker : Type}

/-- The events that an interrupt with this status adds. -/
def statusEvents (status : InterruptStatus) : List NetworkEvent :=
  (if status.QUEUE_INTERRUPT then [.Queue] else []) ++
    if status.DEVICE_CONFIGURATION_INTERRUPT then [.ConfigChange] else []

theorem virtio_irq_eq {Driver RxBuffer : Type} [VirtioNetDriver Driver RxBuffer] (driver : Driver)
    (channel : NetworkStream Waker) :
    virtio_irq driver channel =
      ((channel.addAll (statusEvents (VirtioNetDriver.ack_interrupt driver).1)).1,
        (VirtioNetDriver.ack_interrupt driver).2,
        (channel.addAll (statusEvents (VirtioNetDriver.ack_interrupt driver).1)).2) := by
  unfold virtio_irq
  obtain ⟨⟨queue, config⟩, driver⟩ := VirtioNetDriver.ack_interrupt driver
  cases queue <;> cases config <;> rfl

end events

section runs

variable {Error Waker : Type}

namespace NetworkLabel

def delivered? : NetworkLabel Error Waker → Option (Slice UInt8)
  | device packet => packet
  | _ => none

def processed? : NetworkLabel Error Waker → Option (Except Error UInt16 × Slice UInt8)
  | process id packet _ => some (id, packet)
  | _ => none

/-- The steps of the stream that a step makes. -/
def stream : NetworkLabel Error Waker → List (Label NetworkEvent Waker)
  | irq _ events => streamLabels events
  | poll label => [label]
  | _ => []

/-- An interrupt that tells of packets. -/
def Reports : NetworkLabel Error Waker → Prop
  | irq _ events => ∃ event ∈ events, event.1 = .Queue
  | _ => False

/-- An interrupt whose `Queue` event is refused: there is no stream yet, or it is
full of other events. -/
def Refused : NetworkLabel Error Waker → Prop
  | irq queued events => ∃ event ∈ events, event.1 = .Queue ∧
      (event.2.1 = .uninitialized ∨ event.2.1 = .dropped ∧ queued = List.replicate 100 .ConfigChange)
  | _ => False

end NetworkLabel

/-- The packets that the device has put into buffers, in order. -/
def delivered (trace : List (NetworkLabel Error Waker)) : List (Slice UInt8) :=
  trace.filterMap NetworkLabel.delivered?

/-- The calls of `process_rx`, in order. -/
def processed (trace : List (NetworkLabel Error Waker)) : List (Except Error UInt16 × Slice UInt8) :=
  trace.filterMap NetworkLabel.processed?

/-- The part of a run that is the stream's. -/
def streamTrace (trace : List (NetworkLabel Error Waker)) : List (Label NetworkEvent Waker) :=
  trace.flatMap NetworkLabel.stream

theorem delivered_snoc (trace : List (NetworkLabel Error Waker)) (label : NetworkLabel Error Waker) :
    delivered (trace ++ [label]) = delivered trace ++ label.delivered?.toList := filterMap_snoc _ _ _

theorem processed_snoc (trace : List (NetworkLabel Error Waker)) (label : NetworkLabel Error Waker) :
    processed (trace ++ [label]) = processed trace ++ label.processed?.toList := filterMap_snoc _ _ _

theorem streamTrace_snoc (trace : List (NetworkLabel Error Waker)) (label : NetworkLabel Error Waker) :
    streamTrace (trace ++ [label]) = streamTrace trace ++ label.stream := by
  simp [streamTrace]

end runs

section stages

variable {RxBuffer : Type}

/-- The buffer that the task has taken from the driver. -/
def Stage.buffer? : Stage RxBuffer → Option RxBuffer
  | holding packet | recycling packet => some packet
  | _ => none

/-- The packet that the task has still to process. -/
def Stage.held (Driver : Type) [VirtioNetDriver Driver RxBuffer] : Stage RxBuffer → List (Slice UInt8)
  | holding packet => [VirtioNetDriver.packet Driver packet]
  | _ => []

/-- The task is in `handle_queue_interrupt`. -/
def Stage.Draining : Stage RxBuffer → Prop
  | receiving | holding _ | recycling _ => True
  | _ => False

end stages

section runs

variable {Error Waker Driver RxBuffer : Type} [VirtioNetDriver Driver RxBuffer]

/-- The interface after `process_rx` has been called for each of these packets. -/
def process_all (interface : NetworkInterface) (calls : List (Except Error UInt16 × Slice UInt8)) :
    Result NetworkInterface :=
  calls.foldlM (fun interface call => do
    let (interface, _) ← interface.process_rx call.1 call.2
    return interface) interface

/-- Every packet is processed once and in order, and every buffer is accounted for. -/
structure Conserved (contract : Contract Driver RxBuffer) (mac : MacAddress)
    (trace : List (NetworkLabel Error Waker)) (n : Network Driver RxBuffer Waker) : Prop where
  order : delivered trace =
    (processed trace).map Prod.snd ++ n.stage.held Driver ++ contract.waiting n.driver
  buffers : contract.posted n.driver + (contract.waiting n.driver).length + n.stage.buffer?.toList.length = 8
  lent : ∀ packet, n.stage.buffer? = some packet → contract.Lent n.driver packet
  starting : n.stage = .starting → n.interface.mac = mac ∧ processed trace = []
  started : n.stage ≠ .starting → ∃ (xid : Except Error UInt32) (id : Except Error UInt16)
    (start : NetworkInterface) (sent : List Frame), init_network_interface mac xid id = ok (start, sent) ∧
      process_all start (processed trace) = ok n.interface

theorem process_all_snoc {interface after next : NetworkInterface}
    {calls : List (Except Error UInt16 × Slice UInt8)} {id : Except Error UInt16} {packet : Slice UInt8}
    {sent : List Frame} (hcalls : process_all interface calls = ok after)
    (hcall : after.process_rx id packet = ok (next, sent)) :
    process_all interface (calls ++ [(id, packet)]) = ok next := by
  rw [process_all] at hcalls ⊢
  rw [List.foldlM_append, hcalls, bind_tc_ok, List.foldlM_cons, hcall]
  rfl

section conserved

variable {contract : Contract Driver RxBuffer} {mac : MacAddress} {trace : List (NetworkLabel Error Waker)}
  {n next : Network Driver RxBuffer Waker} {label : NetworkLabel Error Waker}

theorem Conserved.boot {driver : Driver} (h : contract.Fresh driver) (mac : MacAddress) :
    Conserved contract mac ([] : List (NetworkLabel Error Waker))
      (.boot driver mac : Network Driver RxBuffer Waker) where
  order := h.waiting.symm
  buffers := by
    change contract.posted driver + (contract.waiting driver).length + 0 = 8
    rw [h.waiting, h.posted]
    rfl
  lent := nofun
  starting := fun _ => ⟨rfl, rfl⟩
  started := fun h => absurd rfl h

/-- A step that does not call `process_rx`. -/
theorem Conserved.other (h : Conserved contract mac trace n) (hprocessed : label.processed? = none)
    (hinterface : next.interface = n.interface) (hstage : next.stage = .starting ↔ n.stage = .starting)
    (horder : n.stage.held Driver ++ contract.waiting n.driver ++ label.delivered?.toList =
      next.stage.held Driver ++ contract.waiting next.driver)
    (hbuffers : contract.posted next.driver + (contract.waiting next.driver).length +
        next.stage.buffer?.toList.length =
      contract.posted n.driver + (contract.waiting n.driver).length + n.stage.buffer?.toList.length)
    (hlent : ∀ packet, next.stage.buffer? = some packet → contract.Lent next.driver packet) :
    Conserved contract mac (trace ++ [label]) next where
  order := by
    rw [delivered_snoc, processed_snoc, hprocessed, h.order, Option.toList_none, List.append_nil,
      List.append_assoc, List.append_assoc, ← List.append_assoc (n.stage.held Driver), horder, List.append_assoc]
  buffers := hbuffers.trans h.buffers
  lent := hlent
  starting := by
    rw [processed_snoc, hprocessed, hinterface, hstage, Option.toList_none, List.append_nil]
    exact h.starting
  started := by
    rw [processed_snoc, hprocessed, hinterface, ne_eq, hstage, Option.toList_none, List.append_nil]
    exact h.started

theorem Conserved.start (h : Conserved contract mac trace n) (hstage : n.stage = .starting)
    {xid : Except Error UInt32} {id : Except Error UInt16} {interface : NetworkInterface} {sent : List Frame}
    (hcall : init_network_interface n.interface.mac xid id = ok (interface, sent))
    {stream : Session NetworkEvent Waker} :
    Conserved contract mac (trace ++ [.start sent]) ⟨n.driver, stream, interface, .waiting⟩ := by
  obtain ⟨hmac, hnone⟩ := h.starting hstage
  rw [hmac] at hcall
  have hsame : processed (trace ++ [NetworkLabel.start sent]) = [] := by
    rw [processed_snoc, hnone]
    rfl
  have horder := h.order
  have hbuffers := h.buffers
  rw [hstage] at horder hbuffers
  refine ⟨?_, hbuffers, nofun, nofun, fun _ => ⟨xid, id, interface, sent, hcall, ?_⟩⟩
  · rw [delivered_snoc, hsame, horder, hnone]
    exact List.append_nil _
  · rw [hsame]
    rfl

theorem Conserved.process (h : Conserved contract mac trace n) {packet : RxBuffer}
    (hstage : n.stage = .holding packet) {id : Except Error UInt16} {interface : NetworkInterface}
    {sent : List Frame}
    (hcall : n.interface.process_rx id (VirtioNetDriver.packet Driver packet) = ok (interface, sent)) :
    Conserved contract mac (trace ++ [.process id (VirtioNetDriver.packet Driver packet) sent])
      { n with interface := interface, stage := .recycling packet } := by
  have horder := h.order
  have hbuffers := h.buffers
  rw [hstage] at horder hbuffers
  refine ⟨?_, hbuffers, ?_, nofun, fun _ => ?_⟩
  · rw [delivered_snoc, processed_snoc, horder]
    simp [NetworkLabel.delivered?, NetworkLabel.processed?, Stage.held]
  · rintro _ ⟨⟩
    exact h.lent packet (by rw [hstage]; rfl)
  · obtain ⟨xid, first, start, sent', hinit, hcalls⟩ := h.started (by simp [hstage])
    refine ⟨xid, first, start, sent', hinit, ?_⟩
    rw [processed_snoc]
    exact process_all_snoc hcalls hcall

theorem Conserved.step (h : Conserved contract mac trace n) (hstep : NetworkStep n label next) :
    Conserved contract mac (trace ++ [label]) next := by
  cases hstep with
  | @device packet driver hdevice =>
    obtain ⟨hwaiting, hposted, hlent⟩ := contract.device_step hdevice
    refine h.other rfl rfl Iff.rfl ?_ ?_ fun buffer hbuffer => hlent buffer (h.lent buffer hbuffer)
    · simp only [NetworkLabel.delivered?, hwaiting, List.append_assoc]
    · simp only [hwaiting, hposted, List.length_append]
      omega
  | @irq events driver channel hcall =>
    rw [virtio_irq_eq] at hcall
    obtain ⟨_, hrest⟩ := Prod.mk.inj hcall
    obtain ⟨rfl, _⟩ := Prod.mk.inj hrest
    obtain ⟨hwaiting, hposted, hlent⟩ := contract.ack_interrupt n.driver
    refine h.other rfl rfl Iff.rfl ?_ ?_ fun buffer hbuffer => hlent buffer (h.lent buffer hbuffer)
    · simp only [NetworkLabel.delivered?, hwaiting, Option.toList_none, List.append_nil]
    · simp only [hwaiting, hposted]
  | start hstage hinit hcall => exact h.start hstage hcall
  | @poll label stream hstage hpolls hstep =>
    have hafter : (Stage.after label : Stage RxBuffer).held Driver = [] ∧
        (Stage.after label : Stage RxBuffer).buffer? = none ∧
        (Stage.after label : Stage RxBuffer) ≠ .starting := by
      unfold Stage.after
      split <;> exact ⟨rfl, rfl, by simp⟩
    refine h.other rfl rfl ?_ ?_ ?_ ?_
    · exact iff_of_false hafter.2.2 (by simp [hstage])
    · rw [hafter.1, hstage]
      exact List.append_nil _
    · rw [hafter.2.1, hstage]
      rfl
    · rw [hafter.2.1]
      nofun
  | @receive packet driver hstage hcall =>
    obtain ⟨hwaiting, hposted, hlent⟩ := contract.receive_some hcall
    refine h.other rfl rfl (by simp [hstage]) ?_ ?_ ?_
    · simp [NetworkLabel.delivered?, hstage, hwaiting, Stage.held]
    · simp only [hstage, hwaiting, hposted, Stage.buffer?, Option.toList_some, Option.toList_none,
        List.length_cons, List.length_nil]
      omega
    · rintro _ ⟨⟩
      exact hlent
  | @drained driver hstage hcall =>
    obtain ⟨hempty, hwaiting, hposted⟩ := contract.receive_none hcall
    refine h.other rfl rfl (by simp [hstage]) ?_ ?_ nofun
    · simp [NetworkLabel.delivered?, hstage, hempty, hwaiting, Stage.held]
    · simp [hstage, hempty, hwaiting, hposted, Stage.buffer?]
  | process hstage hcall => exact h.process hstage hcall
  | @recycle packet driver hstage hcall =>
    obtain ⟨after, hafter, hwaiting, hposted⟩ := contract.recycle (h.lent packet (by rw [hstage]; rfl))
    obtain rfl := Option.some.inj (hafter.symm.trans hcall)
    refine h.other rfl rfl (by simp [hstage]) ?_ ?_ nofun
    · simp [NetworkLabel.delivered?, hstage, hwaiting, Stage.held]
    · simp only [hstage, hwaiting, hposted, Stage.buffer?, Option.toList_some, Option.toList_none,
        List.length_cons, List.length_nil]
      omega

theorem run_conserved {driver : Driver} (hfresh : contract.Fresh driver)
    (hrun : Run NetworkStep (.boot driver mac) trace n) : Conserved contract mac trace n :=
  hrun.invariant (Conserved contract mac) (.boot hfresh mac) fun _ _ _ _ => Conserved.step

end conserved

theorem Stage.after_ne_starting (label : Label NetworkEvent Waker) :
    (Stage.after label : Stage RxBuffer) ≠ .starting := by
  unfold Stage.after
  split <;> simp

theorem streamed_step {trace : List (NetworkLabel Error Waker)} {n next : Network Driver RxBuffer Waker}
    {label : NetworkLabel Error Waker} (h : Streamed (n.stage ≠ .starting) (streamTrace trace) n.stream)
    (hstep : NetworkStep n label next) :
    Streamed (next.stage ≠ .starting) (streamTrace (trace ++ [label])) next.stream := by
  rw [streamTrace_snoc]
  -- a step that leaves the stream alone
  have hother : label.stream = [] → next.stream = n.stream → (next.stage = .starting ↔ n.stage = .starting) →
      Streamed (next.stage ≠ .starting) (streamTrace trace ++ label.stream) next.stream := by
    intro hlabel hstream hstage
    rw [hlabel, hstream, List.append_nil]
    exact h.congr (not_congr hstage.symm)
  cases hstep with
  | device => exact hother rfl rfl Iff.rfl
  | irq hcall =>
    rw [virtio_irq_eq] at hcall
    obtain ⟨rfl, hrest⟩ := Prod.mk.inj hcall
    obtain ⟨_, rfl⟩ := Prod.mk.inj hrest
    exact h.interrupt _
  | @start _ _ sent _ _ hstage hinit hcall =>
    rw [show (NetworkLabel.start sent : NetworkLabel Error Waker).stream = [] from rfl, List.append_nil]
    exact (h.construct (not_not.mpr hstage) hinit).congr (by simp)
  | @poll label stream hstage hpolls hpoll =>
    have hwaiting : n.stage ≠ .starting := by simp [hstage]
    exact (h.poll hwaiting hpoll).congr (iff_of_true hwaiting (Stage.after_ne_starting label))
  | receive hstage | drained hstage | process hstage | recycle hstage => exact hother rfl rfl (by simp [hstage])

/-- If there are packets, something is to be done about them, unless the event that
told of them was refused. -/
def Attended {contract : Contract Driver RxBuffer} (interrupts : contract.Interrupts)
    (trace : List (NetworkLabel Error Waker)) (n : Network Driver RxBuffer Waker) : Prop :=
  contract.waiting n.driver ≠ [] → interrupts.Raised n.driver ∨ n.stage.Draining ∨
    .Queue ∈ n.stream.channel.items ∨
    ∃ label after, Since NetworkLabel.Reports trace label after ∧ label.Refused

/-- A `Queue` event is in the queue after it is added, unless it is refused. -/
theorem add_queue (channel : NetworkStream Waker) :
    .Queue ∈ (add_event channel .Queue).2.2.items ∨ (add_event channel .Queue).1 = .uninitialized ∨
      (add_event channel .Queue).1 = .dropped ∧ channel.items = List.replicate 100 .ConfigChange := by
  cases hqueue : channel.queue with
  | none =>
    right; left
    simp [add_event, Channel.add, hqueue]
  | some queue =>
    have hspec := Channel.add_spec (show channel.Ready by rw [Channel.Ready, hqueue]; rfl) .Queue
    unfold add_event
    generalize channel.add .Queue = result at hspec ⊢
    cases hspec with
    | accepted hroom hready hitems hwaker =>
      left
      rw [hitems]
      exact List.mem_append_right _ (List.mem_singleton_self _)
    | dropped hfull =>
      -- a full queue that holds no `Queue` event holds nothing but configuration changes
      by_cases hmem : .Queue ∈ channel.items
      · exact Or.inl hmem
      · refine Or.inr (Or.inr ⟨rfl, List.eq_replicate_iff.mpr ⟨hfull, fun evt hevt => ?_⟩⟩)
        cases evt with
        | Queue => exact absurd hevt hmem
        | ConfigChange => rfl

theorem statusEvents_queue {status : InterruptStatus} (h : status.QUEUE_INTERRUPT = true) :
    ∃ rest, statusEvents status = .Queue :: rest :=
  ⟨_, by rw [statusEvents, if_pos h]; rfl⟩

/-- An interrupt that tells of packets leaves an event, or the event is refused. -/
theorem queue_or_refused {status : InterruptStatus} (h : status.QUEUE_INTERRUPT = true)
    (channel : NetworkStream Waker) : .Queue ∈ (channel.addAll (statusEvents status)).2.items ∨
      (NetworkLabel.irq channel.items (channel.addAll (statusEvents status)).1 :
        NetworkLabel Error Waker).Refused := by
  obtain ⟨rest, hevents⟩ := statusEvents_queue h
  rw [hevents]
  rcases add_queue channel with hqueued | hrefused
  · exact Or.inl (Channel.mem_items_addAll hqueued rest)
  · exact Or.inr ⟨_, List.mem_cons_self, rfl, hrefused⟩

theorem NetworkLabel.Refused.reports {label : NetworkLabel Error Waker} (h : label.Refused) : label.Reports := by
  cases label with
  | irq queued events =>
    obtain ⟨event, hmem, hevent, _⟩ := h
    exact ⟨event, hmem, hevent⟩
  | _ => exact h

/-- An interrupt with another reason tells of no packets. -/
theorem not_reports_irq {status : InterruptStatus} (h : status.QUEUE_INTERRUPT = false)
    (channel : NetworkStream Waker) (queued : List NetworkEvent) :
    ¬ (NetworkLabel.irq queued (channel.addAll (statusEvents status)).1 : NetworkLabel Error Waker).Reports := by
  rintro ⟨event, hmem, hevent⟩
  have hstatus : NetworkEvent.Queue ∈ statusEvents status := by
    rw [← channel.addAll_items (statusEvents status), ← hevent]
    exact List.mem_map_of_mem hmem
  simp [statusEvents, h] at hstatus

theorem Stage.draining_after {label : Label NetworkEvent Waker} (h : label.yielded? = some .Queue) :
    (Stage.after label : Stage RxBuffer).Draining := by
  rw [Stage.after, if_pos h]
  trivial

/-- A step that tells of no packets does not make up for a refused event. -/
theorem refused_snoc {trace : List (NetworkLabel Error Waker)} {label : NetworkLabel Error Waker}
    (hlabel : ¬ label.Reports)
    (h : ∃ last after, Since NetworkLabel.Reports trace last after ∧ last.Refused) :
    ∃ last after, Since NetworkLabel.Reports (trace ++ [label]) last after ∧ last.Refused := by
  obtain ⟨last, after, hsince, hrefused⟩ := h
  exact ⟨last, _, hsince.snoc hlabel, hrefused⟩

section attended

variable {contract : Contract Driver RxBuffer} {interrupts : contract.Interrupts}
  {trace : List (NetworkLabel Error Waker)} {n next : Network Driver RxBuffer Waker}

theorem Attended.device (h : Attended interrupts trace n) {packet : Option (Slice UInt8)} {driver : Driver}
    (hdevice : VirtioNetDriver.Device n.driver packet driver) :
    Attended interrupts (trace ++ [.device packet]) { n with driver := driver } := by
  intro hused
  by_cases hnone : contract.waiting n.driver = []
  · -- it is the first packet to wait, and the device interrupts for it
    cases packet with
    | none =>
      refine absurd ?_ hused
      rw [(contract.device_step hdevice).1, hnone]
      rfl
    | some packet => exact Or.inl (interrupts.fill hdevice hnone)
  · rcases h hnone with hraised | hdraining | hqueued | hrefused
    · exact Or.inl (interrupts.device_step hdevice hraised)
    · exact Or.inr (Or.inl hdraining)
    · exact Or.inr (Or.inr (Or.inl hqueued))
    · exact Or.inr (Or.inr (Or.inr (refused_snoc id hrefused)))

theorem Attended.irq (h : Attended interrupts trace n)
    {events : List (NetworkEvent × Added × Option Waker)} {driver : Driver} {channel : NetworkStream Waker}
    (hcall : virtio_irq n.driver n.stream.channel = (events, driver, channel)) :
    Attended interrupts (trace ++ [.irq n.stream.channel.items events])
      { n with driver := driver, stream.channel := channel } := by
  rw [virtio_irq_eq] at hcall
  obtain ⟨rfl, hrest⟩ := Prod.mk.inj hcall
  obtain ⟨rfl, rfl⟩ := Prod.mk.inj hrest
  intro hused
  cases hstatus : (VirtioNetDriver.ack_interrupt n.driver).1.QUEUE_INTERRUPT with
  | true =>
    rcases @queue_or_refused Error Waker _ hstatus n.stream.channel with hqueued | hrefused
    · exact Or.inr (Or.inr (Or.inl hqueued))
    · exact Or.inr (Or.inr (Or.inr ⟨_, [], .start trace hrefused.reports, hrefused⟩))
  | false =>
    rw [(contract.ack_interrupt n.driver).1] at hused
    rcases h hused with hraised | hdraining | hqueued | hrefused
    · rw [interrupts.ack_interrupt hraised] at hstatus
      cases hstatus
    · exact Or.inr (Or.inl hdraining)
    · exact Or.inr (Or.inr (Or.inl (Channel.mem_items_addAll hqueued _)))
    · exact Or.inr (Or.inr (Or.inr (refused_snoc (not_reports_irq hstatus _ _) hrefused)))

theorem Attended.poll (h : Attended interrupts trace n) (hstage : n.stage = .waiting)
    (hstreamed : Streamed (n.stage ≠ .starting) (streamTrace trace) n.stream)
    {label : Label NetworkEvent Waker} {stream : Session NetworkEvent Waker} (hpolls : label.Polls)
    (hpoll : Step n.stream label stream) :
    Attended interrupts (trace ++ [.poll label]) { n with stream := stream, stage := .after label } := by
  intro hused
  rcases h hused with hraised | hdraining | hqueued | hrefused
  · exact Or.inl hraised
  · rw [hstage] at hdraining
    exact hdraining.elim
  · -- the event stays in the queue, or it is the one that is yielded
    have hconsistent := run_consistent (hstreamed.after (by simp [hstage]))
    rw [hconsistent.items_poll hpolls hpoll, List.mem_append, Option.mem_toList] at hqueued
    rcases hqueued with hyielded | hqueued
    · exact Or.inr (Or.inl (Stage.draining_after hyielded))
    · exact Or.inr (Or.inr (Or.inl hqueued))
  · exact Or.inr (Or.inr (Or.inr (refused_snoc id hrefused)))

theorem Attended.step {label : NetworkLabel Error Waker} (h : Attended interrupts trace n)
    (hstreamed : Streamed (n.stage ≠ .starting) (streamTrace trace) n.stream)
    (hstep : NetworkStep n label next) : Attended interrupts (trace ++ [label]) next := by
  cases hstep with
  | device hdevice => exact h.device hdevice
  | irq hcall => exact h.irq hcall
  | start hstage hinit hcall =>
    obtain ⟨hstream, _⟩ := hstreamed.before (not_not.mpr hstage)
    intro hused
    rcases h hused with hraised | hdraining | hqueued | hrefused
    · exact Or.inl hraised
    · rw [hstage] at hdraining
      exact hdraining.elim
    · rw [hstream] at hqueued
      cases hqueued
    · exact Or.inr (Or.inr (Or.inr (refused_snoc id hrefused)))
  | poll hstage hpolls hpoll => exact h.poll hstage hstreamed hpolls hpoll
  | drained hstage hcall => exact fun hused => absurd (contract.receive_none hcall).2.1 hused
  | receive hstage hcall | process hstage hcall | recycle hstage hcall => exact fun _ => Or.inr (Or.inl trivial)

end attended

/-- A step of `handle_queue_interrupt`. -/
def NetworkLabel.Drains : NetworkLabel Error Waker → Prop
  | receive | drained | process _ _ _ | recycle => True
  | _ => False

/-- How many steps `handle_queue_interrupt` has to take before it finds no packet. -/
def Network.work (contract : Contract Driver RxBuffer) (n : Network Driver RxBuffer Waker) : Nat :=
  3 * (contract.waiting n.driver).length + match n.stage with
    | .holding _ => 2
    | .recycling _ => 1
    | _ => 0

/-- While the task drains packets it can always go on, and it gets closer to the end. -/
theorem Conserved.drain_step {contract : Contract Driver RxBuffer} {mac : MacAddress}
    {trace : List (NetworkLabel Error Waker)} {n : Network Driver RxBuffer Waker}
    (h : Conserved contract mac trace n) (hdraining : n.stage.Draining) (id : Except Error UInt16) :
    ∃ (label : NetworkLabel Error Waker) (next : Network Driver RxBuffer Waker), NetworkStep n label next ∧
      label.Drains ∧ (next.stage = .waiting ∧ contract.waiting next.driver = [] ∨
        next.stage.Draining ∧ next.work contract < n.work contract) := by
  have hlent := h.lent
  obtain ⟨driver, stream, interface, stage⟩ := n
  cases stage with
  | starting => exact hdraining.elim
  | waiting => exact hdraining.elim
  | receiving =>
    rcases hcall : VirtioNetDriver.receive driver with ⟨_ | packet, after⟩
    · exact ⟨_, _, .drained rfl hcall, trivial, Or.inl ⟨rfl, (contract.receive_none hcall).2.1⟩⟩
    · refine ⟨_, _, .receive rfl hcall, trivial, Or.inr ⟨trivial, ?_⟩⟩
      simp only [Network.work, (contract.receive_some hcall).1, List.length_cons]
      omega
  | holding packet =>
    obtain ⟨after, sent, hprocess, _⟩ := interface.process_rx_spec id (VirtioNetDriver.packet Driver packet)
    exact ⟨_, _, .process rfl hprocess, trivial, Or.inr ⟨trivial, by simp [Network.work]⟩⟩
  | recycling packet =>
    obtain ⟨after, hcall, hwaiting, _⟩ := contract.recycle (hlent packet rfl)
    exact ⟨_, _, .recycle rfl hcall, trivial, Or.inr ⟨trivial, by simp [Network.work, hwaiting]⟩⟩

theorem Conserved.drain {contract : Contract Driver RxBuffer} {mac : MacAddress}
    {trace : List (NetworkLabel Error Waker)} {n : Network Driver RxBuffer Waker}
    (h : Conserved contract mac trace n) (hdraining : n.stage.Draining) (id : Except Error UInt16) :
    ∃ (rest : List (NetworkLabel Error Waker)) (next : Network Driver RxBuffer Waker),
      Run NetworkStep n rest next ∧ (∀ label ∈ rest, label.Drains) ∧ next.stage = .waiting ∧
        contract.waiting next.driver = [] := by
  induction hwork : n.work contract using Nat.strong_induction_on generalizing trace n with
  | h work ih =>
    obtain ⟨label, middle, hstep, hlabel, hdone | ⟨hmiddle, hless⟩⟩ := h.drain_step hdraining id
    · exact ⟨_, middle, Run.nil.snoc hstep, by simpa using hlabel, hdone⟩
    · obtain ⟨rest, next, hrest, hdrains, hdone⟩ := ih _ (hwork ▸ hless) (h.step hstep) hmiddle rfl
      exact ⟨_, next, (Run.nil.snoc hstep).append hrest, List.forall_mem_cons.mpr ⟨hlabel, hdrains⟩, hdone⟩

/-- `init_network_interface` returns when the random source does. -/
theorem init_network_interface_returns (mac : MacAddress) (xid : UInt32) (id : UInt16) :
    ∃ interface sent,
      init_network_interface mac (.ok xid : Except Error UInt32) (.ok id) = ok (interface, sent) := by
  obtain ⟨discover, hdiscover, hval⟩ := dhcp.build_discover_eq mac xid
  have hlen : discover.len = 300 := by rw [Slice.len, hval, dhcp.length_messageBytes _ _ (by decide)]
  obtain ⟨frame, hsend, _⟩ := @NetworkInterface.send_dhcp_ok Error (.initial mac) id _ hlen
  have hdiscover : dhcp.build_discover (NetworkInterface.initial mac).mac xid = ok discover := hdiscover
  have hidle : (NetworkInterface.initial mac).dhcp = .Idle := rfl
  refine ⟨{ NetworkInterface.initial mac with dhcp := .Selecting xid }, [frame], ?_⟩
  unfold init_network_interface NetworkInterface.init_dhcp
  rw [if_neg (not_not.mpr hidle)]
  simp only [hdiscover, bind_tc_ok, hsend]
  rfl

end runs

section ring

/-- A driver that keeps the contract: its device interrupts for every packet. -/
structure Ring where
  free : Nat
  used : List (Slice UInt8)
  status : InterruptStatus
  bound : free + used.length ≤ 8

def Ring.receive : Ring → Option (Slice UInt8) × Ring
  | ⟨free, [], status, bound⟩ => (none, ⟨free, [], status, bound⟩)
  | ⟨free, packet :: used, status, bound⟩ =>
    (some packet, ⟨free, used, status, (Nat.le_succ _).trans bound⟩)

def Ring.recycle_rx_buffer (ring : Ring) : Option Ring :=
  if h : ring.free + ring.used.length < 8 then
    some { ring with free := ring.free + 1, bound := by omega }
  else none

def Ring.Device (ring : Ring) (packet : Option (Slice UInt8)) (after : Ring) : Prop :=
  ring.free = after.free + packet.toList.length ∧ after.used = ring.used ++ packet.toList ∧
    after.status.QUEUE_INTERRUPT = (ring.status.QUEUE_INTERRUPT || packet.isSome)

instance : VirtioNetDriver Ring (Slice UInt8) where
  ack_interrupt ring := (ring.status, { ring with status := ⟨false, false⟩ })
  receive := Ring.receive
  recycle_rx_buffer ring _ := ring.recycle_rx_buffer
  packet := id
  Device := Ring.Device

/-- A buffer is out when there are less than eight in the ring. -/
def Ring.contract : Contract Ring (Slice UInt8) where
  waiting := used
  posted := free
  Lent ring _ := ring.free + ring.used.length < 8
  receive_some {ring after packet} hcall := by
    obtain ⟨free, _ | ⟨first, used⟩, status, bound⟩ := ring
    · cases hcall
    · cases hcall
      exact ⟨rfl, rfl, bound⟩
  receive_none {ring after} hcall := by
    obtain ⟨free, _ | ⟨first, used⟩, status, bound⟩ := ring
    · cases hcall
      exact ⟨rfl, rfl, rfl⟩
    · cases hcall
  recycle hlent := ⟨_, dif_pos hlent, rfl, rfl⟩
  ack_interrupt _ := ⟨rfl, rfl, fun _ hlent => hlent⟩
  device_step {ring after packet} hdevice := by
    obtain ⟨hfree, hused, _⟩ := hdevice
    refine ⟨hused, hfree, fun _ hlent => ?_⟩
    rw [hused, List.length_append]
    omega

def Ring.interrupts : Ring.contract.Interrupts where
  Raised ring := ring.status.QUEUE_INTERRUPT = true
  fill hdevice _ := by rw [hdevice.2.2, Option.isSome_some, Bool.or_true]
  device_step hdevice hraised := by rw [hdevice.2.2, hraised, Bool.true_or]
  ack_interrupt hraised := hraised

/-- The ring when the driver is made. -/
def Ring.new : Ring :=
  ⟨8, [], ⟨false, false⟩, le_rfl⟩

theorem Ring.fresh_new : Ring.contract.Fresh Ring.new :=
  ⟨rfl, rfl⟩

def shortPacket : Slice UInt8 :=
  ⟨[], by decide⟩

/-- The ring with one short packet. -/
def Ring.filled (status : InterruptStatus) : Ring :=
  ⟨7, [shortPacket], status, le_rfl⟩

/-- The state with one short packet, after the interrupt for it. -/
def interrupted (interface : NetworkInterface) : Network Ring (Slice UInt8) Nat :=
  ⟨.filled ⟨false, false⟩, ⟨oneEvent none, .idle⟩, interface, .waiting⟩

theorem run_interrupted (mac : MacAddress) : ∃ (trace : List (NetworkLabel Unit Nat))
    (interface : NetworkInterface), Run NetworkStep (.boot .new mac) trace (interrupted interface) := by
  obtain ⟨interface, sent, hinit⟩ := @init_network_interface_returns Unit mac 1 1
  have hstart : NetworkStep (.boot .new mac : Network Ring (Slice UInt8) Nat)
      (.start sent : NetworkLabel Unit Nat) ⟨.new, .new, interface, .waiting⟩ := .start rfl rfl hinit
  have hdevice : NetworkStep (⟨.new, .new, interface, .waiting⟩ : Network Ring (Slice UInt8) Nat)
      (.device (some shortPacket) : NetworkLabel Unit Nat)
      ⟨.filled ⟨true, false⟩, .new, interface, .waiting⟩ := .device ⟨rfl, rfl, rfl⟩
  have hirq : NetworkStep (⟨.filled ⟨true, false⟩, .new, interface, .waiting⟩ : Network Ring (Slice UInt8) Nat)
      (.irq [] [(.Queue, .accepted, none)] : NetworkLabel Unit Nat) (interrupted interface) := .irq rfl
  exact ⟨_, interface, ((Run.nil.snoc hstart).snoc hdevice).snoc hirq⟩

/-- The same state, once the task has taken the event from the queue. -/
def polled (interface : NetworkInterface) : Network Ring (Slice UInt8) Nat :=
  ⟨.filled ⟨false, false⟩, ⟨noEvent none, .idle⟩, interface, .receiving⟩

theorem run_polled (mac : MacAddress) : ∃ (trace : List (NetworkLabel Unit Nat)) (interface : NetworkInterface),
    Run NetworkStep (.boot .new mac) trace (polled interface) := by
  obtain ⟨trace, interface, hrun⟩ := run_interrupted mac
  have hpoll : NetworkStep (interrupted interface) (.poll (.hit 1 .Queue) : NetworkLabel Unit Nat)
      (polled interface) := .poll rfl trivial (.hit 1 rfl rfl)
  exact ⟨_, interface, hrun.snoc hpoll⟩

end ring

section results

variable {Error Waker Driver RxBuffer : Type} [VirtioNetDriver Driver RxBuffer]
  {contract : Contract Driver RxBuffer} {driver : Driver} {mac : MacAddress}
  {trace : List (NetworkLabel Error Waker)} {n : Network Driver RxBuffer Waker}

/-- In every interleaving of the device and its interrupts with the task: every
packet is given to `process_rx` once and in the order of arrival, the interface is
what these calls make of a new one, none of the eight buffers is lost, and a buffer
that is to be recycled is one that the driver has lent, which it takes back. -/
theorem rx_order (hfresh : contract.Fresh driver) (hrun : Run NetworkStep (.boot driver mac) trace n) :
    delivered trace =
      (processed trace).map Prod.snd ++ n.stage.held Driver ++ contract.waiting n.driver ∧
    (n.stage ≠ .starting → ∃ (xid : Except Error UInt32) (id : Except Error UInt16) (start : NetworkInterface)
      (sent : List Frame), init_network_interface mac xid id = ok (start, sent) ∧
        process_all start (processed trace) = ok n.interface) ∧
    contract.posted n.driver + (contract.waiting n.driver).length + n.stage.buffer?.toList.length = 8 ∧
    ∀ packet, n.stage = .recycling packet → contract.Lent n.driver packet ∧
      ∃ after, VirtioNetDriver.recycle_rx_buffer n.driver packet = some after := by
  have h := run_conserved hfresh hrun
  refine ⟨h.order, h.started, h.buffers, fun packet hstage => ?_⟩
  have hlent := h.lent packet (by rw [hstage]; rfl)
  obtain ⟨after, hcall, _⟩ := contract.recycle hlent
  exact ⟨hlent, after, hcall⟩

/-- One packet, which the task has taken from the driver. -/
theorem rx_order_held : ∃ (trace : List (NetworkLabel Unit Nat)) (n : Network Ring (Slice UInt8) Nat),
    Run NetworkStep (.boot .new MacAddress.broadcast) trace n ∧ n.stage = .holding shortPacket ∧
      delivered trace = (processed trace).map Prod.snd ++ [shortPacket] := by
  obtain ⟨trace, interface, hrun⟩ := run_polled MacAddress.broadcast
  have hreceive : NetworkStep (polled interface) (.receive : NetworkLabel Unit Nat)
      { polled interface with
        driver := ⟨7, [], ⟨false, false⟩, by decide⟩, stage := .holding shortPacket } :=
    .receive rfl rfl
  have horder := (rx_order Ring.fresh_new (hrun.snoc hreceive)).1
  exact ⟨_, _, hrun.snoc hreceive, rfl, horder.trans (List.append_nil _)⟩

/-- In every interleaving of the device and its interrupts with the task, packets
do not wait for nothing. The interrupt for them is pending, or the task is draining
them, or an event for them is queued, and the task has been woken for it if it was
waiting; or else the last event that told of packets was refused, because the task
had not started, or because a hundred configuration changes were queued. -/
theorem rx_no_stall (interrupts : contract.Interrupts) (hfresh : contract.Fresh driver)
    (hrun : Run NetworkStep (.boot driver mac) trace n) (hwaiting : contract.waiting n.driver ≠ []) :
    interrupts.Raised n.driver ∨ n.stage.Draining ∨
    (.Queue ∈ n.stream.channel.items ∧
      ∀ waker after, Since Label.Completes (streamTrace trace) (.pended waker) after →
        ∃ since, LastPending (streamTrace trace) waker since ∧
          (WokenIn since waker ∨ ∃ next since', n.stream.control = .registered next ∧
            Registered (streamTrace trace) next since' ∧ WokenIn since' next)) ∨
    ∃ label after, Since NetworkLabel.Reports trace label after ∧ label.Refused := by
  obtain ⟨hstreamed, hattended⟩ := hrun.invariant
    (fun trace n => Streamed (n.stage ≠ .starting) (streamTrace trace) n.stream ∧
      Attended interrupts trace n)
    ⟨Streamed.boot.congr (by simp [Network.boot]), fun h => absurd hfresh.waiting h⟩
    fun _ _ _ _ h hstep => ⟨streamed_step h.1 hstep, h.2.step h.1 hstep⟩
  refine (hattended hwaiting).imp_right (Or.imp_right (Or.imp_left fun hqueued => ⟨hqueued,
    fun waker after hsince => ?_⟩))
  by_cases hstage : n.stage = .starting
  · rw [(hstreamed.before (not_not.mpr hstage)).1] at hqueued
    cases hqueued
  · exact (run_consistent (hstreamed.after hstage)).woken hsince (List.ne_nil_of_mem hqueued)

/-- One packet, whose event is queued. -/
theorem rx_no_stall_queued : ∃ (trace : List (NetworkLabel Unit Nat)) (n : Network Ring (Slice UInt8) Nat),
    Run NetworkStep (.boot .new MacAddress.broadcast) trace n ∧ n.driver.used ≠ [] ∧
      n.driver.status.QUEUE_INTERRUPT = false ∧ ¬ n.stage.Draining ∧ (.Queue ∈ n.stream.channel.items ∨
        ∃ label after, Since NetworkLabel.Reports trace label after ∧ label.Refused) := by
  obtain ⟨trace, interface, hrun⟩ := run_interrupted MacAddress.broadcast
  refine ⟨trace, _, hrun, List.cons_ne_nil _ _, rfl, id, ?_⟩
  rcases rx_no_stall Ring.interrupts Ring.fresh_new hrun (List.cons_ne_nil _ _) with
    hraised | hdraining | ⟨hqueued, _⟩ | hrefused
  · cases hraised
  · exact hdraining.elim
  · exact Or.inl hqueued
  · exact Or.inr hrefused

end results

end conc_os.task.network
