import ConcOs.Kernel.Link.Agreement
import Mathlib.Algebra.BigOperators.Group.Finset.Basic
import Mathlib.Data.Fintype.Card

open rust Result
open conc_os_net
open conc_os_net.arp conc_os_net.ethernet conc_os_net.ipv4
open conc_os.network.handler

namespace conc_os.network.link

/-- The most deliveries that a packet can cause where a frame reaches `n` hosts.
The answer to an echo request may have to ask for an address first. -/
def packetCost (n : Nat) (p : Ipv4Packet) : Nat := if EchoRequest p.data then 1 + n + n * (1 + n) else 1

def frameCost (n : Nat) (frame : Frame) : Nat :=
  if h : frame.length ≤ isizeMax then
    match EthernetFrame.new ⟨frame, h⟩ with
    | ok (.ok (.Arp p)) => if p.operation = .Request then 1 + n else 1
    | ok (.ok (.Ipv4 p)) => packetCost n p
    | _ => 1
  else 1

def parcelCost (n : Nat) (bytes : Vec UInt8) : Nat :=
  match Ipv4Packet.from_packet bytes with
  | ok (.ok p) => packetCost n p
  | _ => 1

theorem frameCost_arp {n : Nat} {frame : Slice UInt8} {p : ArpPacket}
    (hnew : EthernetFrame.new frame = ok (.ok (.Arp p))) :
    frameCost n frame.val = if p.operation = .Request then 1 + n else 1 := by
  rw [frameCost, dif_pos frame.property]
  change (match EthernetFrame.new frame with | _ => _) = _
  rw [hnew]

theorem frameCost_ipv4 {n : Nat} {frame : Slice UInt8} {p : Ipv4Packet}
    (hnew : EthernetFrame.new frame = ok (.ok (.Ipv4 p))) : frameCost n frame.val = packetCost n p := by
  rw [frameCost, dif_pos frame.property]
  change (match EthernetFrame.new frame with | _ => _) = _
  rw [hnew]

theorem one_le_frameCost (n : Nat) (frame : Frame) : 1 ≤ frameCost n frame := by
  unfold frameCost packetCost
  repeat' split
  all_goals omega

theorem packetCost_le (n : Nat) (p : Ipv4Packet) : packetCost n p ≤ 1 + n + n * (1 + n) := by
  unfold packetCost
  split <;> omega

/-- A frame costs what the packet in it costs. -/
theorem frameCost_wireFrame (n : Nat) {p : Ipv4Packet} (hp : p.WellFormed) (src dst : MacAddress)
    {bytes : Vec UInt8} (hbytes : bytes.val = p.headerBytes p.headerChecksum ++ p.data.val) :
    frameCost n (wireFrame src dst .IPV4 bytes.val) = packetCost n p ∧ parcelCost n bytes = packetCost n p := by
  obtain ⟨frame, hframe⟩ := exists_slice src dst .IPV4 (hbytes ▸ length_wellFormed_le hp p.headerChecksum)
  constructor
  · rw [← hframe, frameCost_ipv4 (new_wireFrame hp (hframe.trans (by rw [hbytes]))), packetCost, packetCost]
  · rw [parcelCost, hp.from_packet_eq [] (by rw [List.append_nil, hbytes])]
    simp only [packetCost]

theorem frameCost_wireFrame_arp (n : Nat) {p : ArpPacket} (hp : p.WellFormed) (src dst : MacAddress) :
    frameCost n (wireFrame src dst .ARP p.serialize.val) = if p.operation = .Request then 1 + n else 1 := by
  obtain ⟨frame, hframe⟩ := exists_slice src dst .ARP p.length_serialize_le
  rw [← hframe, frameCost_arp (new_wireFrame_arp hp hframe)]

/-- What a list of frames costs when each of them reaches `n` hosts. -/
def sentCost (n : Nat) (sent : List Frame) : Nat := n * (sent.map (frameCost n)).sum

section

variable {Host : Type} [Fintype Host] {segment : Segment Host} {host : Host} {self : NetworkInterface}

/-- What the packets cost that a host has parked for others. -/
def stored (n : Nat) (segment : Segment Host) (interface : NetworkInterface) : Nat :=
  ∑ other, n * ((interface.arp.parked (segment.ip other)).map (parcelCost n)).sum

theorem stored_queue_pending (n : Nat) (segment : Segment Host) (self : NetworkInterface) (hop : Ipv4Addr)
    (bytes : Vec UInt8) :
    stored n segment { self with arp := (self.arp.queue_pending hop bytes).2 } ≤
      stored n segment self + n * parcelCost n bytes := by
  classical
  have hadded : ∑ other, (if segment.ip other = hop then n * parcelCost n bytes else 0) ≤
      n * parcelCost n bytes := by
    by_cases hheld : ∃ other, segment.ip other = hop
    · obtain ⟨other, rfl⟩ := hheld
      simp [segment.ip_injective.eq_iff]
    · have hzero : ∀ other, segment.ip other ≠ hop := fun other heq => hheld ⟨other, heq⟩
      simp [hzero]
  refine le_trans ?_ (Nat.add_le_add_left hadded _)
  rw [stored, stored, ← Finset.sum_add_distrib]
  refine Finset.sum_le_sum fun other _ => ?_
  rcases self.arp.parked_queue_pending hop bytes (segment.ip other) with hsame | ⟨hhop, hmore⟩
  · rw [hsame]
    exact Nat.le_add_right ..
  · rw [hmore, if_pos hhop, List.map_append, List.sum_append, Nat.mul_add]
    simp

theorem stored_put_resolved [DecidableEq Host] (n : Nat) (segment : Segment Host) (self : NetworkInterface)
    (sender : Host) (mac : MacAddress) :
    stored n segment { self with arp := self.arp.put (segment.ip sender) (.Resolved mac) } +
        n * ((self.arp.parked (segment.ip sender)).map (parcelCost n)).sum =
      stored n segment self := by
  rw [stored, stored, ← Finset.sum_erase_add _ _ (Finset.mem_univ sender),
    ← Finset.sum_erase_add (Finset.univ) (fun other => n * ((self.arp.parked (segment.ip other)).map _).sum)
      (Finset.mem_univ sender)]
  have hsender : (self.arp.put (segment.ip sender) (.Resolved mac)).parked (segment.ip sender) = [] := by
    rw [ArpCache.parked, ArpCache.entry_put, if_pos rfl]
  have hothers : ∀ other ∈ Finset.univ.erase sender,
      n * (((self.arp.put (segment.ip sender)
        (.Resolved mac)).parked (segment.ip other)).map (parcelCost n)).sum =
        n * ((self.arp.parked (segment.ip other)).map (parcelCost n)).sum := by
    intro other hother
    have hne : segment.ip sender ≠ segment.ip other := fun heq =>
      Finset.ne_of_mem_erase hother (segment.ip_injective heq).symm
    rw [ArpCache.parked, ArpCache.entry_put, if_neg hne, ArpCache.parked]
  rw [Finset.sum_congr rfl hothers, hsender]
  simp

/-- What a host does with a packet costs no more than the packet and a question. -/
theorem submit_cost (n : Nat) (segment : Segment Host) (self : NetworkInterface) (ip hop : Ipv4Addr)
    {bytes : Vec UInt8} {p : Ipv4Packet} (hp : p.WellFormed)
    (hbytes : bytes.val = p.headerBytes p.headerChecksum ++ p.data.val) :
    stored n segment (self.submit ip hop bytes).1 + sentCost n (self.submit ip hop bytes).2 ≤
      stored n segment self + n * packetCost n p + n * (1 + n) := by
  unfold NetworkInterface.submit
  cases hlookup : self.arp.lookup hop with
  | some mac =>
    simp only [sentCost, List.map_cons, List.map_nil, List.sum_singleton,
      (frameCost_wireFrame n hp _ _ hbytes).1]
    omega
  | none =>
    have hstored := stored_queue_pending n segment self hop bytes
    rw [(frameCost_wireFrame n hp MacAddress.broadcast MacAddress.broadcast hbytes).2] at hstored
    have hsent : sentCost n (if (self.arp.queue_pending hop bytes).1 = .RequestNeeded then
        [requestFrame self.mac ip hop] else []) ≤ n * (1 + n) := by
      split
      · rw [sentCost, List.map_singleton, List.sum_singleton, requestFrame,
          frameCost_wireFrame_arp n ⟨rfl, rfl, rfl, rfl⟩]
        exact le_of_eq (congrArg (n * ·) (if_pos rfl))
      · simp [sentCost]
    dsimp only
    omega

/-- What a host does with an ARP packet costs no more than what it had parked,
and an answer if there is a question. -/
theorem Informed.learned_cost [DecidableEq Host] (h : Informed segment host self) (n : Nat) {sender : Host}
    {operation : ArpOperation} {target_mac : MacAddress} {target_addr : Ipv4Addr} {p : ArpPacket}
    (hp : p = arpPacket operation (segment.mac sender) (segment.ip sender) target_mac target_addr) :
    stored n segment (self.learned p).1 + sentCost n ((self.learned p).2 ++ self.arpReplies p) ≤
      stored n segment self + if p.operation = .Request then n else 0 := by
  have hreplies : sentCost n (self.arpReplies p) ≤ if p.operation = .Request then n else 0 := by
    unfold NetworkInterface.arpReplies
    split
    case isTrue hasked =>
      rw [sentCost, List.map_singleton, List.sum_singleton, frameCost_wireFrame_arp n ⟨rfl, rfl, rfl, rfl⟩,
        if_pos hasked.1]
      exact le_of_eq (Nat.mul_one n)
    case isFalse => simp [sentCost]
  have hsplit : sentCost n ((self.learned p).2 ++ self.arpReplies p) =
      sentCost n (self.learned p).2 + sentCost n (self.arpReplies p) := by
    simp only [sentCost, List.map_append, List.sum_append, Nat.mul_add]
  suffices hflushed : stored n segment (self.learned p).1 + sentCost n (self.learned p).2 ≤
      stored n segment self by
    omega
  unfold NetworkInterface.learned
  split
  case isFalse => simp [sentCost]
  case isTrue =>
    obtain ⟨hmac, haddr⟩ : p.sender_mac = segment.mac sender ∧ p.sender_addr = segment.ip sender := by
      rw [hp]
      exact ⟨rfl, rfl⟩
    rw [hmac, haddr, ArpCache.insert_eq, ← stored_put_resolved n segment self sender (segment.mac sender),
      sentCost, List.map_map]
    -- each parked packet costs as much as the frame that carries it
    refine le_of_eq (congrArg (fun costs => _ + n * costs) (congrArg List.sum (List.map_congr_left ?_)))
    intro bytes hbytes
    obtain ⟨packet, hpacket, hval, _⟩ := h.parked _ bytes hbytes
    obtain ⟨hframe, hparcel⟩ := frameCost_wireFrame n hpacket self.mac (segment.mac sender) hval
    rw [hparcel]
    exact hframe

/-- What a host does with a frame costs less than the frame. -/
theorem Reaction.cost [DecidableEq Host] {frame : Slice UInt8} {after : NetworkInterface} {sent : List Frame}
    (hreaction : Reaction segment host self frame after sent) (h : Informed segment host self) (n : Nat) :
    1 + (stored n segment after + sentCost n sent) ≤ stored n segment self + frameCost n frame.val := by
  cases hreaction with
  | ignored =>
    have hpos := one_le_frameCost n frame.val
    simp only [sentCost, List.map_nil, List.sum_nil, Nat.mul_zero]
    omega
  | arp hp hdecodes =>
    have hcost := h.learned_cost n hp
    rw [frameCost_arp hdecodes]
    split_ifs at hcost ⊢ <;> omega
  | @echo request reply hop bytes hdecodes hrequest hreply hanswer hhop hbytes =>
    have hcost := submit_cost n segment self (segment.ip host) hop hreply hbytes
    rw [packetCost, if_neg hanswer] at hcost
    rw [frameCost_ipv4 hdecodes, packetCost, if_pos hrequest]
    omega

end

/-- The hosts of a segment, and the frames that have yet to arrive at a host. -/
structure Traffic (Host : Type) where
  state : Link Host
  inflight : Multiset (Host × Frame)

inductive Event where
  | send
  | arrive
  | lose
deriving DecidableEq

/-- The most deliveries and losses that one packet can cause where a frame reaches
`n` hosts. -/
def packetBound (n : Nat) : Nat := n * (n + 1) * (n + 2)

namespace Event

def uses : Event → Nat
  | send => 0
  | arrive | lose => 1

def brings (n : Nat) : Event → Nat
  | send => packetBound n
  | arrive | lose => 0

theorem sum_uses (trace : List Event) : (trace.map uses).sum = trace.count .arrive + trace.count .lose := by
  induction trace with
  | nil => rfl
  | cons event trace ih => cases event <;> simp [uses, ih] <;> omega

theorem sum_brings (n : Nat) (trace : List Event) :
    (trace.map (brings n)).sum = trace.count .send * packetBound n := by
  induction trace with
  | nil => simp
  | cons event trace ih => cases event <;> simp [brings, ih, Nat.add_mul, Nat.add_comm]

end Event

section

variable {Host : Type} {segment : Segment Host}

/-- The most deliveries and losses that can still happen without a new packet. -/
def Traffic.load [Fintype Host] (segment : Segment Host) (traffic : Traffic Host) : Nat :=
  (traffic.inflight.map fun arrival => frameCost (Fintype.card Host - 1) arrival.2).sum +
    ∑ host, stored (Fintype.card Host - 1) segment (traffic.state.hosts host)

/-- What arrives has been on the wire. -/
structure Traffic.Sound (segment : Segment Host) (traffic : Traffic Host) : Prop where
  state : link.Sound segment traffic.state
  inflight : ∀ arrival ∈ traffic.inflight, arrival.2 ∈ traffic.state.wire

theorem Traffic.load_quiet [Fintype Host] (segment : Segment Host) :
    Traffic.load segment ⟨segment.quiet, 0⟩ = 0 := by
  have hparked : ∀ host hop, (segment.quiet.hosts host).arp.parked hop = [] :=
    fun host hop => parked_of_none (ArpCache.entry_new hop)
  simp [Traffic.load, stored, hparked]

theorem Traffic.Sound.quiet (segment : Segment Host) : Traffic.Sound segment ⟨segment.quiet, 0⟩ :=
  ⟨link.Sound.quiet segment, by simp⟩

end

section

variable {Host : Type} [Fintype Host] [DecidableEq Host]

/-- A frame that a host transmits may arrive at every other host. -/
def carried (host : Host) (sent : List Frame) : Multiset (Host × Frame) :=
  (sent : Multiset Frame).bind fun frame => (Finset.univ.erase host).val.map fun other => (other, frame)

/-- A host sends a packet of its own, or a frame arrives at a host, or is lost. -/
inductive Traffic.Step (Error : Type) : Traffic Host → Event → Traffic Host → Prop where
  | send {traffic : Traffic Host} (host : Host) {p : Ipv4Packet} {after : NetworkInterface} {sent : List Frame}
      (hp : p.WellFormed) (hcall : (traffic.state.hosts host).send_ipv4 p.dest p = ok (after, sent)) :
      Traffic.Step Error traffic .send
        ⟨traffic.state.advance host after sent, traffic.inflight + carried host sent⟩
  | arrive {traffic : Traffic Host} {rest : Multiset (Host × Frame)} (host : Host) {frame : Slice UInt8}
      {id : Except Error UInt16} {after : NetworkInterface} {sent : List Frame}
      (hinflight : traffic.inflight = (host, frame.val) ::ₘ rest)
      (hcall : (traffic.state.hosts host).process_rx id frame = ok (after, sent)) :
      Traffic.Step Error traffic .arrive ⟨traffic.state.advance host after sent, rest + carried host sent⟩
  | lose {traffic : Traffic Host} {rest : Multiset (Host × Frame)} {arrival : Host × Frame}
      (hinflight : traffic.inflight = arrival ::ₘ rest) :
      Traffic.Step Error traffic .lose ⟨traffic.state, rest⟩

variable {segment : Segment Host} {Error : Type}

theorem sum_carried (host : Host) (sent : List Frame) :
    ((carried host sent).map fun arrival => frameCost (Fintype.card Host - 1) arrival.2).sum =
      sentCost (Fintype.card Host - 1) sent := by
  have hcard : (Finset.univ.erase host).card = Fintype.card Host - 1 := by
    rw [Finset.card_erase_of_mem (Finset.mem_univ host), Finset.card_univ]
  rw [carried, Multiset.map_bind, Multiset.sum_bind, sentCost]
  simp only [Multiset.map_map, Function.comp_def, Multiset.map_const', Multiset.sum_replicate, smul_eq_mul,
    Multiset.map_coe, Multiset.sum_coe]
  rw [Finset.card_val, hcard, List.sum_map_mul_left]

theorem mem_carried {host : Host} {sent : List Frame} {arrival : Host × Frame}
    (h : arrival ∈ carried host sent) : arrival.2 ∈ sent := by
  obtain ⟨frame, hframe, hmem⟩ := Multiset.mem_bind.mp h
  obtain ⟨other, _, rfl⟩ := Multiset.mem_map.mp hmem
  exact hframe

/-- A call on one host changes what that host has parked. -/
theorem stored_advance (n : Nat) (segment : Segment Host) (link : Link Host) (host : Host)
    (after : NetworkInterface) (sent : List Frame) :
    ∑ other, stored n segment ((link.advance host after sent).hosts other) + stored n segment (link.hosts host) =
      ∑ other, stored n segment (link.hosts other) + stored n segment after := by
  rw [← Finset.sum_erase_add _ _ (Finset.mem_univ host),
    ← Finset.sum_erase_add Finset.univ (fun other => stored n segment (link.hosts other)) (Finset.mem_univ host)]
  have hothers : ∀ other ∈ Finset.univ.erase host,
    stored n segment ((link.advance host after sent).hosts other) =
      stored n segment (link.hosts other) := by
    intro other hother
    rw [Link.hosts_advance, if_neg (Finset.ne_of_mem_erase hother)]
  rw [Finset.sum_congr rfl hothers, Link.hosts_advance, if_pos rfl]
  omega

namespace Traffic

theorem Sound.advance {traffic : Traffic Host} (h : Sound segment traffic) {host : Host}
    {after : NetworkInterface} {sent : List Frame} {rest : Multiset (Host × Frame)}
    (hconduct : Conduct segment host (traffic.state.hosts host) after sent) (hrest : rest ≤ traffic.inflight) :
    Sound segment ⟨traffic.state.advance host after sent, rest + carried host sent⟩ := by
  refine ⟨h.state.advance hconduct, fun arrival harrival => ?_⟩
  rcases Multiset.mem_add.mp harrival with hold | hnew
  · exact List.mem_append_left _ (h.inflight arrival (Multiset.mem_of_le hrest hold))
  · exact List.mem_append_right _ (mem_carried hnew)

/-- Every delivery and every loss uses up some of the load, and only a new packet
adds to it. -/
theorem Sound.step {traffic next : Traffic Host} (h : Sound segment traffic) {event : Event}
    (hstep : Step Error traffic event next) :
    Sound segment next ∧
      event.uses + next.load segment ≤ traffic.load segment + event.brings (Fintype.card Host - 1) := by
  set n := Fintype.card Host - 1 with hn
  cases hstep with
  | @send host p after sent hp hcall =>
    have hinformed := h.state.informed host
    refine ⟨h.advance (hinformed.send hp hcall) le_rfl, ?_⟩
    have hcost : stored n segment after + sentCost n sent ≤
        stored n segment (traffic.state.hosts host) + n * packetCost n p + n * (1 + n) := by
      rcases (traffic.state.hosts host).send_ipv4_wellFormed p.dest hp with
        hnone | ⟨ip, hop, bytes, hip, hhop, hbytes, hsubmit⟩
      · obtain ⟨rfl, rfl⟩ := Prod.mk.inj (ok.inj (hnone.symm.trans hcall))
        simp only [sentCost, List.map_nil, List.sum_nil]
        omega
      · have hresult := ok.inj (hsubmit.symm.trans hcall)
        have hsubmitted := submit_cost n segment (traffic.state.hosts host) ip hop hp hbytes
        rwa [hresult] at hsubmitted
    have hpacket := Nat.mul_le_mul_left n (packetCost_le n p)
    have hbound : n * (1 + n + n * (1 + n)) + n * (1 + n) = packetBound n := by
      unfold packetBound
      ring
    have hadvance := stored_advance n segment traffic.state host after sent
    have hcarried := sum_carried host sent
    simp only [load, Multiset.map_add, Multiset.sum_add, ← hn, Event.uses, Event.brings] at hcarried ⊢
    omega
  | @arrive rest host frame id after sent hinflight hcall =>
    have hinformed := h.state.informed host
    have hgenuine := h.state.genuine _ (h.inflight (host, frame.val) (by simp [hinflight]))
    obtain ⟨after', sent', hresult, hreaction⟩ := hinformed.reacts hgenuine id
    obtain ⟨rfl, rfl⟩ := Prod.mk.inj (ok.inj (hresult.symm.trans hcall))
    refine ⟨h.advance (hinformed.react hreaction) (by rw [hinflight]; exact Multiset.le_cons_self ..), ?_⟩
    have hcost := hreaction.cost hinformed n
    have hadvance := stored_advance n segment traffic.state host after' sent'
    have hcarried := sum_carried host sent'
    simp only [load, hinflight, Multiset.map_add, Multiset.sum_add, Multiset.map_cons, Multiset.sum_cons,
      ← hn, Event.uses, Event.brings] at hcarried ⊢
    omega
  | @lose rest arrival hinflight =>
    refine ⟨⟨h.state, fun other hother => h.inflight other (by simp [hinflight, hother])⟩, ?_⟩
    have hpos := one_le_frameCost n arrival.2
    simp only [load, hinflight, Multiset.map_cons, Multiset.sum_cons, ← hn, Event.uses, Event.brings]
    omega

end Traffic

/-- There are no storms. Where each frame arrives at most once at every other
host, the packets that the hosts send cause a bounded number of deliveries, in
every order and with every loss. No delivery fails, so the last of them leaves
nothing on the way. -/
theorem link_traffic {trace : List Event} {traffic : Traffic Host}
    (hrun : Run (Traffic.Step Error) ⟨segment.quiet, 0⟩ trace traffic) :
    trace.count .arrive + trace.count .lose ≤
        trace.count .send * packetBound (Fintype.card Host - 1) ∧
      ∀ arrival ∈ traffic.inflight, ∀ id : Except Error UInt16, ∃ frame : Slice UInt8, frame.val = arrival.2 ∧
        ∃ result, (traffic.state.hosts arrival.1).process_rx id frame = ok result := by
  obtain ⟨hsound, hload⟩ := hrun.amortized (Traffic.Sound segment) Event.uses
    (Event.brings (Fintype.card Host - 1)) (Traffic.load segment) (Traffic.Sound.quiet segment)
    (fun _ _ _ h hstep => h.step hstep)
  refine ⟨?_, fun arrival harrival id => ?_⟩
  · rw [Event.sum_uses, Event.sum_brings, Traffic.load_quiet] at hload
    omega
  · have hgenuine := hsound.state.genuine _ (hsound.inflight arrival harrival)
    obtain ⟨frame, hframe⟩ := hgenuine.slice
    obtain ⟨after, sent, hresult, _⟩ := (hsound.state.informed arrival.1).reacts (hframe ▸ hgenuine) id
    exact ⟨frame, hframe, _, hresult⟩

end

theorem link_traffic_pair : ∃ traffic, Run (Traffic.Step Unit) ⟨pair.quiet, 0⟩ [.send] traffic ∧
    ∀ arrival ∈ traffic.inflight, ∀ id : Except Unit UInt16, ∃ frame : Slice UInt8, frame.val = arrival.2 ∧
      ∃ result, (traffic.state.hosts arrival.1).process_rx id frame = ok result := by
  obtain ⟨p, after, sent, bytes, hp, hcall, _⟩ := pair_send
  have hrun : Run (Traffic.Step Unit) ⟨pair.quiet, 0⟩ [.send] _ := .snoc .nil (.send false hp hcall)
  exact ⟨_, hrun, (link_traffic hrun).2⟩

end conc_os.network.link
