import ConcOs.Kernel.Handler.Deliver
import ConcOs.Kernel.Handler.Dispatch

open rust Result
open conc_os_net
open conc_os_net.arp conc_os_net.ethernet conc_os_net.ipv4
open conc_os.network.handler

namespace conc_os.network.link

/-- The configured hosts of an Ethernet segment. -/
structure Segment (Host : Type) where
  mac : Host → MacAddress
  ip : Host → Ipv4Addr
  mask : Host → Ipv4Addr
  gateway : Host → Ipv4Addr
  mac_injective : Function.Injective mac
  mac_ne_broadcast : ∀ host, mac host ≠ MacAddress.broadcast
  ip_injective : Function.Injective ip

/-- A host that has its lease and has not heard from any other. -/
def Segment.interface {Host : Type} (segment : Segment Host) (host : Host) : NetworkInterface :=
  .configured (segment.mac host) (segment.ip host) (segment.mask host) (segment.gateway host) .Idle

section

variable {Host : Type} [DecidableEq Host]

/-- The hosts of a segment and every frame that has been on the wire. -/
structure Link (Host : Type) where
  hosts : Host → NetworkInterface
  wire : List Frame

def Segment.quiet (segment : Segment Host) : Link Host := ⟨segment.interface, []⟩

/-- The link after a call on one host. -/
def Link.advance (self : Link Host) (host : Host) (after : NetworkInterface) (sent : List Frame) : Link Host :=
  ⟨Function.update self.hosts host after, self.wire ++ sent⟩

theorem Link.hosts_advance (self : Link Host) (host : Host) (after : NetworkInterface) (sent : List Frame)
    (other : Host) :
    (self.advance host after sent).hosts other = if other = host then after else self.hosts other :=
  Function.update_apply ..

/-- A host sends a packet of its own, or receives a frame. The segment may lose,
repeat, delay and reorder frames, and every host may see every frame. -/
inductive Step (Error : Type) : Link Host → Link Host → Prop where
  | send {link : Link Host} (host : Host) {p : Ipv4Packet} {after : NetworkInterface} {sent : List Frame}
      (hp : p.WellFormed) (hcall : (link.hosts host).send_ipv4 p.dest p = ok (after, sent)) :
      Step Error link (link.advance host after sent)
  | receive {link : Link Host} (host : Host) {frame : Slice UInt8} {id : Except Error UInt16}
      {after : NetworkInterface} {sent : List Frame} (hframe : frame.val ∈ link.wire)
      (hcall : (link.hosts host).process_rx id frame = ok (after, sent)) :
      Step Error link (link.advance host after sent)

end

section

variable {Host : Type}

/-- The frames that the hosts of a segment send: ARP packets that tell the truth
about their sender, and packets in frames to the host that is their next hop. -/
inductive Genuine (segment : Segment Host) : Frame → Prop where
  | arp (host : Host) (dst : MacAddress) (operation : ArpOperation) (target_mac : MacAddress)
      (target_addr : Ipv4Addr) :
      Genuine segment (wireFrame (segment.mac host) dst .ARP
        (arpPacket operation (segment.mac host) (segment.ip host) target_mac target_addr).serialize.val)
  | ipv4 {host other : Host} {p : Ipv4Packet} (hother : other ≠ host) (hp : p.WellFormed)
      (hhop : (segment.interface host).next_hop p.dest = some (segment.ip other)) :
      Genuine segment (wireFrame (segment.mac host) (segment.mac other) .IPV4
        (p.headerBytes p.headerChecksum ++ p.data.val))

/-- What a host of the segment knows: the hardware addresses in its cache are
those of the hosts that hold the addresses, and what it has parked are packets
for that next hop. -/
structure Informed (segment : Segment Host) (host : Host) (interface : NetworkInterface) : Prop where
  config : (segment.interface host).SameConfig interface
  resolved : ∀ addr mac, interface.arp.entry addr = some (.Resolved mac) →
    ∃ other, other ≠ host ∧ segment.ip other = addr ∧ segment.mac other = mac
  parked : ∀ hop, ∀ frame ∈ interface.arp.parked hop, ∃ p : Ipv4Packet, p.WellFormed ∧
    frame.val = p.headerBytes p.headerChecksum ++ p.data.val ∧
    (segment.interface host).next_hop p.dest = some hop

namespace Informed

variable {segment : Segment Host} {host : Host} {self : NetworkInterface}

theorem initial (segment : Segment Host) (host : Host) : Informed segment host (segment.interface host) where
  config := rfl
  resolved := by
    intro addr mac hentry
    cases (ArpCache.entry_new addr).symm.trans hentry
  parked := by
    intro hop frame hframe
    have hnone : (segment.interface host).arp.parked hop = [] := parked_of_none (ArpCache.entry_new hop)
    simp [hnone] at hframe

theorem mac_eq (h : Informed segment host self) : self.mac = segment.mac host := by
  rw [h.config]
  rfl

theorem ipv4_eq (h : Informed segment host self) : self.ipv4 = some (segment.ip host) := by
  rw [h.config]
  rfl

theorem next_hop_eq (h : Informed segment host self) (dst : Ipv4Addr) :
    self.next_hop dst = (segment.interface host).next_hop dst := by
  rw [h.config]
  rfl

/-- A host that hears from another learns the truth about it. -/
theorem put_resolved (h : Informed segment host self) {other : Host} (hother : other ≠ host) :
    Informed segment host
      { self with arp := self.arp.put (segment.ip other) (.Resolved (segment.mac other)) } where
  config := by
    rw [NetworkInterface.SameConfig]
    conv_lhs => rw [h.config]
  resolved := by
    intro addr mac hentry
    rw [ArpCache.entry_put] at hentry
    split at hentry
    case isTrue haddr =>
      have hmac := ArpEntry.Resolved.inj (Option.some.inj hentry)
      exact ⟨other, hother, haddr, hmac⟩
    case isFalse => exact h.resolved addr mac hentry
  parked := by
    intro hop frame hframe
    rw [ArpCache.parked, ArpCache.entry_put] at hframe
    split_ifs at hframe
    · simp at hframe
    · exact h.parked hop frame hframe

/-- A host that cannot send a packet yet may park it. -/
theorem queue_pending (h : Informed segment host self) {hop : Ipv4Addr} {frame : Vec UInt8} {p : Ipv4Packet}
    (hp : p.WellFormed) (hhop : (segment.interface host).next_hop p.dest = some hop)
    (hframe : frame.val = p.headerBytes p.headerChecksum ++ p.data.val) :
    Informed segment host { self with arp := (self.arp.queue_pending hop frame).2 } where
  config := by
    rw [NetworkInterface.SameConfig]
    conv_lhs => rw [h.config]
  resolved := by
    intro addr mac hentry
    have hspec := self.arp.queue_pending_spec hop frame
    dsimp only at hentry
    generalize self.arp.queue_pending hop frame = result at hspec hentry
    cases hspec with
    | queueFull | addressesFull | resolved => exact h.resolved addr mac hentry
    | appended | opened =>
      rw [ArpCache.entry_put] at hentry
      split_ifs at hentry
      · simp at hentry
      · exact h.resolved addr mac hentry
  parked := by
    intro other waiting hwaiting
    dsimp only at hwaiting
    rcases self.arp.parked_queue_pending hop frame other with hsame | ⟨rfl, hmore⟩
    · rw [hsame] at hwaiting
      exact h.parked other waiting hwaiting
    · rw [hmore, List.mem_append, List.mem_singleton] at hwaiting
      rcases hwaiting with hold | rfl
      · exact h.parked other waiting hold
      · exact ⟨p, hp, hframe, hhop⟩

end Informed

/-- What a call on a host may do. It tells no lies, it asks before it waits for an
address, and what it has parked for another host stays parked until it is sent
there. -/
structure Conduct (segment : Segment Host) (host : Host) (before after : NetworkInterface) (sent : List Frame) :
    Prop where
  informed : Informed segment host after
  genuine : ∀ frame ∈ sent, Genuine segment frame
  asked : ∀ hop queue, after.arp.entry hop = some (.Pending queue) →
    (∃ queue, before.arp.entry hop = some (.Pending queue)) ∨
      requestFrame (segment.mac host) (segment.ip host) hop ∈ sent
  kept : ∀ other, ∀ bytes ∈ before.arp.parked (segment.ip other), bytes ∈ after.arp.parked (segment.ip other) ∨
    wireFrame (segment.mac host) (segment.mac other) .IPV4 bytes.val ∈ sent

theorem Informed.idle {segment : Segment Host} {host : Host} {self : NetworkInterface}
    (h : Informed segment host self) : Conduct segment host self self [] where
  informed := h
  genuine := by simp
  asked := fun _ queue hentry => Or.inl ⟨queue, hentry⟩
  kept := fun _ _ hmem => Or.inl hmem

theorem Informed.submit {segment : Segment Host} {host : Host} {self : NetworkInterface}
    (h : Informed segment host self) {hop : Ipv4Addr} {bytes : Vec UInt8} {p : Ipv4Packet} (hp : p.WellFormed)
    (hhop : (segment.interface host).next_hop p.dest = some hop)
    (hbytes : bytes.val = p.headerBytes p.headerChecksum ++ p.data.val) :
    Conduct segment host self (self.submit (segment.ip host) hop bytes).1
      (self.submit (segment.ip host) hop bytes).2 := by
  unfold NetworkInterface.submit
  cases hlookup : self.arp.lookup hop with
  | some mac =>
    refine { h.idle with
      genuine := fun frame hframe => ?_
      asked := fun _ queue hentry => Or.inl ⟨queue, hentry⟩
      kept := fun _ _ hmem => Or.inl hmem }
    obtain ⟨other, hother, rfl, rfl⟩ := h.resolved hop mac (ArpCache.lookup_eq_some_iff.mp hlookup)
    rw [List.mem_singleton.mp hframe, h.mac_eq, hbytes]
    exact .ipv4 hother hp hhop
  | none =>
    refine ⟨h.queue_pending hp hhop hbytes, fun frame hframe => ?_, fun other queue hentry => ?_,
      fun other waiting hwaiting => Or.inl ?_⟩
    · dsimp only at hframe
      split at hframe
      · rw [List.mem_singleton.mp hframe, h.mac_eq]
        exact .arp host _ _ _ _
      · cases hframe
    · rcases ArpCache.pending_of_queue_pending hentry with hold | ⟨rfl, hrequest⟩
      · exact Or.inl hold
      · right
        rw [if_pos hrequest, h.mac_eq]
        exact List.mem_singleton_self _
    · rcases self.arp.parked_queue_pending hop bytes (segment.ip other) with hsame | ⟨_, hmore⟩
      · rwa [hsame]
      · rw [hmore]
        exact List.mem_append_left _ hwaiting

/-- A host that hears from another sends it what it has parked for it. -/
theorem Informed.learned {segment : Segment Host} {host : Host} {self : NetworkInterface}
    (h : Informed segment host self) {sender : Host} {operation : ArpOperation} {target_mac : MacAddress}
    {target_addr : Ipv4Addr} {p : ArpPacket}
    (hp : p = arpPacket operation (segment.mac sender) (segment.ip sender) target_mac target_addr) :
    Conduct segment host self (self.learned p).1 ((self.learned p).2 ++ self.arpReplies p) := by
  have hmac : p.sender_mac = segment.mac sender := by rw [hp]; rfl
  have haddr : p.sender_addr = segment.ip sender := by rw [hp]; rfl
  have hreplies : ∀ frame ∈ self.arpReplies p, Genuine segment frame := by
    intro frame hframe
    unfold NetworkInterface.arpReplies at hframe
    split at hframe
    case isTrue hasked =>
      have htarget : segment.ip host = p.target_addr := Option.some.inj (h.ipv4_eq.symm.trans hasked.2)
      rw [List.mem_singleton.mp hframe, h.mac_eq, ← htarget]
      exact .arp host _ _ _ _
    case isFalse => cases hframe
  unfold NetworkInterface.learned
  split
  case isFalse =>
    exact ⟨h, hreplies, fun _ queue hentry => Or.inl ⟨queue, hentry⟩, fun _ _ hmem => Or.inl hmem⟩
  case isTrue hother =>
    have hsender : sender ≠ host := by
      rintro rfl
      exact hother (hmac.trans h.mac_eq.symm)
    rw [hmac, haddr, ArpCache.insert_eq]
    refine ⟨h.put_resolved hsender, fun frame hframe => ?_, fun hop queue hentry => ?_,
      fun other waiting hwaiting => ?_⟩
    · rcases List.mem_append.mp hframe with hflushed | hreply
      · obtain ⟨bytes, hbytes, rfl⟩ := List.mem_map.mp hflushed
        obtain ⟨packet, hpacket, hval, hhop⟩ := h.parked _ bytes hbytes
        rw [h.mac_eq, hval]
        exact .ipv4 hsender hpacket hhop
      · exact hreplies frame hreply
    · dsimp only at hentry
      rw [ArpCache.entry_put] at hentry
      split_ifs at hentry
      · cases hentry
      · exact Or.inl ⟨queue, hentry⟩
    · by_cases hsame : sender = other
      · subst hsame
        right
        rw [h.mac_eq]
        exact List.mem_append_left _ (List.mem_map.mpr ⟨waiting, hwaiting, rfl⟩)
      · left
        rwa [ArpCache.parked, ArpCache.entry_put, if_neg (fun heq => hsame (segment.ip_injective heq))]

/-- Sending a packet of its own. -/
theorem Informed.send {segment : Segment Host} {host : Host} {self after : NetworkInterface}
    (h : Informed segment host self) {p : Ipv4Packet} (hp : p.WellFormed) {sent : List Frame}
    (hcall : self.send_ipv4 p.dest p = ok (after, sent)) : Conduct segment host self after sent := by
  rcases self.send_ipv4_wellFormed p.dest hp with hnone | ⟨ip, hop, bytes, hip, hhop, hbytes, hsubmit⟩
  · obtain ⟨rfl, rfl⟩ := Prod.mk.inj (ok.inj (hnone.symm.trans hcall))
    exact h.idle
  · obtain rfl : segment.ip host = ip := Option.some.inj (h.ipv4_eq.symm.trans hip)
    rw [h.next_hop_eq] at hhop
    have hresult := ok.inj (hsubmit.symm.trans hcall)
    have hkeep := h.submit hp hhop hbytes
    rwa [hresult] at hkeep

theorem Genuine.slice {segment : Segment Host} {bytes : Frame} (h : Genuine segment bytes) :
    ∃ frame : Slice UInt8, frame.val = bytes := by
  cases h with
  | arp host dst operation target_mac target_addr => exact exists_slice _ _ _ (ArpPacket.length_serialize_le _)
  | ipv4 hother hp hhop => exact exists_slice _ _ _ (length_wellFormed_le hp _)

/-- What the frames of the segment decode to. -/
theorem Genuine.decodes {segment : Segment Host} {frame : Slice UInt8} (h : Genuine segment frame.val) :
    (∃ host operation target_mac target_addr, EthernetFrame.new frame = ok (.ok (.Arp
        (arpPacket operation (segment.mac host) (segment.ip host) target_mac target_addr)))) ∨
      ∃ host other p, other ≠ host ∧ 14 ≤ frame.len ∧ frame.val.take 6 = (segment.mac other).addr.val ∧
        (segment.interface host).next_hop p.dest = some (segment.ip other) ∧
        EthernetFrame.new frame = ok (.ok (.Ipv4 p)) := by
  generalize hval : frame.val = bytes at h
  cases h with
  | arp host dst operation target_mac target_addr =>
    exact Or.inl ⟨host, operation, target_mac, target_addr, new_wireFrame_arp ⟨rfl, rfl, rfl, rfl⟩ hval⟩
  | @ipv4 host other p hother hp hhop =>
    exact Or.inr ⟨host, other, { p with checksum := p.headerChecksum }, hother, (wireFrame_fields hval).1,
      take_six_wireFrame .., hhop, new_wireFrame hp hval⟩

/-- What a host does with a frame of the segment: it learns from an ARP packet,
answers an echo request, or ignores the frame. -/
inductive Reaction (segment : Segment Host) (host : Host) (interface : NetworkInterface) (frame : Slice UInt8) :
    NetworkInterface → List Frame → Prop where
  | ignored : Reaction segment host interface frame interface []
  | arp {sender : Host} {operation : ArpOperation} {target_mac : MacAddress} {target_addr : Ipv4Addr}
      {p : ArpPacket} (hp : p = arpPacket operation (segment.mac sender)
        (segment.ip sender) target_mac target_addr)
      (hdecodes : EthernetFrame.new frame = ok (.ok (.Arp p))) :
      Reaction segment host interface frame (interface.learned p).1
        ((interface.learned p).2 ++ interface.arpReplies p)
  | echo {request reply : Ipv4Packet} {hop : Ipv4Addr} {bytes : Vec UInt8}
      (hdecodes : EthernetFrame.new frame = ok (.ok (.Ipv4 request))) (hrequest : EchoRequest request.data)
      (hreply : reply.WellFormed) (hanswer : ¬ EchoRequest reply.data)
      (hhop : (segment.interface host).next_hop reply.dest = some hop)
      (hbytes : bytes.val = reply.headerBytes reply.headerChecksum ++ reply.data.val) :
      Reaction segment host interface frame (interface.submit (segment.ip host) hop bytes).1
        (interface.submit (segment.ip host) hop bytes).2

/-- The answer to an echo request is not one itself. -/
theorem not_echoRequest_of_reply {data reply : Slice UInt8} (h : reply.val = echoReplyBytes data.val) :
    ¬ EchoRequest reply := by
  intro hrequest
  have hkind := hrequest.kind
  rw [Slice.byte, h, echoReplyBytes] at hkind
  cases hkind

/-- A host answers an ICMP packet only if it is an echo request. -/
theorem Informed.icmp {segment : Segment Host} {host : Host} {self : NetworkInterface}
    (h : Informed segment host self) {frame : Slice UInt8} {request : Ipv4Packet}
    (hdecodes : EthernetFrame.new frame = ok (.ok (.Ipv4 request))) (hlen : request.data.len ≤ 65515) :
    ∃ after sent, self.handle_icmp request = ok (after, sent) ∧
      Reaction segment host self frame after sent := by
  rcases self.handle_icmp_eq hlen with ⟨hrequest, src, reply, hsrc, hreply, hreplyLen, heq⟩ | ⟨_, heq⟩
  swap
  · exact ⟨_, _, heq, .ignored⟩
  obtain rfl : segment.ip host = src := Option.some.inj (h.ipv4_eq.symm.trans hsrc)
  have hwell := Ipv4Packet.ofData_wellFormed (show reply.len ≤ 65515 by omega) (segment.ip host) request.source
    request.id (show IPProtocol.ICMP = _ from rfl)
  rw [heq]
  rcases self.send_ipv4_wellFormed request.source hwell with hnone | ⟨ip, hop, bytes, hip, hhop, hbytes, hsubmit⟩
  · exact ⟨_, _, hnone, .ignored⟩
  · obtain rfl : segment.ip host = ip := Option.some.inj (h.ipv4_eq.symm.trans hip)
    rw [h.next_hop_eq] at hhop
    exact ⟨_, _, hsubmit, .echo hdecodes hrequest hwell (not_echoRequest_of_reply hreply) hhop hbytes⟩

theorem Informed.reacts {Error : Type} {segment : Segment Host} {host : Host} {self : NetworkInterface}
    (h : Informed segment host self) {frame : Slice UInt8} (hframe : Genuine segment frame.val)
    (id : Except Error UInt16) :
    ∃ after sent, self.process_rx id frame = ok (after, sent) ∧
      Reaction segment host self frame after sent := by
  have hcall := self.process_rx_call id frame
  generalize self.process_rx id frame = result at hcall ⊢
  cases hcall with
  | ignored => exact ⟨_, _, rfl, .ignored⟩
  | @arp p hdecodes =>
    rcases hframe.decodes with ⟨sender, operation, target_mac, target_addr, hdecodes'⟩ |
      ⟨_, _, _, _, _, _, _, hdecodes'⟩
    · rw [hdecodes', ok.injEq, Except.ok.injEq, EthernetFrame.Arp.injEq] at hdecodes
      subst hdecodes
      exact ⟨_, _, self.handle_arp_eq _, .arp rfl hdecodes'⟩
    · rw [hdecodes'] at hdecodes
      cases hdecodes
  | icmp hdecodes hlen => exact h.icmp hdecodes hlen
  | @dhcp datagram hdelivers =>
    -- a host that has its lease does not listen to DHCP
    have hidle : self.dhcp = .Idle := by
      rw [h.config]
      rfl
    refine ⟨self, [], ?_, .ignored⟩
    rw [NetworkInterface.handle_dhcp, hidle]
    rfl

/-- Hosts that tell no lies hear none. -/
theorem Informed.react {segment : Segment Host} {host : Host} {self after : NetworkInterface}
    {frame : Slice UInt8} {sent : List Frame} (h : Informed segment host self)
    (hreaction : Reaction segment host self frame after sent) : Conduct segment host self after sent := by
  cases hreaction with
  | ignored => exact h.idle
  | arp hp => exact h.learned hp
  | echo _ _ hreply _ hhop hbytes => exact h.submit hreply hhop hbytes

end

end conc_os.network.link
