import ConcOs.Kernel.Link
import ConcOs.Rust.Run

open rust Result
open conc_os_net
open conc_os_net.arp conc_os_net.ethernet conc_os_net.ipv4
open conc_os.network.handler

namespace conc_os.network.link

section

variable {Host : Type} {segment : Segment Host} {host : Host} {self : NetworkInterface} {Error : Type}

/-- A host takes note of an ARP packet that is for it, or for all. -/
theorem Informed.hear (h : Informed segment host self) (id : Except Error UInt16) {frame : Slice UInt8}
    {src dst : MacAddress} {p : ArpPacket} (hp : p.WellFormed)
    (hframe : frame.val = wireFrame src dst .ARP p.serialize.val)
    (hdst : dst = segment.mac host ∨ dst = MacAddress.broadcast) :
    self.process_rx id frame =
      ok ((self.learned p).1, (self.learned p).2 ++ self.arpReplies p) := by
  have htake : frame.val.take 6 = dst.addr.val := by rw [hframe, take_six_wireFrame]
  rw [← h.mac_eq] at hdst
  rw [self.process_rx_eq id (wireFrame_fields hframe).1 htake (new_wireFrame_arp hp hframe),
    self.handle_packet_eq id _ hdst]
  exact self.handle_arp_eq p

/-- A host leaves a packet alone that is in a frame for another. -/
theorem Informed.overhear (h : Informed segment host self) (id : Except Error UInt16) {frame : Slice UInt8}
    {other : Host} (hother : host ≠ other) {p : Ipv4Packet} (hlen : 14 ≤ frame.len)
    (hdst : frame.val.take 6 = (segment.mac other).addr.val)
    (hnew : EthernetFrame.new frame = ok (.ok (.Ipv4 p))) : self.process_rx id frame = ok (self, []) := by
  have hne : segment.mac other ≠ self.mac := by
    rw [h.mac_eq]
    exact fun heq => hother (segment.mac_injective heq).symm
  rw [self.process_rx_eq id hlen hdst hnew, self.handle_packet_other id _ hne (segment.mac_ne_broadcast other)]

/-- What holds on a link whose hosts tell no lies. -/
structure Sound (segment : Segment Host) (link : Link Host) : Prop where
  informed : ∀ host, Informed segment host (link.hosts host)
  genuine : ∀ frame ∈ link.wire, Genuine segment frame
  asked : ∀ host hop queue, (link.hosts host).arp.entry hop = some (.Pending queue) →
    requestFrame (segment.mac host) (segment.ip host) hop ∈ link.wire

theorem Sound.quiet (segment : Segment Host) : Sound segment segment.quiet where
  informed := Informed.initial segment
  genuine := by simp [Segment.quiet]
  asked := by
    intro host hop queue hentry
    cases (ArpCache.entry_new hop).symm.trans hentry

/-- What `b` says to `a` when it is asked for its address. -/
def replyFrame (segment : Segment Host) (a b : Host) : Frame :=
  wireFrame (segment.mac b) (segment.mac a) .ARP
    (arpPacket .Reply (segment.mac b) (segment.ip b) (segment.mac a) (segment.ip a)).serialize.val

theorem exists_request (segment : Segment Host) (a b : Host) :
    ∃ request : Slice UInt8, request.val = requestFrame (segment.mac a) (segment.ip a) (segment.ip b) :=
  exists_slice _ _ _ (ArpPacket.length_serialize_le _)

theorem exists_reply (segment : Segment Host) (a b : Host) :
    ∃ reply : Slice UInt8, reply.val = replyFrame segment a b :=
  exists_slice _ _ _ (ArpPacket.length_serialize_le _)

/-- A host that hears the question for its address answers it. -/
theorem Sound.answers {link : Link Host} (h : Sound segment link) {a b : Host} (id : Except Error UInt16)
    {request reply : Slice UInt8}
    (hrequest : request.val = requestFrame (segment.mac a) (segment.ip a) (segment.ip b))
    (hreply : reply.val = replyFrame segment a b) :
    ∃ after sent, (link.hosts b).process_rx id request = ok (after, sent) ∧ reply.val ∈ sent := by
  have hcall := (h.informed b).hear id ⟨rfl, rfl, rfl, rfl⟩ hrequest (Or.inr rfl)
  refine ⟨_, _, hcall, List.mem_append_right _ ?_⟩
  rw [NetworkInterface.arpReplies, if_pos ⟨rfl, (h.informed b).ipv4_eq⟩, (h.informed b).mac_eq, hreply]
  exact List.mem_singleton_self _

/-- A host that hears the answer sends what it has parked. -/
theorem Sound.resolves {link : Link Host} (h : Sound segment link) {a b : Host} (hne : a ≠ b)
    (id : Except Error UInt16) {reply : Slice UInt8} (hreply : reply.val = replyFrame segment a b) :
    ∃ after sent, (link.hosts a).process_rx id reply = ok (after, sent) ∧
      after.arp.lookup (segment.ip b) = some (segment.mac b) ∧
      ∀ bytes ∈ (link.hosts a).arp.parked (segment.ip b),
        wireFrame (segment.mac a) (segment.mac b) .IPV4 bytes.val ∈ sent := by
  have hcall := (h.informed a).hear id ⟨rfl, rfl, rfl, rfl⟩ hreply (Or.inl rfl)
  have hother : (arpPacket .Reply (segment.mac b) (segment.ip b) (segment.mac a) (segment.ip a)).sender_mac ≠
      (link.hosts a).mac := by
    rw [(h.informed a).mac_eq]
    exact fun heq => hne (segment.mac_injective heq).symm
  refine ⟨_, _, hcall, ?_, fun bytes hwaiting => List.mem_append_left _ ?_⟩
  · rw [NetworkInterface.learned, if_pos hother, ArpCache.insert_eq, ArpCache.lookup_eq_some_iff]
    exact (ArpCache.entry_put ..).trans (if_pos rfl)
  · rw [NetworkInterface.learned, if_pos hother, ArpCache.insert_eq, (h.informed a).mac_eq]
    exact List.mem_map.mpr ⟨bytes, hwaiting, rfl⟩

end

section

variable {Host : Type} [DecidableEq Host] {segment : Segment Host} {Error : Type}

namespace Sound

theorem advance {link : Link Host} (h : Sound segment link) {host : Host} {after : NetworkInterface}
    {sent : List Frame} (hconduct : Conduct segment host (link.hosts host) after sent) :
    Sound segment (link.advance host after sent) where
  informed := by
    intro other
    rw [Link.hosts_advance]
    split_ifs with hsame
    · subst hsame
      exact hconduct.informed
    · exact h.informed other
  genuine := by
    intro frame hframe
    rcases List.mem_append.mp hframe with hmem | hmem
    · exact h.genuine frame hmem
    · exact hconduct.genuine frame hmem
  asked := by
    intro other hop queue hentry
    rw [Link.hosts_advance] at hentry
    split_ifs at hentry with hsame
    · subst hsame
      rcases hconduct.asked hop queue hentry with ⟨queue, hpending⟩ | hrequest
      · exact List.mem_append_left _ (h.asked other hop queue hpending)
      · exact List.mem_append_right _ hrequest
    · exact List.mem_append_left _ (h.asked other hop queue hentry)

/-- Every step of a link is a call on a host that tells no lies. -/
theorem step_inv {link next : Link Host} (h : Sound segment link) (hstep : Step Error link next) :
    ∃ host after sent, next = link.advance host after sent ∧
      Conduct segment host (link.hosts host) after sent := by
  cases hstep with
  | send host hp hcall => exact ⟨host, _, _, rfl, (h.informed host).send hp hcall⟩
  | receive host hframe hcall =>
    obtain ⟨after, sent, hresult, hreaction⟩ := (h.informed host).reacts (h.genuine _ hframe) _
    obtain ⟨rfl, rfl⟩ := Prod.mk.inj (ok.inj (hresult.symm.trans hcall))
    exact ⟨host, _, _, rfl, (h.informed host).react hreaction⟩

theorem step {link next : Link Host} (h : Sound segment link) (hstep : Step Error link next) :
    Sound segment next := by
  obtain ⟨host, after, sent, rfl, hconduct⟩ := h.step_inv hstep
  exact h.advance hconduct

theorem of_reaches {link : Link Host} (hreach : Relation.ReflTransGen (Step Error) segment.quiet link) :
    Sound segment link :=
  reaches_invariant (Sound segment) (fun _ _ h => h.step) hreach (quiet segment)

end Sound

/-- The hosts of a segment agree on who is who, whatever they send and in
whatever order they hear it. A packet travels in a frame that is addressed to the
host that is its next hop, and no other host reacts to it. -/
theorem link_agreement {link : Link Host} (hreach : Relation.ReflTransGen (Step Error) segment.quiet link) :
    (∀ host addr mac, (link.hosts host).arp.lookup addr = some mac →
        ∃ other, other ≠ host ∧ segment.ip other = addr ∧ segment.mac other = mac) ∧
      ∀ frame : Slice UInt8, frame.val ∈ link.wire →
        (∀ host, ∀ id : Except Error UInt16, ∃ result, (link.hosts host).process_rx id frame = ok result) ∧
        ∀ p, EthernetFrame.new frame = ok (.ok (.Ipv4 p)) → ∃ source hop, hop ≠ source ∧
          (segment.interface source).next_hop p.dest = some (segment.ip hop) ∧
          frame.val.take 6 = (segment.mac hop).addr.val ∧
          ∀ host, host ≠ hop → ∀ id : Except Error UInt16,
            (link.hosts host).process_rx id frame = ok (link.hosts host, []) := by
  have hsound := Sound.of_reaches hreach
  refine ⟨fun host addr mac hlookup =>
    (hsound.informed host).resolved addr mac (ArpCache.lookup_eq_some_iff.mp hlookup),
    fun frame hframe => ⟨fun host id => ?_, fun p hnew => ?_⟩⟩
  · obtain ⟨after, sent, hresult, _⟩ := (hsound.informed host).reacts (hsound.genuine _ hframe) id
    exact ⟨_, hresult⟩
  · rcases (hsound.genuine _ hframe).decodes with ⟨_, _, _, _, hnew'⟩ |
      ⟨source, hop, p', hne, hlen, hdst, hhop, hnew'⟩
    · rw [hnew'] at hnew
      cases hnew
    · obtain rfl : p' = p := EthernetFrame.Ipv4.inj (Except.ok.inj (ok.inj (hnew'.symm.trans hnew)))
      exact ⟨source, hop, hne, hhop, hdst,
        fun host hhost id => (hsound.informed host).overhear id hhost hlen hdst hnew⟩

/-- A packet that a host has parked for another is parked until it is sent. -/
theorem parked_or_sent {a b : Host} {bytes : Vec UInt8} {link later : Link Host} (hsound : Sound segment link)
    (hreach : Relation.ReflTransGen (Step Error) link later)
    (hparked : bytes ∈ (link.hosts a).arp.parked (segment.ip b)) :
    bytes ∈ (later.hosts a).arp.parked (segment.ip b) ∨
      wireFrame (segment.mac a) (segment.mac b) .IPV4 bytes.val ∈ later.wire := by
  refine (reaches_invariant (fun link => Sound segment link ∧
    (bytes ∈ (link.hosts a).arp.parked (segment.ip b) ∨
      wireFrame (segment.mac a) (segment.mac b) .IPV4 bytes.val ∈ link.wire)) ?_ hreach
    ⟨hsound, Or.inl hparked⟩).2
  rintro state next ⟨hstate, hkept⟩ hstep
  obtain ⟨host, after, sent, rfl, hconduct⟩ := hstate.step_inv hstep
  refine ⟨hstate.advance hconduct, ?_⟩
  rcases hkept with hmem | hmem
  swap
  · exact Or.inr (List.mem_append_left _ hmem)
  by_cases hsame : a = host
  · subst hsame
    rcases hconduct.kept b bytes hmem with hmem | hmem
    · left
      rwa [Link.hosts_advance, if_pos rfl]
    · exact Or.inr (List.mem_append_right _ hmem)
  · left
    rwa [Link.hosts_advance, if_neg hsame]

/-- A packet that one host has parked for another is never lost. The question for
the address is already on the wire. Whenever the other host hears it, it answers,
and whenever the first hears the answer, it sends what it has parked. -/
theorem link_delivery {link : Link Host} (hreach : Relation.ReflTransGen (Step Error) segment.quiet link)
    {a b : Host} (hne : a ≠ b) {bytes : Vec UInt8} (hparked : bytes ∈ (link.hosts a).arp.parked (segment.ip b)) :
    ∃ request reply : Slice UInt8, request.val ∈ link.wire ∧
      ∀ later, Relation.ReflTransGen (Step Error) link later →
        (bytes ∈ (later.hosts a).arp.parked (segment.ip b) ∨
          wireFrame (segment.mac a) (segment.mac b) .IPV4 bytes.val ∈ later.wire) ∧
        ∀ id : Except Error UInt16,
          (∃ after sent, (later.hosts b).process_rx id request = ok (after, sent) ∧ reply.val ∈ sent) ∧
          ∃ after sent, (later.hosts a).process_rx id reply = ok (after, sent) ∧
            after.arp.lookup (segment.ip b) = some (segment.mac b) ∧
            (bytes ∈ (later.hosts a).arp.parked (segment.ip b) →
              wireFrame (segment.mac a) (segment.mac b) .IPV4 bytes.val ∈ sent) := by
  have hsound := Sound.of_reaches hreach
  obtain ⟨queue, hpending⟩ := ArpCache.pending_of_mem_parked hparked
  obtain ⟨request, hrequest⟩ := exists_request segment a b
  obtain ⟨reply, hreply⟩ := exists_reply segment a b
  refine ⟨request, reply, ?_, fun later hlater => ⟨parked_or_sent hsound hlater hparked, fun id => ⟨?_, ?_⟩⟩⟩
  · rw [hrequest]
    exact hsound.asked a _ queue hpending
  all_goals have hthen := Sound.of_reaches (hreach.trans hlater)
  · exact hthen.answers id hrequest hreply
  · obtain ⟨after, sent, hcall, hlookup, hflushed⟩ := hthen.resolves hne id hreply
    exact ⟨after, sent, hcall, hlookup, hflushed bytes⟩

end

/-- Two hosts on one subnet. -/
def pair : Segment Bool where
  mac host := .new ⟨[82, 84, 0, 0, 0, if host then 2 else 1], rfl⟩
  ip host := .new 10 0 0 (if host then 2 else 1)
  mask _ := .new 255 255 255 0
  gateway _ := .new 10 0 0 254
  mac_injective := by decide
  mac_ne_broadcast := by decide
  ip_injective := by decide

/-- The first packet of a host is parked. -/
theorem pair_send : ∃ p after sent bytes, p.WellFormed ∧
    (pair.interface false).send_ipv4 p.dest p = ok (after, sent) ∧ bytes ∈ after.arp.parked (pair.ip true) := by
  have hp : (Ipv4Packet.ofData Slice.empty (pair.ip false) (pair.ip true) 7 .ICMP).WellFormed :=
    Ipv4Packet.ofData_wellFormed (by decide) _ _ _ rfl
  obtain ⟨bytes, hbytes, _⟩ := hp.serialize_eq
  have hhop : (pair.interface false).next_hop (pair.ip true) = some (pair.ip true) := by decide
  exact ⟨_, _, _, bytes, hp, NetworkInterface.send_ipv4_of_next_hop hhop rfl hbytes, List.mem_singleton_self _⟩

theorem pair_parks : ∃ link bytes, Relation.ReflTransGen (Step Unit) pair.quiet link ∧
    bytes ∈ (link.hosts false).arp.parked (pair.ip true) := by
  obtain ⟨p, after, sent, bytes, hp, hcall, hparked⟩ := pair_send
  refine ⟨_, bytes, .single (Step.send false hp hcall : Step Unit pair.quiet _), ?_⟩
  rwa [Link.hosts_advance, if_pos rfl]

/-- The other host is asked for its address and answers, and the packet is sent. -/
theorem pair_resolves : ∃ link : Link Bool, ∃ frame : Slice UInt8, ∃ p,
    Relation.ReflTransGen (Step Unit) pair.quiet link ∧
    (link.hosts false).arp.lookup (pair.ip true) = some (pair.mac true) ∧ frame.val ∈ link.wire ∧
    EthernetFrame.new frame = ok (.ok (.Ipv4 p)) := by
  obtain ⟨parks, bytes, hreach, hparked⟩ := pair_parks
  have hsound := Sound.of_reaches hreach
  obtain ⟨queue, hpending⟩ := ArpCache.pending_of_mem_parked hparked
  obtain ⟨request, hrequest⟩ := exists_request pair false true
  obtain ⟨reply, hreply⟩ := exists_reply pair false true
  obtain ⟨asked, answer, hasked, hanswer⟩ := hsound.answers (.error ()) hrequest hreply
  have hheard : Step Unit parks (parks.advance true asked answer) :=
    .receive true (hrequest ▸ hsound.asked false _ queue hpending) hasked
  have hsound' := hsound.step hheard
  obtain ⟨after, sent, hcall, hlookup, hflushed⟩ :=
    hsound'.resolves (by decide : false ≠ true) (.error () : Except Unit UInt16) hreply
  have hresolved : Step Unit _ ((parks.advance true asked answer).advance false after sent) :=
    .receive false (List.mem_append_right _ hanswer) hcall
  have hparked' : bytes ∈ ((parks.advance true asked answer).hosts false).arp.parked (pair.ip true) := by
    rwa [Link.hosts_advance, if_neg (by decide)]
  have hsent := hflushed bytes hparked'
  obtain ⟨packet, hpacket, hval, _⟩ := (hsound'.informed false).parked _ bytes hparked'
  rw [hval] at hsent
  obtain ⟨frame, hframe⟩ := exists_slice (pair.mac false) (pair.mac true) .IPV4
    (length_wellFormed_le hpacket packet.headerChecksum)
  refine ⟨_, frame, _, (hreach.tail hheard).tail hresolved, ?_, List.mem_append_right _ (hframe ▸ hsent),
    new_wireFrame hpacket hframe⟩
  rwa [Link.hosts_advance, if_pos rfl]

/-- The first packet of a host on its way to the other one. -/
theorem link_agreement_pair : ∃ link : Link Bool, ∃ frame : Slice UInt8, ∃ p,
    Relation.ReflTransGen (Step Unit) pair.quiet link ∧
    (link.hosts false).arp.lookup (pair.ip true) = some (pair.mac true) ∧
    (∃ other, other ≠ false ∧ pair.ip other = pair.ip true ∧ pair.mac other = pair.mac true) ∧
    frame.val ∈ link.wire ∧ EthernetFrame.new frame = ok (.ok (.Ipv4 p)) ∧
    ∃ source hop, hop ≠ source ∧ (pair.interface source).next_hop p.dest = some (pair.ip hop) ∧
      frame.val.take 6 = (pair.mac hop).addr.val := by
  obtain ⟨link, frame, p, hreach, hlookup, hframe, hnew⟩ := pair_resolves
  obtain ⟨hagree, hwire⟩ := link_agreement hreach
  obtain ⟨source, hop, hne, hhop, hdst, _⟩ := (hwire frame hframe).2 p hnew
  exact ⟨link, frame, p, hreach, hlookup, hagree false _ _ hlookup, hframe, hnew, source, hop, hne, hhop, hdst⟩

theorem link_delivery_pair : ∃ link bytes, Relation.ReflTransGen (Step Unit) pair.quiet link ∧
    bytes ∈ (link.hosts false).arp.parked (pair.ip true) ∧
    ∃ request : Slice UInt8, request.val ∈ link.wire := by
  obtain ⟨link, bytes, hreach, hparked⟩ := pair_parks
  obtain ⟨request, reply, hrequest, _⟩ := link_delivery hreach (by decide : false ≠ true) hparked
  exact ⟨link, bytes, hreach, hparked, request, hrequest⟩

end conc_os.network.link
