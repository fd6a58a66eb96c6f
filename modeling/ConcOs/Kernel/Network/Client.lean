import ConcOs.Kernel.Handler.Dispatch
import ConcOs.Kernel.Handler.Exchange
import ConcOs.Kernel.Network.Pipeline
import ConcOs.Kernel.Rng.Entropy

open rust Result
open conc_os_net
open conc_os_net.ethernet conc_os_net.ipv4 conc_os_net.udp

namespace conc_os.network.handler

section protocol

/-- What a client makes of a message: an offer, an acknowledgement, or neither. -/
structure Answer where
  offer : Option dhcp.DHCPBinding
  ack : Option dhcp.DHCPBinding

/-- A message that is neither. -/
def Answer.none : Answer := ⟨.none, .none⟩

/-- An exchange from the discover on: the client takes the first offer, and then
the first acknowledgement by the server that made it. -/
inductive Lease where
  | selecting
  | requesting (offer : dhcp.DHCPBinding)
  | bound (ack : dhcp.DHCPBinding)

/-- The acknowledgement is by the server that made the offer. -/
def Answer.acknowledges (answer : Answer) (offer : dhcp.DHCPBinding) : Option dhcp.DHCPBinding :=
  answer.ack.filter fun ack => ack.server_id = offer.server_id

def Lease.next : Lease → Answer → Lease
  | selecting, answer => answer.offer.elim selecting requesting
  | requesting offer, answer => (answer.acknowledges offer).elim (requesting offer) bound
  | bound ack, _ => bound ack

@[simp] theorem Lease.next_none (lease : Lease) : lease.next .none = lease := by
  cases lease <;> rfl

/-- The exchange after these messages. -/
def Lease.after (answers : List Answer) : Lease := answers.foldl Lease.next .selecting

theorem Lease.foldl_bound (ack : dhcp.DHCPBinding) (answers : List Answer) :
    answers.foldl Lease.next (.bound ack) = .bound ack := by
  induction answers with
  | nil => rfl
  | cons answer answers ih => exact ih

theorem Lease.foldl_requesting {offer : dhcp.DHCPBinding} {answers : List Answer}
    (h : ∀ answer ∈ answers, answer.acknowledges offer = none) :
    answers.foldl Lease.next (.requesting offer) = .requesting offer := by
  induction answers with
  | nil => rfl
  | cons answer answers ih =>
    obtain ⟨hanswer, hrest⟩ := List.forall_mem_cons.mp h
    rw [List.foldl_cons, next, hanswer]
    exact ih hrest

theorem Lease.foldl_selecting {answers : List Answer} (h : ∀ answer ∈ answers, answer.offer = none) :
    answers.foldl Lease.next .selecting = .selecting := by
  induction answers with
  | nil => rfl
  | cons answer answers ih =>
    obtain ⟨hanswer, hrest⟩ := List.forall_mem_cons.mp h
    rw [List.foldl_cons, next, hanswer]
    exact ih hrest

/-- An exchange in which an offer is acknowledged completes, whatever comes before,
between and after. -/
theorem Lease.after_bound {before middle : List Answer} {offered acknowledged : Answer}
    {offer ack : dhcp.DHCPBinding} (hbefore : ∀ answer ∈ before, answer.offer = none)
    (hoffer : offered.offer = some offer) (hmiddle : ∀ answer ∈ middle, answer.acknowledges offer = none)
    (hack : acknowledged.acknowledges offer = some ack) (after : List Answer) :
    Lease.after (before ++ offered :: (middle ++ acknowledged :: after)) = .bound ack := by
  rw [Lease.after, List.foldl_append, foldl_selecting hbefore, List.foldl_cons, next, hoffer, Option.elim_some,
    List.foldl_append, foldl_requesting hmiddle, List.foldl_cons, next, hack, Option.elim_some, foldl_bound]

end protocol

variable {Error : Type}

/-- The DHCP message that a packet carries to a client. -/
def message? (p : Ipv4Packet) : Option (Slice UInt8) :=
  if ¬ (p.more_fragments ∨ p.frag_offset ≠ 0) ∧ p.protocol = .UDP then
    match UDPPacket.from_packet p with
    | ok (.ok datagram) =>
      if datagram.dest_port = dhcp.CLIENT_PORT ∧ datagram.source_port = dhcp.SERVER_PORT then some datagram.data
      else none
    | _ => none
  else none

/-- The DHCP message that a frame carries to a host without an address. -/
def reply? (mac : MacAddress) (packet : Slice UInt8) : Option (Slice UInt8) :=
  if packet.len < 14 then none
  else match EthernetFrame.new packet with
    | ok (.ok (.Ipv4 p)) =>
      if packet.val.take 6 = mac.addr.val ∨ packet.val.take 6 = MacAddress.broadcast.addr.val then message? p
      else none
    | _ => none

/-- A whole packet around a serialized datagram to a client carries its payload. -/
theorem message?_datagram {u : UDPPacket} {p : Ipv4Packet} (hmax : u.data.len ≤ MAX_UDP_PAYLOAD)
    (hdest : u.dest_port = dhcp.CLIENT_PORT) (hsource : u.source_port = dhcp.SERVER_PORT)
    (hmin : 28 ≤ p.total_length.toNat)
    (hdata : p.data.val = u.datagramBytes u.wireLen (wireChecksum (u.datagramSum p.source p.dest)))
    (hmore : p.more_fragments = false) (hoffset : p.frag_offset = 0) (hprotocol : p.protocol = .UDP) :
    message? p = some u.data := by
  have hwhole : ¬ (p.more_fragments ∨ p.frag_offset ≠ 0) := by simp [hmore, hoffset]
  rw [message?, if_pos ⟨hwhole, hprotocol⟩, UDPPacket.from_packet_serialize_ipv4 hmax hmin hdata]
  exact if_pos ⟨hdest, hsource⟩

/-- A frame around a serialized packet carries what the packet carries. -/
theorem reply?_wireFrame {mac src : MacAddress} {p : Ipv4Packet} (hp : p.WellFormed) {packet : Slice UInt8}
    (hpacket : packet.val = wireFrame src mac .IPV4 (p.headerBytes p.headerChecksum ++ p.data.val)) :
    reply? mac packet = message? { p with checksum := p.headerChecksum } := by
  have hlen : ¬ packet.len < 14 := by
    have := (wireFrame_fields hpacket).1
    omega
  have hours : packet.val.take 6 = mac.addr.val := by rw [hpacket, take_six_wireFrame]
  rw [reply?, if_neg hlen, new_wireFrame hp hpacket]
  exact if_pos (Or.inl hours)

/-- Every message that fits in a packet has a frame that carries it. -/
theorem exists_reply (mac : MacAddress) {data : Slice UInt8} (hlen : data.len ≤ 65507) :
    ∃ packet, reply? mac packet = some data := by
  obtain ⟨u, _, hsource, hdest, rfl⟩ := UDPPacket.new_eq dhcp.SERVER_PORT dhcp.CLIENT_PORT
    (show data.len ≤ MAX_UDP_PAYLOAD by simp only [MAX_UDP_PAYLOAD]; omega)
  have hmax : u.data.len ≤ MAX_UDP_PAYLOAD := by simp only [MAX_UDP_PAYLOAD]; omega
  obtain ⟨datagram, _, hdatagram, hdatagramLen⟩ := u.serialize_ipv4_eq .UNSPECIFIED .BROADCAST hmax
  have hshort : datagram.len ≤ 65515 := by omega
  have hpkt := Ipv4Packet.ofData_wellFormed hshort .UNSPECIFIED .BROADCAST 0 (show IPProtocol.UDP = _ from rfl)
  have htotal := Ipv4Packet.toNat_total_length_ofData hshort .UNSPECIFIED .BROADCAST 0 .UDP
  obtain ⟨packet, hpacket⟩ := exists_slice mac mac .IPV4 (length_wellFormed_le hpkt _)
  have hmin : 28 ≤ (Ipv4Packet.ofData datagram .UNSPECIFIED .BROADCAST 0 .UDP).total_length.toNat := by omega
  exact ⟨packet, (reply?_wireFrame hpkt hpacket).trans
    (message?_datagram hmax hdest hsource hmin hdatagram rfl rfl rfl)⟩

/-- What a client makes of a message, with the random draw that a request needs. -/
def read (mac : MacAddress) (xid : UInt32) (id : Except Error UInt16) (data : Slice UInt8) : Answer where
  offer := match id, dhcp.DHCPBinding.from_offer data xid mac with
    | .ok _, ok (.ok offer) => some offer
    | _, _ => none
  ack := match dhcp.DHCPBinding.from_ack data xid mac with
    | ok (.ok ack) => some ack
    | _ => none

/-- What a client makes of a frame. -/
def answer (mac : MacAddress) (xid : UInt32) (call : Except Error UInt16 × Slice UInt8) : Answer :=
  (reply? mac call.2).elim .none (read mac xid call.1)

/-- The interface is at this point of the exchange. -/
def NetworkInterface.At (self : NetworkInterface) (xid : UInt32) : Lease → Prop
  | .selecting => self.config = (none, none, none) ∧ self.dhcp = .Selecting xid
  | .requesting offer => self.config = (none, none, none) ∧ self.dhcp = .Requesting xid offer
  | .bound ack => self.config = (some ack.client_addr, some ack.subnet_mask, some ack.gateway) ∧
      self.dhcp = .Idle

namespace NetworkInterface

/-- What `handle_ipv4` does with a packet while this host has no address. -/
theorem handle_ipv4_unbound {self : NetworkInterface} (hipv4 : self.ipv4 = none)
    (hopen : self.dhcp.xid.isSome = true) (id : Except Error UInt16) {p : Ipv4Packet}
    (hlen : p.data.len ≤ 65515) :
    (∃ datagram, message? p = some datagram.data ∧ self.handle_ipv4 id p = self.handle_dhcp id datagram) ∨
      message? p = none ∧ self.handle_ipv4 id p = ok (self, []) := by
  have hours : self.for_us p = true := by simp [for_us, hipv4, hopen]
  unfold handle_ipv4 message?
  by_cases hfragment : p.more_fragments ∨ p.frag_offset ≠ 0
  · rw [if_pos hfragment, if_neg (fun h => h.1 hfragment)]
    exact Or.inr ⟨rfl, rfl⟩
  rw [if_neg hfragment, if_neg (not_not.mpr hours)]
  cases hprotocol : p.protocol with
  | ICMP =>
    rcases self.handle_icmp_eq hlen with ⟨_, src, _, hsrc, _⟩ | ⟨_, heq⟩
    · cases hipv4.symm.trans hsrc
    · exact Or.inr ⟨if_neg (by simp), heq⟩
  | TCP => exact Or.inr ⟨if_neg (by simp), rfl⟩
  | Unknown code => exact Or.inr ⟨if_neg (by simp), rfl⟩
  | UDP =>
    rw [if_pos ⟨hfragment, rfl⟩]
    rcases UDPPacket.from_packet_spec p with ⟨_, heq⟩ | ⟨_, e, heq⟩
    · simp only [heq, bind_tc_ok, handle_udp]
      split
      · exact Or.inl ⟨_, rfl, rfl⟩
      · exact Or.inr ⟨rfl, rfl⟩
    · rw [heq]
      exact Or.inr ⟨rfl, rfl⟩

/-- What `process_rx` does with a frame while this host has no address. -/
theorem process_rx_unbound {self : NetworkInterface} (hipv4 : self.ipv4 = none)
    (hopen : self.dhcp.xid.isSome = true) (id : Except Error UInt16) (packet : Slice UInt8) :
    (∃ datagram, reply? self.mac packet = some datagram.data ∧
        self.process_rx id packet = self.handle_dhcp id datagram) ∨
      reply? self.mac packet = none ∧
        (self.process_rx id packet = ok (self, []) ∨ ∃ p, self.process_rx id packet = self.handle_arp p) := by
  by_cases hlen : packet.len < 14
  · refine Or.inr ⟨if_pos hlen, Or.inl ?_⟩
    rw [process_rx, if_pos hlen]
    rfl
  obtain ⟨addr, _, haddr⟩ := Slice.try_into_sub (s := packet) (i := 0) (j := 6) (n := 6) rfl (by omega)
  obtain ⟨result, hresult, hparsed⟩ := EthernetFrame.new_spec packet
  cases result with
  | error e => exact Or.inr ⟨by rw [reply?, if_neg hlen, hresult], Or.inl (self.process_rx_malformed id hresult)⟩
  | ok frame =>
    have hdst : packet.val.take 6 = (MacAddress.new addr).addr.val := haddr.symm
    have hdst_iff : ∀ mac : MacAddress, packet.val.take 6 = mac.addr.val ↔ MacAddress.new addr = mac := by
      intro mac
      rw [hdst]
      exact ⟨MacAddress.ext_val, fun heq => by rw [heq]⟩
    rw [self.process_rx_eq id (by omega) hdst hresult, reply?, if_neg hlen, hresult]
    by_cases hours : MacAddress.new addr = self.mac ∨ MacAddress.new addr = MacAddress.broadcast
    swap
    · refine Or.inr ⟨?_, Or.inl (self.handle_packet_other id frame (fun h => hours (Or.inl h))
        fun h => hours (Or.inr h))⟩
      cases frame with
      | Ipv4 p =>
        refine if_neg fun h => hours ?_
        rwa [hdst_iff, hdst_iff] at h
      | _ => rfl
    rw [self.handle_packet_eq id frame hours]
    cases frame with
    | Arp p => exact Or.inr ⟨rfl, Or.inr ⟨p, rfl⟩⟩
    | Unknown ethertype items => exact Or.inr ⟨rfl, Or.inl rfl⟩
    | Ipv4 p =>
      have hshort : p.data.len ≤ 65515 := by
        obtain ⟨s, hparse⟩ := hparsed p rfl
        exact (Ipv4Packet.wellFormed_of_from_packet hparse).data_len_le
      have htaken : packet.val.take 6 = self.mac.addr.val ∨
          packet.val.take 6 = MacAddress.broadcast.addr.val := by
        rwa [hdst_iff, hdst_iff]
      simp only [if_pos htaken]
      exact (self.handle_ipv4_unbound hipv4 hopen id hshort).imp_right fun h => ⟨h.1, Or.inl h.2⟩

/-- The exchange advances by what `handle_dhcp` makes of a message. -/
theorem handle_dhcp_at {self : NetworkInterface} {xid : UInt32} {lease : Lease} (h : self.At xid lease)
    (id : Except Error UInt16) (packet : UDPPacket) :
    ∃ after sent, self.handle_dhcp id packet = ok (after, sent) ∧ after.mac = self.mac ∧
      after.At xid (lease.next (read self.mac xid id packet.data)) := by
  unfold handle_dhcp
  cases lease with
  | bound ack =>
    simp only [h.2]
    exact ⟨_, _, rfl, rfl, h⟩
  | selecting =>
    obtain ⟨reply, hreply, _⟩ := dhcp.DHCPBinding.from_message_spec packet.data xid self.mac .Offer
    have hoffer : dhcp.DHCPBinding.from_offer packet.data xid self.mac = ok reply := hreply
    simp only [h.2, hoffer, bind_tc_ok, read, Lease.next]
    cases reply with
    | error e => cases id <;> exact ⟨_, _, rfl, rfl, h⟩
    | ok offer =>
      obtain ⟨request, hrequest, hval⟩ := dhcp.build_request_eq self.mac xid offer
      have hlen : request.len = 300 := by
        rw [Slice.len, hval, dhcp.length_messageBytes _ _ (by rw [dhcp.length_requestOptions]; omega)]
      simp only [read_reply, hrequest, bind_tc_ok]
      cases id with
      | error e => exact ⟨_, _, rfl, rfl, h⟩
      | ok id =>
        obtain ⟨frame, hsend, _⟩ := @send_dhcp_ok Error self id _ hlen
        simp only [hsend, bind_tc_ok]
        exact ⟨_, _, rfl, rfl, h.1, rfl⟩
  | requesting offer =>
    obtain ⟨reply, hreply, _⟩ := dhcp.DHCPBinding.from_message_spec packet.data xid self.mac .Ack
    have hack : dhcp.DHCPBinding.from_ack packet.data xid self.mac = ok reply := hreply
    simp only [h.2, hack, bind_tc_ok, read, Lease.next, Answer.acknowledges]
    cases reply with
    | error e => exact ⟨_, _, rfl, rfl, h⟩
    | ok ack =>
      by_cases hserver : ack.server_id = offer.server_id
      · simp only [read_reply, ne_eq, hserver, not_true, if_false, Option.filter_some, decide_true, if_true]
        exact ⟨_, _, rfl, rfl, rfl, rfl⟩
      · simp only [read_reply, ne_eq, hserver, not_false_eq_true, if_true, Option.filter_some, decide_false,
          Bool.false_eq_true, if_false]
        exact ⟨_, _, rfl, rfl, h⟩

/-- Learning an address leaves the exchange where it is. -/
theorem handle_arp_at {self : NetworkInterface} {xid : UInt32} {lease : Lease} (h : self.At xid lease)
    (p : arp.ArpPacket) :
    ∃ after sent, self.handle_arp p = ok (after, sent) ∧ after.mac = self.mac ∧ after.At xid lease := by
  refine ⟨_, _, self.handle_arp_eq p, ?_⟩
  unfold learned
  split
  · exact ⟨rfl, by cases lease <;> exact h⟩
  · exact ⟨rfl, h⟩

/-- Once the exchange is complete, no frame reopens it or changes the lease. -/
theorem process_rx_bound {self : NetworkInterface} {xid : UInt32} {ack : dhcp.DHCPBinding}
    (h : self.At xid (.bound ack)) (id : Except Error UInt16) (packet : Slice UInt8) :
    ∃ after sent, self.process_rx id packet = ok (after, sent) ∧ after.mac = self.mac ∧
      after.At xid (.bound ack) := by
  obtain ⟨after, sent, heq, houtcome⟩ := self.process_rx_spec id packet
  refine ⟨after, sent, heq, ?_⟩
  cases houtcome with
  | ignored => exact ⟨rfl, h⟩
  | arp p =>
    unfold learned
    split
    · exact ⟨rfl, h⟩
    · exact ⟨rfl, h⟩
  | @echo ip hop _ _ _ frame _ _ =>
    unfold submit
    split
    · exact ⟨rfl, h⟩
    · exact ⟨rfl, h⟩
  | dhcp _ hdhcp =>
    cases hdhcp with
    | ignored => exact ⟨rfl, h⟩
    | requested hselecting => cases h.2.symm.trans hselecting
    | committed hrequesting => cases h.2.symm.trans hrequesting

/-- Every received frame advances the exchange by what a client makes of it. -/
theorem process_rx_at {self : NetworkInterface} {xid : UInt32} {lease : Lease} (h : self.At xid lease)
    (call : Except Error UInt16 × Slice UInt8) :
    ∃ after sent, self.process_rx call.1 call.2 = ok (after, sent) ∧ after.mac = self.mac ∧
      after.At xid (lease.next (answer self.mac xid call)) := by
  by_cases hopen : self.ipv4 = none ∧ self.dhcp.xid.isSome = true
  · unfold answer
    rcases process_rx_unbound hopen.1 hopen.2 call.1 call.2 with ⟨datagram, hreply, heq⟩ | ⟨hreply, heq⟩
    · rw [hreply, heq]
      exact handle_dhcp_at h call.1 datagram
    · rw [hreply, Option.elim_none, Lease.next_none]
      rcases heq with heq | ⟨p, heq⟩
      · exact ⟨self, [], heq, rfl, h⟩
      · rw [heq]
        exact handle_arp_at h p
  · cases lease with
    | bound ack => exact process_rx_bound h call.1 call.2
    | selecting => exact absurd ⟨congrArg Prod.fst h.1, by rw [h.2]; rfl⟩ hopen
    | requesting offer => exact absurd ⟨congrArg Prod.fst h.1, by rw [h.2]; rfl⟩ hopen

end NetworkInterface

open conc_os.task.network

theorem process_all_at {self : NetworkInterface} {xid : UInt32} {lease : Lease} (h : self.At xid lease)
    (calls : List (Except Error UInt16 × Slice UInt8)) :
    ∃ final, process_all self calls = ok final ∧
      final.At xid ((calls.map (answer self.mac xid)).foldl Lease.next lease) := by
  induction calls generalizing self lease with
  | nil => exact ⟨self, rfl, h⟩
  | cons call calls ih =>
    obtain ⟨after, sent, heq, hmac, hafter⟩ := NetworkInterface.process_rx_at h call
    obtain ⟨final, hfinal, hat⟩ := ih hafter
    refine ⟨final, ?_, ?_⟩
    · rw [process_all, List.foldlM_cons, heq]
      exact hfinal
    · rw [hmac] at hat
      exact hat

/-- Started with this draw, the interface is at the beginning of the exchange. -/
theorem init_network_interface_at {mac : MacAddress} {xid : UInt32} {id : Except Error UInt16}
    {start : NetworkInterface} {sent : List Frame}
    (hinit : init_network_interface mac (.ok xid) id = ok (start, sent)) :
    start.mac = mac ∧ start.At xid .selecting := by
  obtain ⟨result, after, frames, heq, houtcome, _⟩ := (NetworkInterface.initial mac).init_dhcp_spec (.ok xid) id
  rw [init_network_interface, heq, bind_tc_ok] at hinit
  cases result with
  | error e => cases hinit
  | ok _ =>
    cases hinit
    cases houtcome with
    | opened hdraw =>
      cases hdraw
      exact ⟨rfl, rfl, rfl⟩

/-- Whatever entropy the machine has and whatever was drawn before, the draws of
`init_dhcp` succeed and the network task starts its exchange. -/
theorem dhcp_starts (Rng : Type) [rng.ChaCha20 Rng] (platform : rng.Platform) (devices : pci.Devices)
    (requests : List (rng.Entropy.Request Error)) (mac : MacAddress) :
    ∃ answers entropy xid drawn id rest start sent,
      execute (rng.Entropy.perform platform) (.boot devices : rng.Entropy Rng) requests = ok (answers, entropy) ∧
      entropy.from_rand platform UInt32 = ok ((.ok xid : Except Error UInt32), drawn) ∧
      drawn.from_rand platform UInt16 = ok ((.ok id : Except Error UInt16), rest) ∧
      init_network_interface mac (.ok xid : Except Error UInt32) (.ok id) = ok (start, sent) ∧
      start.At xid .selecting := by
  obtain ⟨answers, entropy, hrun, hkept⟩ := rng.Entropy.execute_kept Rng platform devices requests
  obtain ⟨xid, drawn, _, _, hxid, hdrawn⟩ := hkept.from_rand UInt32
  obtain ⟨id, rest, _, _, hid, _⟩ := hdrawn.from_rand UInt16
  obtain ⟨start, sent, hinit⟩ := @init_network_interface_returns Error mac xid id
  exact ⟨answers, entropy, xid, drawn, id, rest, start, sent, hrun, hxid, hid, hinit,
    (init_network_interface_at hinit).2⟩

/-- The client refines the exchange: from the discover on, every sequence of received
frames is processed, and takes the interface to where the messages in them take the
exchange. So a host whose first usable offer is acknowledged by its server ends up with
the lease of the first such acknowledgement, whatever else is received before, between
and after. -/
theorem dhcp_client {mac : MacAddress} {xid : UInt32} {id : Except Error UInt16} {start : NetworkInterface}
    {sent : List Frame} (hinit : init_network_interface mac (.ok xid) id = ok (start, sent)) :
    (∀ calls : List (Except Error UInt16 × Slice UInt8), ∃ final, process_all start calls = ok final ∧
      final.At xid (Lease.after (calls.map (answer mac xid)))) ∧
    ∀ (before middle after : List (Except Error UInt16 × Slice UInt8))
      (offered acknowledged : Except Error UInt16 × Slice UInt8) (offer ack : dhcp.DHCPBinding),
      (∀ call ∈ before, (answer mac xid call).offer = none) → (answer mac xid offered).offer = some offer →
      (∀ call ∈ middle, (answer mac xid call).acknowledges offer = none) →
      (answer mac xid acknowledged).acknowledges offer = some ack →
      ∃ final, process_all start (before ++ offered :: (middle ++ acknowledged :: after)) = ok final ∧
        final.config = (some ack.client_addr, some ack.subnet_mask, some ack.gateway) ∧ final.dhcp = .Idle := by
  obtain ⟨rfl, hstart⟩ := init_network_interface_at hinit
  refine ⟨process_all_at hstart, ?_⟩
  intro before middle after offered acknowledged offer ack hbefore hoffer hmiddle hack
  obtain ⟨final, hfinal, hat⟩ := process_all_at hstart (before ++ offered :: (middle ++ acknowledged :: after))
  have hbound := Lease.after_bound (List.forall_mem_map.mpr hbefore) hoffer (List.forall_mem_map.mpr hmiddle) hack
    (after.map (answer start.mac xid))
  rw [← List.map_cons, ← List.map_append, ← List.map_cons, ← List.map_append] at hbound
  rw [← Lease.after, hbound] at hat
  exact ⟨final, hfinal, hat.1, hat.2⟩

/-- A lease of 10.0.2.15, by its gateway. -/
def granted : dhcp.DHCPBinding :=
  ⟨Ipv4Addr.new 10 0 2 15, Ipv4Addr.new 255 255 255 0, Ipv4Addr.new 10 0 2 2, Ipv4Addr.new 10 0 2 2⟩

/-- The options of a reply of this type with that lease. -/
def grantItems (kind : UInt8) : List dhcp.Item :=
  [.option 53 [kind], .option 1 [255, 255, 255, 0], .option 3 [10, 0, 2, 2], .option 54 [10, 0, 2, 2]]

/-- The bytes of that reply, to the host with the broadcast address under exchange 7. -/
def grantBytes (kind : UInt8) : List UInt8 :=
  [2, 1, 6, 0] ++ U32.to_be_bytes 7 ++ List.replicate 8 0 ++ [10, 0, 2, 15] ++ List.replicate 8 0 ++
    MacAddress.broadcast.addr.val ++ List.replicate 202 0 ++ dhcp.MAGIC_COOKIE ++ dhcp.encode (grantItems kind) ++
    [dhcp.OPT_END]

theorem length_grantBytes (kind : UInt8) : (grantBytes kind).length = 262 := by
  have hitems : (dhcp.encode (grantItems kind)).length = 21 := rfl
  simp only [grantBytes, List.length_append, List.length_replicate, U32.length_to_be_bytes,
    MacAddress.length_addr, hitems]
  rfl

def grant (kind : UInt8) : Slice UInt8 := ⟨grantBytes kind, by rw [length_grantBytes]; decide⟩

theorem grant_fits (kind : UInt8) : (grant kind).len ≤ 65507 := by
  rw [Slice.len, grant, length_grantBytes]
  decide

theorem grant_reply {kind : UInt8} (hmin : 1 ≤ kind) (hmax : kind ≤ 8) :
    dhcp.Reply (grant kind) 7 MacAddress.broadcast kind (grantItems kind) [] where
  length := by rw [Slice.len, grant, length_grantBytes]; decide
  header := rfl
  cookie := rfl
  exchange := rfl
  client := rfl
  options := ⟨rfl, by
    intro item hitem
    simp only [grantItems, List.mem_cons, List.not_mem_nil, or_false] at hitem
    rcases hitem with rfl | rfl | rfl | rfl
    · exact ⟨by decide, by decide, show 1 < 256 by decide, fun h => absurd h (by decide),
        fun h => absurd h (by decide), fun _ => ⟨kind, rfl, hmin, hmax⟩⟩
    all_goals exact ⟨by decide, by decide, by decide, by decide, by decide, fun h => absurd h (by decide)⟩⟩
  message_type := rfl
  subnet_mask := ⟨_, by simp [grantItems]; rfl⟩
  router := ⟨_, by simp [grantItems]; rfl⟩
  server_id := ⟨_, by simp [grantItems]; rfl⟩
  address := show ([10, 0, 2, 15] : List UInt8) ≠ [0, 0, 0, 0] by decide

theorem from_message_grant {kind : dhcp.DHCPMessageType} (hmin : 1 ≤ kind.as_u8) (hmax : kind.as_u8 ≤ 8) :
    dhcp.DHCPBinding.from_message (grant kind.as_u8) 7 MacAddress.broadcast kind = ok (.ok granted) :=
  dhcp.DHCPBinding.from_message_eq_ok_iff.mpr
    ⟨grantItems kind.as_u8, [], grant_reply hmin hmax, rfl, rfl, rfl, rfl⟩

theorem dhcp_client_leased :
    ∃ (start final : NetworkInterface) (sent : List Frame) (offered acked : Slice UInt8),
      init_network_interface MacAddress.broadcast (.ok 7 : Except Unit UInt32) (.ok 1) = ok (start, sent) ∧
      process_all start [((.ok 2 : Except Unit UInt16), offered), (.ok 3, acked)] = ok final ∧
      final.ipv4 = some (Ipv4Addr.new 10 0 2 15) := by
  obtain ⟨start, sent, hinit⟩ := @init_network_interface_returns Unit MacAddress.broadcast 7 1
  obtain ⟨offered, hoffered⟩ := exists_reply MacAddress.broadcast (grant_fits 2)
  obtain ⟨acked, hacked⟩ := exists_reply MacAddress.broadcast (grant_fits 5)
  have hoffer : dhcp.DHCPBinding.from_offer (grant 2) 7 MacAddress.broadcast = ok (.ok granted) :=
    @from_message_grant .Offer (by decide) (by decide)
  have hack : dhcp.DHCPBinding.from_ack (grant 5) 7 MacAddress.broadcast = ok (.ok granted) :=
    @from_message_grant .Ack (by decide) (by decide)
  obtain ⟨final, hfinal, hconfig, _⟩ := (dhcp_client hinit).2 [] [] [] (.ok 2, offered) (.ok 3, acked)
    granted granted (by simp) (by simp only [answer, hoffered, Option.elim_some, read, hoffer]) (by simp)
    (by simp only [answer, hacked, Option.elim_some, read, hack, Answer.acknowledges]; rfl)
  exact ⟨start, final, sent, offered, acked, hinit, hfinal, congrArg Prod.fst hconfig⟩

end conc_os.network.handler
