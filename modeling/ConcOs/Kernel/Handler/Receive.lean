import ConcOs.Kernel.Handler.Icmp
import ConcOs.Kernel.Handler.Wire
import ConcOs.Net.Dhcp.Build

open rust Result ones_complement
open conc_os_net
open conc_os_net.arp conc_os_net.ethernet conc_os_net.ipv4 conc_os_net.udp

namespace conc_os.network.handler

/-- The received frame `packet` carries the datagram of a DHCP server to a
client. -/
structure Delivers (packet : Slice UInt8) (datagram : UDPPacket) : Prop where
  decodes : ∃ ip, EthernetFrame.new packet = ok (.ok (.Ipv4 ip)) ∧ UDPPacket.from_packet ip = ok (.ok datagram)
  source_port : datagram.source_port = 67
  dest_port : datagram.dest_port = 68

/-- The frame `frame` is the broadcast of the DHCP message `msg` by the host
with address `mac`, behind its IPv4 and UDP headers. -/
def Broadcasts (mac : MacAddress) (frame : Frame) (msg : List UInt8) : Prop :=
  ∃ headers : List UInt8, headers.length = 28 ∧ headers[9]? = some 17 ∧
    frame = wireFrame mac MacAddress.broadcast .IPV4 (headers ++ msg)

/-- The Ethernet broadcast `frame` decodes to a datagram with payload `msg` from
port 68 of the unspecified address to port 67 of the broadcast address. -/
structure Announces (frame : Frame) (msg : Slice UInt8) : Prop where
  broadcast : frame.take 6 = MacAddress.broadcast.addr.val
  decodes : ∃ s q v, Slice.val s = frame ∧ EthernetFrame.new s = ok (.ok (.Ipv4 q)) ∧ q.protocol = .UDP ∧
    q.source = Ipv4Addr.new 0 0 0 0 ∧ q.dest = Ipv4Addr.new 255 255 255 255 ∧
    UDPPacket.from_packet q = ok (.ok v) ∧ v.source_port = 68 ∧ v.dest_port = 67 ∧ v.data = msg

/-- The frame carries a message that the host with address `mac` builds. -/
def Announcement (mac : MacAddress) (frame : Frame) : Prop :=
  ∃ msg, Announces frame msg ∧ ((∃ xid, dhcp.build_discover mac xid = ok msg) ∨
    ∃ xid offer, dhcp.build_request mac xid offer = ok msg)

/-- What `init_dhcp` may do with the random draw for the exchange id. -/
inductive InitOutcome {Error : Type} (self : NetworkInterface) (draw : Except Error UInt32) :
    Bool → NetworkInterface → List Frame → Prop where
  | refused : InitOutcome self draw false self []
  | opened {xid : UInt32} {discover : Vec UInt8} {frame : Frame} (hdraw : draw = .ok xid)
      (hidle : self.dhcp = .Idle) (hdiscover : dhcp.build_discover self.mac xid = ok discover)
      (hframe : Broadcasts self.mac frame discover.val) :
      InitOutcome self draw true { self with dhcp := .Selecting xid } [frame]

/-- What `handle_dhcp` may do with the payload of a datagram. -/
inductive DhcpOutcome (self : NetworkInterface) (data : Slice UInt8) :
    NetworkInterface → List Frame → Prop where
  | ignored : DhcpOutcome self data self []
  | requested {xid : UInt32} {offer : dhcp.DHCPBinding} {request : Vec UInt8} {frame : Frame}
      (hselecting : self.dhcp = .Selecting xid)
      (hoffer : dhcp.DHCPBinding.from_offer data xid self.mac = ok (.ok offer))
      (hrequest : dhcp.build_request self.mac xid offer = ok request)
      (hframe : Broadcasts self.mac frame request.val) :
      DhcpOutcome self data { self with dhcp := .Requesting xid offer } [frame]
  | committed {xid : UInt32} {offer ack : dhcp.DHCPBinding} (hrequesting : self.dhcp = .Requesting xid offer)
      (hack : dhcp.DHCPBinding.from_ack data xid self.mac = ok (.ok ack))
      (hserver : ack.server_id = offer.server_id) :
      DhcpOutcome self data { self with
        ipv4 := some ack.client_addr
        subnet_mask := some ack.subnet_mask
        gateway := some ack.gateway
        dhcp := .Idle } []

/-- What `process_rx` may do with a frame. -/
inductive RxOutcome (self : NetworkInterface) (packet : Slice UInt8) :
    NetworkInterface → List Frame → Prop where
  | ignored : RxOutcome self packet self []
  | arp (p : ArpPacket) :
      RxOutcome self packet (self.learned p).1 ((self.learned p).2 ++ self.arpReplies p)
  | echo {ip hop dst : Ipv4Addr} {id : UInt16} {data : Slice UInt8} {frame : Vec UInt8}
      (hip : self.ipv4 = some ip) (hframe : frame.val =
        (Ipv4Packet.ofData data ip dst id .ICMP).headerBytes
          (Ipv4Packet.ofData data ip dst id .ICMP).headerChecksum ++
          data.val) :
      RxOutcome self packet (self.submit ip hop frame).1 (self.submit ip hop frame).2
  | dhcp {datagram : UDPPacket} {after : NetworkInterface} {sent : List Frame}
      (hdelivers : Delivers packet datagram) (houtcome : DhcpOutcome self datagram.data after sent) :
      RxOutcome self packet after sent

namespace NetworkInterface

variable {Error : Type}

/-- `send_dhcp` broadcasts a message of the length the client builds. -/
theorem send_dhcp_ok (self : NetworkInterface) (id : UInt16) {msg : Slice UInt8} (h : msg.len = 300) :
    ∃ frame, self.send_dhcp (.ok id : Except Error UInt16) msg = ok (.ok frame) ∧
      Broadcasts self.mac frame msg.val ∧ Announces frame msg := by
  obtain ⟨u, datagram, pkt, bytes, hnew, hserialize, hpkt, hbytes, ⟨headers, hheaders, hproto, hval⟩,
    hdecodes⟩ := encode_udp Ipv4Addr.UNSPECIFIED Ipv4Addr.BROADCAST dhcp.CLIENT_PORT dhcp.SERVER_PORT id
      (show msg.len ≤ 65507 by omega)
  have hlen : bytes.val.length = 328 := by rw [hval, List.length_append, hheaders, Slice.length_val, h]
  have hframe := length_wireFrame self.mac MacAddress.broadcast .IPV4 bytes.val
  have hmem : 342 ≤ isizeMax := by decide
  obtain ⟨q, v, hprotocol, hq, hsource, hdest, _, hv, hports⟩ := hdecodes self.mac MacAddress.broadcast
    ⟨wireFrame self.mac MacAddress.broadcast .IPV4 bytes.val, by omega⟩ rfl
  refine ⟨wireFrame self.mac MacAddress.broadcast .IPV4 bytes.val, ?_, ?_, ?_⟩
  · simp only [send_dhcp, hnew, bind_tc_ok, hserialize, hpkt, hbytes, send_frame_eq, pure_eq_ok]
  · exact ⟨headers, hheaders, hproto, by rw [hval]⟩
  · exact ⟨take_six_wireFrame .., _, q, v, rfl, hq, hprotocol, hsource, hdest, hv, hports.1, hports.2.1,
      hports.2.2.1⟩

/-- The result of `send_dhcp` on a message of the length the client builds:
without a random draw nothing is sent, and with one the message is broadcast. -/
theorem send_dhcp_cases (self : NetworkInterface) (id : Except Error UInt16) {msg : Slice UInt8}
    (h : msg.len = 300) :
    (∃ e, self.send_dhcp id msg = ok (.error e)) ∨
      ∃ frame, self.send_dhcp id msg = ok (.ok frame) ∧ Broadcasts self.mac frame msg.val ∧
        Announces frame msg := by
  cases id with
  | error e => exact Or.inl ⟨_, rfl⟩
  | ok id => exact Or.inr (self.send_dhcp_ok id h)

theorem init_dhcp_spec (self : NetworkInterface) (xid : Except Error UInt32) (id : Except Error UInt16) :
    ∃ result after sent, self.init_dhcp xid id = ok (result, after, sent) ∧
      InitOutcome self xid result.isOk after sent ∧ ∀ frame ∈ sent, Announcement self.mac frame := by
  unfold init_dhcp
  by_cases hidle : self.dhcp = .Idle
  swap
  · exact ⟨_, _, _, if_pos hidle, .refused, by simp⟩
  rw [if_neg (not_not.mpr hidle)]
  cases xid with
  | error e => exact ⟨_, _, _, rfl, .refused, by simp⟩
  | ok xid =>
    obtain ⟨discover, hdiscover, hval⟩ := dhcp.build_discover_eq self.mac xid
    have hlen : discover.len = 300 := by
      rw [Slice.len, hval, dhcp.length_messageBytes _ _ (by decide)]
    rcases self.send_dhcp_cases id hlen with ⟨e, hsend⟩ | ⟨frame, hsend, hframe, hannounces⟩
    · exact ⟨_, _, _, by simp only [hdiscover, bind_tc_ok, hsend]; rfl, .refused, by simp⟩
    · refine ⟨.ok (), _, [frame], by simp only [hdiscover, bind_tc_ok, hsend]; rfl,
        .opened rfl hidle hdiscover hframe, fun sent hsent => ?_⟩
      rw [List.mem_singleton.mp hsent]
      exact ⟨discover, hannounces, Or.inl ⟨xid, hdiscover⟩⟩

theorem handle_dhcp_spec (self : NetworkInterface) (id : Except Error UInt16) (packet : UDPPacket) :
    ∃ after sent, self.handle_dhcp id packet = ok (after, sent) ∧ DhcpOutcome self packet.data after sent ∧
      ∀ frame ∈ sent, Announcement self.mac frame := by
  unfold handle_dhcp
  cases hstate : self.dhcp with
  | Idle => exact ⟨_, _, rfl, .ignored, by simp⟩
  | Selecting xid =>
    obtain ⟨reply, hreply, _⟩ := dhcp.DHCPBinding.from_message_spec packet.data xid self.mac .Offer
    have hoffer : dhcp.DHCPBinding.from_offer packet.data xid self.mac = ok reply := hreply
    cases reply with
    | error e => exact ⟨_, _, by simp only [hoffer, bind_tc_ok, read_reply]; rfl, .ignored, by simp⟩
    | ok offer =>
      obtain ⟨request, hrequest, hval⟩ := dhcp.build_request_eq self.mac xid offer
      have hlen : request.len = 300 := by
        rw [Slice.len, hval, dhcp.length_messageBytes _ _ (by rw [dhcp.length_requestOptions]; omega)]
      rcases self.send_dhcp_cases id hlen with ⟨e, hsend⟩ | ⟨frame, hsend, hframe, hannounces⟩
      · exact ⟨_, _, by simp only [hoffer, bind_tc_ok, read_reply, hrequest, hsend]; rfl, .ignored, by simp⟩
      · refine ⟨_, [frame], by simp only [hoffer, bind_tc_ok, read_reply, hrequest, hsend]; rfl,
          .requested hstate hoffer hrequest hframe, fun sent hsent => ?_⟩
        rw [List.mem_singleton.mp hsent]
        exact ⟨request, hannounces, Or.inr ⟨xid, offer, hrequest⟩⟩
  | Requesting xid offer =>
    obtain ⟨reply, hreply, _⟩ := dhcp.DHCPBinding.from_message_spec packet.data xid self.mac .Ack
    have hack : dhcp.DHCPBinding.from_ack packet.data xid self.mac = ok reply := hreply
    cases reply with
    | error e => exact ⟨_, _, by simp only [hack, bind_tc_ok, read_reply]; rfl, .ignored, by simp⟩
    | ok ack =>
      by_cases hserver : ack.server_id = offer.server_id
      · exact ⟨_, _, by simp only [hack, bind_tc_ok, read_reply, ne_eq, hserver, not_true, if_false]; rfl,
          .committed hstate hack hserver, by simp⟩
      · refine ⟨self, [], ?_, .ignored, by simp⟩
        simp only [hack, bind_tc_ok, read_reply, ne_eq, hserver, not_false_eq_true, if_true]
        rfl

/-- Which handler `process_rx` hands a frame to. -/
inductive RxCall (self : NetworkInterface) (id : Except Error UInt16) (packet : Slice UInt8) :
    Result (NetworkInterface × List Frame) → Prop where
  | ignored : RxCall self id packet (ok (self, []))
  | arp {p : ArpPacket} (hdecodes : EthernetFrame.new packet = ok (.ok (.Arp p))) :
      RxCall self id packet (self.handle_arp p)
  | icmp {p : Ipv4Packet} (hdecodes : EthernetFrame.new packet = ok (.ok (.Ipv4 p)))
      (hlen : p.data.len ≤ 65515) : RxCall self id packet (self.handle_icmp p)
  | dhcp {datagram : UDPPacket} (hdelivers : Delivers packet datagram) :
      RxCall self id packet (self.handle_dhcp id datagram)

theorem handle_ipv4_call (self : NetworkInterface) (id : Except Error UInt16) {packet : Slice UInt8}
    {p : Ipv4Packet} (hdecodes : EthernetFrame.new packet = ok (.ok (.Ipv4 p))) (hlen : p.data.len ≤ 65515) :
    RxCall self id packet (self.handle_ipv4 id p) := by
  unfold handle_ipv4
  split
  · exact .ignored
  split
  · exact .ignored
  split
  · exact .icmp hdecodes hlen
  · exact .ignored
  · rcases UDPPacket.from_packet_spec p with ⟨_, heq⟩ | ⟨_, e, heq⟩
    · rw [heq, bind_tc_ok]
      simp only [handle_udp]
      split
      · rename_i hports
        exact .dhcp ⟨⟨p, hdecodes, heq⟩, hports.2, hports.1⟩
      · exact .ignored
    · rw [heq]
      exact .ignored
  · exact .ignored

theorem process_rx_call (self : NetworkInterface) (id : Except Error UInt16) (packet : Slice UInt8) :
    RxCall self id packet (self.process_rx id packet) := by
  unfold process_rx
  by_cases hlen : packet.len < 14
  · rw [if_pos hlen]
    exact .ignored
  obtain ⟨dst, hdst, _⟩ := Slice.try_into_sub (s := packet) (i := 0) (j := 6) (n := 6) rfl (by omega)
  obtain ⟨src, hsrc, _⟩ := Slice.try_into_sub (s := packet) (i := 6) (j := 12) (n := 6) rfl (by omega)
  obtain ⟨result, hresult, hipv4⟩ := EthernetFrame.new_spec packet
  rw [if_neg hlen, Slice.range_eq (by omega) (by omega), bind_tc_ok, hdst, unwrap_some, bind_tc_ok,
    Slice.range_eq (by omega) (by omega), bind_tc_ok, hsrc, unwrap_some, bind_tc_ok,
    Slice.index_byte (by omega), bind_tc_ok, Slice.index_byte (by omega), bind_tc_ok, hresult, bind_tc_ok]
  cases result with
  | error e => exact .ignored
  | ok frame =>
    simp only [handle_packet]
    split
    · exact .ignored
    cases frame with
    | Arp p => exact .arp hresult
    | Unknown ethertype items => exact .ignored
    | Ipv4 p =>
      obtain ⟨s, hparse⟩ := hipv4 p rfl
      exact self.handle_ipv4_call id hresult (Ipv4Packet.wellFormed_of_from_packet hparse).data_len_le

/-- What `handle_icmp` submits is a well-formed packet of this host's. -/
theorem handle_icmp_spec (self : NetworkInterface) {p : Ipv4Packet} (hlen : p.data.len ≤ 65515) :
    self.handle_icmp p = ok (self, []) ∨ ∃ ip hop reply frame, self.ipv4 = some ip ∧
      (Ipv4Packet.ofData reply ip p.source p.id .ICMP).WellFormed ∧
      frame.val = (Ipv4Packet.ofData reply ip p.source p.id .ICMP).headerBytes
        (Ipv4Packet.ofData reply ip p.source p.id .ICMP).headerChecksum ++ reply.val ∧
      self.handle_icmp p = ok (self.submit ip hop frame) := by
  rcases self.handle_icmp_eq hlen with ⟨_, ip, reply, hip, hreply, hreplyLen, heq⟩ | ⟨_, heq⟩
  · have hwell := Ipv4Packet.ofData_wellFormed (show reply.len ≤ 65515 by omega) ip p.source p.id
      (show IPProtocol.ICMP = _ from rfl)
    rw [heq]
    rcases self.send_ipv4_wellFormed p.source hwell with hnone | ⟨ip', hop, frame, hip', _, hval, hsend⟩
    · exact Or.inl hnone
    · obtain rfl : ip = ip' := Option.some.inj (hip.symm.trans hip')
      exact Or.inr ⟨ip, hop, reply, frame, hip, hwell, hval, hsend⟩
  · exact Or.inl heq

/-- `process_rx` returns on every frame, whatever state the interface is in. -/
theorem process_rx_spec (self : NetworkInterface) (id : Except Error UInt16) (packet : Slice UInt8) :
    ∃ after sent, self.process_rx id packet = ok (after, sent) ∧ RxOutcome self packet after sent := by
  have hcall := self.process_rx_call id packet
  generalize self.process_rx id packet = result at hcall ⊢
  cases hcall with
  | ignored => exact ⟨_, _, rfl, .ignored⟩
  | arp => exact ⟨_, _, self.handle_arp_eq _, .arp _⟩
  | icmp hdecodes hlen =>
    rcases self.handle_icmp_spec hlen with heq | ⟨ip, hop, reply, frame, hip, _, hframe, heq⟩
    · exact ⟨_, _, heq, .ignored⟩
    · exact ⟨_, _, heq, .echo hip hframe⟩
  | @dhcp datagram hdelivers =>
    obtain ⟨after, sent, heq, houtcome, _⟩ := self.handle_dhcp_spec id datagram
    exact ⟨after, sent, heq, .dhcp hdelivers houtcome⟩

/-- No received frame makes the kernel panic: from any state of the interface,
reachable or not, and with any outcome of the random source, `process_rx`
returns on every byte string. -/
theorem process_rx_returns (self : NetworkInterface) (id : Except Error UInt16) (packet : Slice UInt8) :
    ∃ after sent, self.process_rx id packet = ok (after, sent) := by
  obtain ⟨after, sent, heq, _⟩ := self.process_rx_spec id packet
  exact ⟨after, sent, heq⟩

end NetworkInterface

end conc_os.network.handler
