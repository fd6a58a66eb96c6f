import ConcOs.Kernel.Handler.Effects
import ConcOs.Net.Ethernet.Parse

open rust Result ones_complement
open conc_os_net
open conc_os_net.arp conc_os_net.ethernet conc_os_net.ipv4 conc_os_net.udp

namespace conc_os.network.handler

theorem length_wireFrame (src dst : MacAddress) (ethertype : EtherType) (payload : List UInt8) :
    (wireFrame src dst ethertype payload).length = 14 + payload.length + (46 - payload.length) := by
  simp only [wireFrame, List.length_append, MacAddress.length_addr, U16.length_to_be_bytes,
    List.length_replicate]

/-- The header of a frame ends in its ethertype, and its payload follows. -/
theorem drop_wireFrame (src dst : MacAddress) (ethertype : EtherType) (payload : List UInt8) :
    (wireFrame src dst ethertype payload).drop 12 =
      U16.to_be_bytes ethertype.as_u16 ++ payload ++ List.replicate (46 - payload.length) 0 := by
  have hhead : (dst.addr.val ++ src.addr.val).length = 12 := by simp
  rw [wireFrame, List.append_assoc, List.append_assoc, List.drop_left' hhead, List.append_assoc]

theorem take_six_wireFrame (src dst : MacAddress) (ethertype : EtherType) (payload : List UInt8) :
    (wireFrame src dst ethertype payload).take 6 = dst.addr.val := by
  rw [wireFrame, List.append_assoc, List.append_assoc, List.append_assoc, List.take_left' dst.length_addr]

/-- What `EthernetFrame::new` finds in a frame: its ethertype, and its payload
with the padding. -/
theorem wireFrame_fields {src dst : MacAddress} {ethertype : EtherType} {payload : List UInt8} {s : Slice UInt8}
    (hs : s.val = wireFrame src dst ethertype payload) :
    14 ≤ s.len ∧ U16.from_be_bytes (s.byte 12) (s.byte 13) = ethertype.as_u16 ∧
      (s.sub 14 s.len).val = payload ++ List.replicate (46 - payload.length) 0 := by
  have hdrop := drop_wireFrame src dst ethertype payload
  rw [← hs] at hdrop
  have hlen : 14 ≤ s.len := by
    rw [Slice.len, hs, length_wireFrame]
    omega
  refine ⟨hlen, ?_, ?_⟩
  · rw [Slice.drop_eq_byte_cons (show 12 < s.len by omega),
      Slice.drop_eq_byte_cons (show 12 + 1 < s.len by omega)] at hdrop
    simp only [U16.to_be_bytes, List.cons_append, List.nil_append, List.cons.injEq] at hdrop
    rw [hdrop.1, hdrop.2.1, U16.from_be_bytes_to_be_bytes]
  · have hfourteen : s.val.drop 14 = (s.val.drop 12).drop 2 := by rw [List.drop_drop]
    rw [Slice.val_sub, ← Slice.length_val, ← List.length_drop, List.take_length, hfourteen, hdrop]
    rfl

/-- A frame around a serialized well-formed packet decodes to that packet,
whatever padding it got. -/
theorem new_wireFrame {src dst : MacAddress} {p : Ipv4Packet} (hp : p.WellFormed) {s : Slice UInt8}
    (hs : s.val = wireFrame src dst .IPV4 (p.headerBytes p.headerChecksum ++ p.data.val)) :
    EthernetFrame.new s = ok (.ok (.Ipv4 { p with checksum := p.headerChecksum })) := by
  obtain ⟨hlen, htype, hrest⟩ := wireFrame_fields hs
  rw [EthernetFrame.new_eq hlen, htype, if_neg (by decide), if_pos (by decide), hp.from_packet_eq _ hrest]
  rfl

/-- A frame around a serialized ARP packet decodes to that packet. -/
theorem new_wireFrame_arp {src dst : MacAddress} {p : ArpPacket} (hp : p.WellFormed) {s : Slice UInt8}
    (hs : s.val = wireFrame src dst .ARP p.serialize.val) : EthernetFrame.new s = ok (.ok (.Arp p)) := by
  obtain ⟨hlen, htype, hrest⟩ := wireFrame_fields hs
  rw [EthernetFrame.new_eq hlen, htype, if_pos (by decide), hp.from_slice_eq _ hrest]
  rfl

/-- What the two encoders and `send_frame` put on the wire, `EthernetFrame::new`
reads back: every well-formed IPv4 packet with the checksum `serialize` wrote,
and every ARP packet as it was. -/
theorem frame_round_trip (self : NetworkInterface) (dst : MacAddress) :
    (∀ p : Ipv4Packet, p.WellFormed → ∃ bytes frame s checksum, p.serialize = ok bytes ∧
        self.send_frame dst .IPV4 bytes = ok frame ∧ frame.length = max 60 (14 + bytes.len) ∧
        Slice.val s = frame ∧ (bytes.val.drop 10).take 2 = U16.to_be_bytes checksum ∧
        EthernetFrame.new s = ok (.ok (.Ipv4 { p with checksum := checksum }))) ∧
      ∀ a : ArpPacket, a.WellFormed → ∃ frame s,
        self.send_frame dst .ARP (Slice.ofBytes (by decide) a.serialize) = ok frame ∧ frame.length = 60 ∧
        Slice.val s = frame ∧ EthernetFrame.new s = ok (.ok (.Arp a)) := by
  have hmem : (2 ^ 17 : Nat) ≤ isizeMax := by decide
  constructor
  · intro p hp
    obtain ⟨bytes, hbytes, hval, hlen⟩ := hp.serialize_eq
    have htotal := p.total_length.toNat_lt
    have hframe := length_wireFrame self.mac dst .IPV4 bytes.val
    rw [Slice.length_val] at hframe
    refine ⟨bytes, _, ⟨wireFrame self.mac dst .IPV4 bytes.val, by omega⟩, p.headerChecksum, hbytes,
      self.send_frame_eq dst .IPV4 bytes, by omega, rfl, ?_,
      new_wireFrame hp (congrArg (wireFrame self.mac dst .IPV4) hval)⟩
    rw [hval]
    rfl
  · intro a ha
    have hframe := length_wireFrame self.mac dst .ARP a.serialize.val
    rw [a.serialize.property] at hframe
    exact ⟨_, ⟨wireFrame self.mac dst .ARP a.serialize.val, by omega⟩, self.send_frame_eq dst .ARP _, hframe,
      rfl, new_wireFrame_arp ha rfl⟩

/-- A packet with four bytes of options and one byte of data, not to be
fragmented. -/
def optionsPacket : Ipv4Packet where
  version_ihl := 0x46
  dscp_ecn := 0
  total_length := 25
  id := 7
  frag_offset := 0
  dont_fragment := true
  more_fragments := false
  ttl := 64
  protocol := .Unknown 200
  checksum := 0
  source := Ipv4Addr.new 10 0 2 15
  dest := Ipv4Addr.new 10 0 2 2
  options := ⟨[1, 1, 1, 0], by decide⟩
  data := ⟨[0xAB], by decide⟩

theorem frame_round_trip_options : ∃ frame s q, frame.length = 60 ∧ Slice.val s = frame ∧
    EthernetFrame.new s = ok (.ok (.Ipv4 q)) ∧ q.options = optionsPacket.options ∧
    q.data = optionsPacket.data := by
  have hpacket : optionsPacket.WellFormed := ⟨by decide, by decide, by decide, by decide, by decide⟩
  obtain ⟨bytes, frame, s, checksum, hbytes, _, hlen, hs, _, hdecode⟩ :=
    (frame_round_trip (.initial MacAddress.broadcast) MacAddress.broadcast).1 optionsPacket hpacket
  obtain ⟨written, hwritten, _, htotal⟩ := hpacket.serialize_eq
  obtain rfl : bytes = written := ok.inj (hbytes.symm.trans hwritten)
  refine ⟨frame, s, _, ?_, hs, hdecode, rfl, rfl⟩
  rw [hlen, htotal]
  rfl

/-- A UDP payload that fits in a packet passes every encoder. What comes out is
28 bytes of headers and the payload, and a frame around it decodes to the same
addresses, ports and payload. -/
theorem encode_udp (source dest : Ipv4Addr) (source_port dest_port id : UInt16) {data : Slice UInt8}
    (h : data.len ≤ 65507) :
    ∃ u datagram pkt bytes, UDPPacket.new source_port dest_port data = ok (.ok u) ∧
      u.serialize_ipv4 source dest = ok (.ok datagram) ∧
      Ipv4Packet.new datagram source dest id .UDP = ok (.ok pkt) ∧ pkt.serialize = ok bytes ∧
      (∃ headers : List UInt8, headers.length = 28 ∧ headers[9]? = some 17 ∧ bytes.val = headers ++ data.val) ∧
      ∀ (src dst : MacAddress) (s : Slice UInt8), s.val = wireFrame src dst .IPV4 bytes.val →
        ∃ q v, q.protocol = .UDP ∧ EthernetFrame.new s = ok (.ok (.Ipv4 q)) ∧ q.source = source ∧ q.dest = dest ∧
          q.id = id ∧ UDPPacket.from_packet q = ok (.ok v) ∧ v.source_port = source_port ∧
          v.dest_port = dest_port ∧ v.data = data ∧ v.checksum ≠ 0 := by
  obtain ⟨u, hnew, rfl, rfl, rfl⟩ := UDPPacket.new_eq source_port dest_port
    (show data.len ≤ MAX_UDP_PAYLOAD by simp only [MAX_UDP_PAYLOAD]; omega)
  have hmax : u.data.len ≤ MAX_UDP_PAYLOAD := by simp only [MAX_UDP_PAYLOAD]; omega
  obtain ⟨datagram, hserialize, hdatagram, hlen⟩ := u.serialize_ipv4_eq source dest hmax
  have hshort : datagram.len ≤ 65515 := by omega
  have hpkt := Ipv4Packet.ofData_wellFormed hshort source dest id (show IPProtocol.UDP = _ from rfl)
  have htotal := Ipv4Packet.toNat_total_length_ofData hshort source dest id .UDP
  obtain ⟨bytes, hbytes, hval, _⟩ := hpkt.serialize_eq
  refine ⟨u, datagram, _, bytes, hnew, hserialize, Ipv4Packet.new_eq hshort source dest id .UDP, hbytes, ?_, ?_⟩
  · refine ⟨(Ipv4Packet.ofData datagram source dest id .UDP).headerBytes
      (Ipv4Packet.ofData datagram source dest id .UDP).headerChecksum ++
      (U16.to_be_bytes u.source_port ++ U16.to_be_bytes u.dest_port ++ U16.to_be_bytes u.wireLen ++
      U16.to_be_bytes (wireChecksum (u.datagramSum source dest))), ?_, rfl, ?_⟩
    · rw [List.length_append, Ipv4Packet.length_headerBytes]
      rfl
    · rw [hval, List.append_assoc]
      exact congrArg _ hdatagram
  · intro src dst s hs
    refine ⟨_, _, rfl, new_wireFrame hpkt (hs.trans (congrArg (wireFrame src dst .IPV4) hval)), rfl, rfl, rfl,
      UDPPacket.from_packet_serialize_ipv4 hmax ?_ hdatagram, rfl, rfl, rfl, wireChecksum_ne_zero _⟩
    change 28 ≤ (Ipv4Packet.ofData datagram source dest id .UDP).total_length.toNat
    omega

/-- A UDP payload of at most 65507 bytes passes every encoder, and the frame
that goes out decodes to the same addresses, ports and payload, with a checksum
that is not zero. A longer payload is rejected, first by IPv4 and from 65528
bytes on already by UDP. -/
theorem udp_frame_round_trip (self : NetworkInterface) (dst_mac : MacAddress) (source dest : Ipv4Addr)
    (source_port dest_port id : UInt16) (data : Slice UInt8) :
    (data.len ≤ 65507 → ∃ u datagram pkt bytes frame s q v,
        UDPPacket.new source_port dest_port data = ok (.ok u) ∧
        u.serialize_ipv4 source dest = ok (.ok datagram) ∧
        Ipv4Packet.new datagram source dest id .UDP = ok (.ok pkt) ∧
        pkt.serialize = ok bytes ∧
        self.send_frame dst_mac .IPV4 bytes = ok frame ∧ 60 ≤ frame.length ∧ Slice.val s = frame ∧
        EthernetFrame.new s = ok (.ok (.Ipv4 q)) ∧ q.source = source ∧ q.dest = dest ∧ q.id = id ∧
        UDPPacket.from_packet q = ok (.ok v) ∧ v.source_port = source_port ∧ v.dest_port = dest_port ∧
        v.data = data ∧ v.checksum ≠ 0) ∧
      (65507 < data.len ∧ data.len ≤ 65527 → ∃ u datagram,
        UDPPacket.new source_port dest_port data = ok (.ok u) ∧
        u.serialize_ipv4 source dest = ok (.ok datagram) ∧
        Ipv4Packet.new datagram source dest id .UDP = ok (.error .LengthOutOfRange)) ∧
      (65527 < data.len → UDPPacket.new source_port dest_port data = ok (.error .LengthOutOfRange) ∧
        ∀ u : UDPPacket, u.data = data → u.serialize_ipv4 source dest = ok (.error .LengthOutOfRange)) := by
  refine ⟨fun hlen => ?_, fun ⟨hlow, hhigh⟩ => ?_, fun hlen => ⟨?_, fun u hu => ?_⟩⟩
  · obtain ⟨u, datagram, pkt, bytes, hnew, hserialize, hpkt, hbytes, ⟨headers, hheaders, _, hval⟩, hdecodes⟩ :=
      encode_udp source dest source_port dest_port id hlen
    have hframeLen := length_wireFrame self.mac dst_mac .IPV4 bytes.val
    have hmem : (2 ^ 17 : Nat) ≤ isizeMax := by decide
    have hbytesLen : bytes.val.length = 28 + data.len := by
      rw [hval, List.length_append, hheaders, Slice.length_val]
    obtain ⟨q, v, _, hq⟩ := hdecodes self.mac dst_mac ⟨wireFrame self.mac dst_mac .IPV4 bytes.val, by omega⟩ rfl
    exact ⟨u, datagram, pkt, bytes, _, _, q, v, hnew, hserialize, hpkt, hbytes,
      self.send_frame_eq dst_mac .IPV4 bytes, by omega, rfl, hq⟩
  · obtain ⟨u, hnew, _, _, rfl⟩ := UDPPacket.new_eq source_port dest_port
      (show data.len ≤ MAX_UDP_PAYLOAD by simp only [MAX_UDP_PAYLOAD]; omega)
    obtain ⟨datagram, hserialize, _, hdatagramLen⟩ := u.serialize_ipv4_eq source dest hhigh
    exact ⟨u, datagram, hnew, hserialize, Ipv4Packet.new_error (by omega) source dest id .UDP⟩
  · exact UDPPacket.new_error source_port dest_port hlen
  · subst hu
    exact u.serialize_ipv4_error source dest hlen

end conc_os.network.handler
