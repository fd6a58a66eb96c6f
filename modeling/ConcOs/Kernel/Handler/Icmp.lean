import ConcOs.Kernel.Handler.Effects
import ConcOs.Net.Ipv4.Reencode

open rust Result ones_complement
open conc_os_net
open conc_os_net.arp conc_os_net.ethernet conc_os_net.ipv4 conc_os_net.udp

namespace conc_os.network.handler

/-- The payloads `handle_icmp` answers: echo requests whose checksum verifies. -/
structure EchoRequest (data : Slice UInt8) : Prop where
  verifies : checksumOf (wordSum data.val) = 0
  kind : data.byte 0 = 8
  code : data.byte 1 = 0

instance (data : Slice UInt8) : Decidable (EchoRequest data) :=
  decidable_of_iff (checksumOf (wordSum data.val) = 0 ∧ data.byte 0 = 8 ∧ data.byte 1 = 0)
    ⟨fun ⟨h, hkind, hcode⟩ => ⟨h, hkind, hcode⟩, fun h => ⟨h.verifies, h.kind, h.code⟩⟩

/-- The payload of the reply: type and code zero, a fresh checksum, and the
identifier, sequence number and data of the request. -/
def echoReplyBytes (data : List UInt8) : List UInt8 :=
  [0, 0] ++ U16.to_be_bytes (checksumOf (wordSum (data.drop 4))) ++ data.drop 4

/-- A payload that verifies has at least two bytes: the word of a single byte
is below 65535. -/
theorem two_le_of_verifies {data : Slice UInt8} (h : checksumOf (wordSum data.val) = 0) : 2 ≤ data.len := by
  obtain ⟨hpos, hdvd⟩ := checksumOf_eq_zero.mp h
  obtain ⟨bytes, hbytes⟩ := data
  match bytes with
  | [] => simp [wordSum] at hpos
  | [a] =>
    have ha := a.toNat_lt
    simp only [wordSum] at hpos hdvd
    omega
  | a :: b :: rest =>
    simp only [Slice.len, List.length_cons]
    omega

/-- An echo request that verifies has at least four bytes: with only the type,
the code and at most one more byte, the sum is an even number below twice
65535. -/
theorem EchoRequest.four_le {data : Slice UInt8} (h : EchoRequest data) : 4 ≤ data.len := by
  obtain ⟨hpos, hdvd⟩ := checksumOf_eq_zero.mp h.verifies
  have hkind := h.kind
  have hcode := h.code
  have htwo := two_le_of_verifies h.verifies
  obtain ⟨bytes, hbytes⟩ := data
  match bytes with
  | [] | [_] => simp [Slice.len] at htwo
  | [a, b] =>
    obtain rfl : a = 8 := hkind
    obtain rfl : b = 0 := hcode
    simp only [wordSum, UInt8.reduceToNat] at hdvd
    omega
  | [a, b, c] =>
    obtain rfl : a = 8 := hkind
    obtain rfl : b = 0 := hcode
    have hc := c.toNat_lt
    simp only [wordSum, UInt8.reduceToNat] at hdvd
    omega
  | a :: b :: c :: d :: rest =>
    simp only [Slice.len, List.length_cons]
    omega

/-- The echo requests, as `handle_icmp` recognises them. -/
theorem echoRequest_iff {data : Slice UInt8} (hlen : data.len ≤ 65535) :
    EchoRequest data ↔ internet_checksum [data.val] = ok 0 ∧ data.val.take 2 = [8, 0] := by
  rw [internet_checksum_single (show data.val.length ≤ 65535 from hlen)]
  constructor
  · intro h
    rw [h.verifies, Slice.take_eq_map_byte (two_le_of_verifies h.verifies)]
    exact ⟨rfl, by rw [← h.kind, ← h.code]; rfl⟩
  · rintro ⟨hverifies, hhead⟩
    rw [ok.injEq] at hverifies
    rw [Slice.take_eq_map_byte (two_le_of_verifies hverifies)] at hhead
    obtain ⟨hkind, hcode, _⟩ := List.cons_eq_cons.mp hhead |>.imp_right List.cons_eq_cons.mp
    exact ⟨hverifies, hkind, hcode⟩

/-- The checksum of a reply verifies, whatever the request carried. -/
theorem checksumOf_echoReplyBytes (data : List UInt8) : checksumOf (wordSum (echoReplyBytes data)) = 0 := by
  have hsum : wordSum (echoReplyBytes data) =
      wordSum (data.drop 4) + (checksumOf (wordSum (data.drop 4))).toNat := by
    have hzero : wordSum [0, 0] = 0 := by decide
    rw [echoReplyBytes, wordSum_append (by simp), wordSum_append (by simp), wordSum_to_be_bytes, hzero]
    omega
  rw [hsum, checksumOf_add_self]

/-- The writes of `handle_icmp` turn the request into the reply. -/
theorem echo_writes {data : Slice UInt8} (h : EchoRequest data) (hlen : data.len ≤ 65535) :
    ∃ d1 d2 d3 reply, data.set 0 0 = ok d1 ∧ d1.set 2 0 = ok d2 ∧ d2.set 3 0 = ok d3 ∧
      internet_checksum [d3.val] = ok (checksumOf (wordSum (data.val.drop 4))) ∧
      d3.copy_from_slice 2 4 (U16.to_be_bytes (checksumOf (wordSum (data.val.drop 4)))) = ok reply ∧
      reply.val = echoReplyBytes data.val ∧ reply.len = data.len := by
  have hfour := h.four_le
  obtain ⟨d1, h1, v1, l1⟩ := data.set_eq 0 0 (by omega)
  obtain ⟨d2, h2, v2, l2⟩ := d1.set_eq 2 0 (by omega)
  obtain ⟨d3, h3, v3, l3⟩ := d2.set_eq 3 0 (by omega)
  have hcode := h.code
  have hval : d3.val = [0, 0, 0, 0] ++ data.val.drop 4 := by
    rw [v3, v2, v1]
    obtain ⟨bytes, hbytes⟩ := data
    match bytes with
    | [] | [_] | [_, _] | [_, _, _] => simp [Slice.len] at hfour
    | a :: b :: c :: d :: rest =>
      obtain rfl : b = 0 := hcode
      rfl
  have hsum : wordSum d3.val = wordSum (data.val.drop 4) := by
    rw [hval, wordSum_append (by decide)]
    have hzero : wordSum [0, 0, 0, 0] = 0 := by decide
    omega
  have hchecksum : internet_checksum [d3.val] = ok (checksumOf (wordSum (data.val.drop 4))) := by
    rw [internet_checksum_single (show d3.val.length ≤ 65535 by rw [Slice.length_val]; omega), hsum]
  obtain ⟨reply, hcopy, hreply, lreply⟩ := d3.copy_from_slice_eq 2 4
    (U16.to_be_bytes (checksumOf (wordSum (data.val.drop 4)))) (by omega) (by omega) rfl
  refine ⟨d1, d2, d3, reply, h1, h2, h3, hchecksum, hcopy, ?_, by omega⟩
  rw [hreply, hval]
  rfl

namespace NetworkInterface

/-- `handle_icmp` never panics: it answers exactly the echo requests, and only
once the interface has an address. -/
theorem handle_icmp_eq (self : NetworkInterface) {packet : Ipv4Packet} (hlen : packet.data.len ≤ 65515) :
    (EchoRequest packet.data ∧ ∃ src reply, self.ipv4 = some src ∧ reply.val = echoReplyBytes packet.data.val ∧
        reply.len = packet.data.len ∧
        self.handle_icmp packet = self.send_ipv4 packet.source
          (Ipv4Packet.ofData reply src packet.source packet.id .ICMP)) ∨
      ((¬ EchoRequest packet.data ∨ self.ipv4 = none) ∧ self.handle_icmp packet = ok (self, [])) := by
  unfold handle_icmp handle_icmpWith
  rw [internet_checksum_single (show packet.data.val.length ≤ 65535 by rw [Slice.length_val]; omega), bind_tc_ok]
  by_cases hverifies : checksumOf (wordSum packet.data.val) = 0
  swap
  · exact Or.inr ⟨Or.inl fun h => hverifies h.verifies, if_pos hverifies⟩
  have htwo := two_le_of_verifies hverifies
  rw [if_neg (not_not.mpr hverifies), Slice.index_byte (by omega), bind_tc_ok, Slice.index_byte (by omega),
    bind_tc_ok]
  by_cases hkind : packet.data.byte 0 = 8 ∧ packet.data.byte 1 = 0
  swap
  · exact Or.inr ⟨Or.inl fun h => hkind ⟨h.kind, h.code⟩, if_neg hkind⟩
  rw [if_pos hkind]
  cases hip : self.ipv4 with
  | none => exact Or.inr ⟨Or.inr rfl, rfl⟩
  | some src =>
    have hecho : EchoRequest packet.data := ⟨hverifies, hkind.1, hkind.2⟩
    obtain ⟨d1, d2, d3, reply, h1, h2, h3, hchecksum, hcopy, hreply, lreply⟩ := echo_writes hecho (by omega)
    refine Or.inl ⟨hecho, src, reply, rfl, hreply, lreply, ?_⟩
    simp only [h1, h2, h3, hchecksum, hcopy, bind_tc_ok, Ipv4Packet.new_eq (show reply.len ≤ 65515 by omega)]
    rfl

/-- A bound interface answers an echo request whose checksum verifies by handing
one packet to `send_ipv4`: from its own address to the sender, under the same
identification, without options, with the data of the request behind a header
whose checksum verifies. It ignores every other ICMP payload, also those too
short to have a header. -/
theorem handle_icmp_echo (self : NetworkInterface) {addr : Ipv4Addr} (hbound : self.ipv4 = some addr)
    {b : Slice UInt8} {packet : Ipv4Packet} (hparse : Ipv4Packet.from_packet b = ok (.ok packet)) :
    (internet_checksum [packet.data.val] = ok 0 ∧ packet.data.val.take 2 = [8, 0] →
      ∃ reply : Ipv4Packet, self.handle_icmp packet = self.send_ipv4 reply.dest reply ∧
        reply.source = addr ∧ reply.dest = packet.source ∧ reply.id = packet.id ∧
        reply.data.len = packet.data.len ∧ reply.data.val.take 2 = [0, 0] ∧
        reply.data.val.drop 4 = packet.data.val.drop 4 ∧ internet_checksum [reply.data.val] = ok 0 ∧
        reply.options.len = 0 ∧ ∃ w q, reply.serialize = ok w ∧ Ipv4Packet.from_packet w = ok (.ok q) ∧
          q.options.len = 0 ∧ q.data = reply.data) ∧
      (¬ (internet_checksum [packet.data.val] = ok 0 ∧ packet.data.val.take 2 = [8, 0]) →
        self.handle_icmp packet = ok (self, [])) := by
  have hlen := (Ipv4Packet.wellFormed_of_from_packet hparse).data_len_le
  rw [← echoRequest_iff (show packet.data.len ≤ 65535 by omega)]
  rcases self.handle_icmp_eq hlen with ⟨hecho, src, reply, hsrc, hreply, hreplyLen, heq⟩ | ⟨hnot, heq⟩
  · refine ⟨fun _ => ?_, fun hnot => absurd hecho hnot⟩
    obtain rfl : src = addr := Option.some.inj (hsrc.symm.trans hbound)
    have hwell := Ipv4Packet.ofData_wellFormed (show reply.len ≤ 65515 by omega) src packet.source packet.id
      (show IPProtocol.ICMP = _ from rfl)
    obtain ⟨w, hw, hval, _⟩ := hwell.serialize_eq
    have hread := hwell.from_packet_eq [] (hval.trans (List.append_nil _).symm)
    refine ⟨Ipv4Packet.ofData reply src packet.source packet.id .ICMP, heq, rfl, rfl, rfl, hreplyLen, ?_, ?_, ?_,
      rfl, w, _, hw, hread, rfl, rfl⟩
    · change reply.val.take 2 = _
      rw [hreply]
      rfl
    · change reply.val.drop 4 = _
      rw [hreply]
      rfl
    · change internet_checksum [reply.val] = _
      rw [internet_checksum_single (show reply.val.length ≤ 65535 by rw [Slice.length_val]; omega), hreply,
        checksumOf_echoReplyBytes]
  · refine ⟨fun hecho => ?_, fun _ => heq⟩
    rcases hnot with hnot | hnone
    · exact absurd hecho hnot
    · rw [hbound] at hnone
      cases hnone

/-- The shortest echo request, from 10.0.2.2 to 10.0.2.15. -/
def echoRequestPacket : Slice UInt8 :=
  ⟨[0x45, 0, 0, 24, 0, 1, 0, 0, 64, 1, 0x62, 0xD4, 10, 0, 2, 2, 10, 0, 2, 15, 8, 0, 0xF7, 0xFF], by decide⟩

/-- An interface that holds the address 10.0.2.15. -/
def boundInterface : NetworkInterface :=
  { NetworkInterface.initial MacAddress.broadcast with ipv4 := some (Ipv4Addr.new 10 0 2 15) }

theorem handle_icmp_echo_shortest : ∃ packet reply,
    Ipv4Packet.from_packet echoRequestPacket = ok (.ok packet) ∧
      boundInterface.handle_icmp packet = boundInterface.send_ipv4 reply.dest reply ∧
      reply.dest = Ipv4Addr.new 10 0 2 2 ∧ reply.data.len = 4 := by
  have haccepts : ipv4.Accepts echoRequestPacket :=
    ⟨by decide, by decide, by decide, by decide, by decide, by decide⟩
  have hparse := Ipv4Packet.from_packet_eq_ok_iff.mpr ⟨haccepts, rfl⟩
  have hrequest := (echoRequest_iff (show (ipv4.parsed echoRequestPacket).data.len ≤ 65535 by decide)).mp
    ⟨by decide, by decide, by decide⟩
  obtain ⟨reply, heq, _, hdest, _, hlen, _⟩ := (boundInterface.handle_icmp_echo rfl hparse).1 hrequest
  exact ⟨_, reply, hparse, heq, hdest, hlen⟩

end NetworkInterface

end conc_os.network.handler
