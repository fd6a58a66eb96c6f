import ConcOs.Net.Udp.Serialize

open rust Result ones_complement
open conc_os_net.ipv4

namespace conc_os_net.udp

/-- The only field other than zero that makes a positive sum verify is the one
the sender puts on the wire. -/
theorem wireChecksum_eq_field {sum : Nat} {field : UInt16} (hpos : 0 < sum) (hfield : field ≠ 0)
    (hverifies : checksumOf (sum + field.toNat) = 0) : wireChecksum sum = field := by
  have hchecksum := checksumOf_eq_field hpos hverifies
  unfold wireChecksum
  by_cases hones : field = 0xFFFF
  · rw [hchecksum, if_pos hones, if_pos rfl, hones]
  · rw [hchecksum, if_neg hones, if_neg hfield]

theorem len_data_parsed (ip : Ipv4Packet) : (parsed ip).data.len = ip.data.len - 8 :=
  ip.data.len_sub le_rfl

theorem Accepts.wireLen_eq {ip : Ipv4Packet} (h : Accepts ip) :
    (parsed ip).wireLen = U16.from_be_bytes (ip.data.byte 4) (ip.data.byte 5) := by
  have hdeclared := h.length
  have hmin := h.min_len
  have hmax := h.max_len
  apply UInt16.toNat_inj.mp
  rw [UDPPacket.wireLen, len_data_parsed, UInt16.toNat_ofNat', hdeclared]
  omega

/-- The fields of an accepted datagram carry all of its bytes. -/
theorem Accepts.datagramBytes_eq {ip : Ipv4Packet} (h : Accepts ip) :
    (parsed ip).datagramBytes (parsed ip).wireLen (parsed ip).checksum = ip.data.val := by
  have hfields : ip.data.val.take 8 = (List.range 8).map ip.data.byte := Slice.take_eq_map_byte h.min_len
  have hsplit : ip.data.val = ip.data.val.take 8 ++ (ip.data.sub 8 ip.data.len).val := by
    have hwhole : (ip.data.sub 0 ip.data.len).val = ip.data.val := List.take_length
    exact hwhole.symm.trans (ip.data.val_sub_append (Nat.zero_le 8) h.min_len).symm
  rw [hsplit, hfields, UDPPacket.datagramBytes, h.wireLen_eq]
  simp only [parsed, U16.to_be_bytes_from_be_bytes]
  rfl

/-- The sum the receiver checks is the sender's, completed by the field. -/
theorem Accepts.sum_eq {ip : Ipv4Packet} (h : Accepts ip) :
    pseudoSum ip.source ip.dest (parsed ip).wireLen + wordSum ip.data.val =
      (parsed ip).datagramSum ip.source ip.dest + (parsed ip).checksum.toNat := by
  have hwords := (parsed ip).wordSum_datagramBytes (parsed ip).wireLen (parsed ip).checksum
  rw [h.datagramBytes_eq] at hwords
  rw [UDPPacket.datagramSum, hwords]
  omega

/-- Serializing an accepted datagram with a checksum writes the same checksum
again. -/
theorem Accepts.wireChecksum_eq {ip : Ipv4Packet} (h : Accepts ip) (hfield : (parsed ip).checksum ≠ 0) :
    wireChecksum ((parsed ip).datagramSum ip.source ip.dest) = (parsed ip).checksum := by
  have hverifies := h.verifies hfield
  rw [← h.wireLen_eq, h.sum_eq] at hverifies
  refine wireChecksum_eq_field ?_ hfield hverifies
  rw [UDPPacket.datagramSum, pseudoSum]
  omega

/-- Only bytes 6 and 7 of a datagram depend on its checksum field. -/
theorem UDPPacket.getD_datagramBytes (u : UDPPacket) (datagram_len checksum checksum' : UInt16) {i : Nat}
    (hhigh : i ≠ 6) (hlow : i ≠ 7) :
    (u.datagramBytes datagram_len checksum).getD i 0 = (u.datagramBytes datagram_len checksum').getD i 0 := by
  refine getD_replace (by simp) ?_ 0
  change i < 6 ∨ 6 + 2 ≤ i
  omega

/-- What the UDP parser accepts, the serializer writes back between the same
addresses: byte for byte if the datagram carries a checksum, and all but the
checksum field if it carries none. -/
theorem reserialize_datagram {ip : Ipv4Packet} {u : UDPPacket} (hparse : UDPPacket.from_packet ip = ok (.ok u)) :
    ∃ w, u.serialize_ipv4 ip.source ip.dest = ok (.ok w) ∧ w.len = ip.data.len ∧
      (U16.from_be_bytes (ip.data.byte 6) (ip.data.byte 7) ≠ 0 → w.val = ip.data.val) ∧
      (U16.from_be_bytes (ip.data.byte 6) (ip.data.byte 7) = 0 →
        ∀ i, i ≠ 6 → i ≠ 7 → w.byte i = ip.data.byte i) := by
  obtain ⟨h, rfl⟩ := UDPPacket.from_packet_eq_ok_iff.mp hparse
  have hmin := h.min_len
  have hmax := h.max_len
  have hroom : (parsed ip).data.len ≤ MAX_UDP_PAYLOAD := by
    rw [len_data_parsed, MAX_UDP_PAYLOAD]
    omega
  obtain ⟨w, hw, hval, hlen⟩ := (parsed ip).serialize_ipv4_eq ip.source ip.dest hroom
  rw [len_data_parsed] at hlen
  refine ⟨w, hw, by omega, fun hfield => ?_, fun _ i hhigh hlow => ?_⟩
  · rw [hval, h.wireChecksum_eq hfield, h.datagramBytes_eq]
  · rw [Slice.byte, Slice.byte, hval, ← h.datagramBytes_eq]
    exact UDPPacket.getD_datagramBytes _ _ _ _ hhigh hlow

/-- A datagram from 10.0.2.15 port 5000 to 10.0.2.2 port 53. -/
def sampleDatagram : Ipv4Packet :=
  Ipv4Packet.ofData ⟨[0x13, 0x88, 0, 0x35, 0, 10, 0x6B, 0xA3, 0x68, 0x69], by decide⟩
    (Ipv4Addr.new 10 0 2 15) (Ipv4Addr.new 10 0 2 2) 1 .UDP

theorem sampleDatagram_accepts : Accepts sampleDatagram :=
  ⟨by decide, by decide, by decide, by decide, by decide⟩

theorem reserialize_datagram_sample : ∃ u w, UDPPacket.from_packet sampleDatagram = ok (.ok u) ∧
    u.serialize_ipv4 sampleDatagram.source sampleDatagram.dest = ok (.ok w) ∧
      w.val = sampleDatagram.data.val := by
  have hparse := UDPPacket.from_packet_eq_ok_iff.mpr ⟨sampleDatagram_accepts, rfl⟩
  obtain ⟨w, hw, _, hexact, _⟩ := reserialize_datagram hparse
  exact ⟨_, w, hparse, hw, hexact (by decide)⟩

end conc_os_net.udp
