import ConcOs.Net.Udp

open rust Result ones_complement
open conc_os_net.ipv4

namespace conc_os_net.udp

/-- The checksum field that goes on the wire: a computed zero is sent as all
ones, since zero means that the sender computed none. -/
def wireChecksum (sum : Nat) : UInt16 := if checksumOf sum = 0 then 0xFFFF else checksumOf sum

theorem wireChecksum_ne_zero (sum : Nat) : wireChecksum sum ≠ 0 := by
  unfold wireChecksum
  split
  · decide
  · assumption

/-- Either representation of the checksum completes the sum to one that
verifies. -/
theorem checksumOf_add_wireChecksum (sum : Nat) : checksumOf (sum + (wireChecksum sum).toNat) = 0 := by
  unfold wireChecksum
  split
  · rename_i hzero
    obtain ⟨hpos, hdvd⟩ := checksumOf_eq_zero.mp hzero
    exact checksumOf_eq_zero.mpr ⟨by omega, hdvd.add (by decide)⟩
  · exact checksumOf_add_self sum

namespace UDPPacket

/-- The header and payload of a datagram, with given length and checksum
fields. -/
def datagramBytes (u : UDPPacket) (datagram_len checksum : UInt16) : List UInt8 :=
  U16.to_be_bytes u.source_port ++ U16.to_be_bytes u.dest_port ++ U16.to_be_bytes datagram_len ++
    U16.to_be_bytes checksum ++ u.data.val

/-- The length field `serialize_ipv4` writes. -/
def wireLen (u : UDPPacket) : UInt16 := UInt16.ofNat (8 + u.data.len)

/-- The sum of the pseudo header and the datagram without its checksum. -/
def datagramSum (u : UDPPacket) (source dest : Ipv4Addr) : Nat :=
  pseudoSum source dest u.wireLen + u.source_port.toNat + u.dest_port.toNat + u.wireLen.toNat +
    wordSum u.data.val

theorem toNat_wireLen {u : UDPPacket} (h : u.data.len ≤ MAX_UDP_PAYLOAD) :
    u.wireLen.toNat = 8 + u.data.len := by
  simp only [MAX_UDP_PAYLOAD] at h
  simp only [wireLen, UInt16.toNat_ofNat']
  omega

theorem length_datagramBytes (u : UDPPacket) (datagram_len checksum : UInt16) :
    (u.datagramBytes datagram_len checksum).length = 8 + u.data.len := by
  simp only [datagramBytes, List.length_append, U16.length_to_be_bytes, Slice.length_val]

theorem wordSum_datagramBytes (u : UDPPacket) (datagram_len checksum : UInt16) :
    wordSum (u.datagramBytes datagram_len checksum) = u.source_port.toNat + u.dest_port.toNat +
      datagram_len.toNat + checksum.toNat + wordSum u.data.val := by
  simp only [datagramBytes]
  rw [wordSum_append (by simp), wordSum_append (by simp), wordSum_append (by simp),
    wordSum_append (by simp)]
  simp only [wordSum_to_be_bytes]

theorem new_eq (source_port dest_port : UInt16) {data : Slice UInt8} (h : data.len ≤ MAX_UDP_PAYLOAD) :
    ∃ u, new source_port dest_port data = ok (.ok u) ∧ u.source_port = source_port ∧
      u.dest_port = dest_port ∧ u.data = data := by
  have hmem : isizeMax + 8 ≤ usizeMax := by decide
  have hle := data.len_le
  simp only [MAX_UDP_PAYLOAD] at h
  rw [new, Usize.add_eq (by omega), bind_tc_ok, U16.try_from_eq (by omega)]
  exact ⟨_, rfl, rfl, rfl, rfl⟩

theorem new_error (source_port dest_port : UInt16) {data : Slice UInt8} (h : MAX_UDP_PAYLOAD < data.len) :
    new source_port dest_port data = ok (.error .LengthOutOfRange) := by
  have hmem : isizeMax + 8 ≤ usizeMax := by decide
  have hle := data.len_le
  simp only [MAX_UDP_PAYLOAD] at h
  rw [new, Usize.add_eq (by omega), bind_tc_ok, U16.try_from_none (by omega)]

/-- A datagram within the payload limit serializes without overflow, with the
length and checksum recomputed. -/
theorem serialize_ipv4_eq (u : UDPPacket) (source dest : Ipv4Addr) (h : u.data.len ≤ MAX_UDP_PAYLOAD) :
    ∃ w, u.serialize_ipv4 source dest = ok (.ok w) ∧
      w.val = u.datagramBytes u.wireLen (wireChecksum (u.datagramSum source dest)) ∧
      w.len = 8 + u.data.len := by
  have hbound : u.data.len ≤ 65527 := h
  have hmem : (2 ^ 16 : Nat) ≤ isizeMax := by decide
  have hudp : (UInt16.ofNat u.data.len).toNat = u.data.len := by
    rw [UInt16.toNat_ofNat']
    omega
  have hmax : (UInt16.ofNat MAX_UDP_PAYLOAD).toNat = 65527 := by decide
  have hgt : ¬ UInt16.ofNat u.data.len > UInt16.ofNat MAX_UDP_PAYLOAD := by
    rw [gt_iff_lt, UInt16.lt_iff_toNat_lt, hudp, hmax]
    omega
  have height : (8 : UInt16).toNat = 8 := by decide
  have htotal : (8 : UInt16) + UInt16.ofNat u.data.len = u.wireLen := by
    apply UInt16.toNat_inj.mp
    rw [UInt16.toNat_add, hudp, u.toNat_wireLen h, height]
    omega
  have hadd : U16.add 8 (UInt16.ofNat u.data.len) = ok u.wireLen := by
    rw [U16.add_eq (by rw [hudp, height]; omega), htotal]
  have hsum : ([source.octets.val, dest.octets.val, [0x0, 0x11], U16.to_be_bytes u.wireLen,
      U16.to_be_bytes u.source_port ++ U16.to_be_bytes u.dest_port ++ U16.to_be_bytes u.wireLen,
      u.data.val].map wordSum).sum = u.datagramSum source dest := by
    have hproto : wordSum [0x0, 0x11] = 17 := by decide
    simp only [List.map_cons, List.map_nil, List.sum_cons, List.sum_nil]
    rw [wordSum_append (by simp), wordSum_append (by simp)]
    simp only [wordSum_to_be_bytes, datagramSum, pseudoSum]
    omega
  have hfit : u.datagramSum source dest < 2 ^ 32 := by
    have hs := wordSum_octets_le source
    have hd := wordSum_octets_le dest
    have hdata := wordSum_le u.data.val
    have hsp := u.source_port.toNat_lt
    have hdp := u.dest_port.toNat_lt
    rw [Slice.length_val] at hdata
    rw [datagramSum, pseudoSum, u.toNat_wireLen h]
    omega
  obtain ⟨w, hw, hval, hlen⟩ := Vec.from_eq
    (show (u.datagramBytes u.wireLen (wireChecksum (u.datagramSum source dest))).length ≤ isizeMax by
      rw [length_datagramBytes]; omega)
  refine ⟨w, ?_, hval, by rw [hlen, length_datagramBytes]⟩
  rw [serialize_ipv4, serialize_ipv4With, U16.try_from_eq (by omega)]
  simp only [hgt, if_false, hadd, bind_tc_ok]
  rw [internet_checksum_eq (by rw [hsum]; exact hfit), hsum, bind_tc_ok]
  change Vec.from (u.datagramBytes u.wireLen (wireChecksum (u.datagramSum source dest))) >>= _ = _
  rw [hw, bind_tc_ok]
  rfl

theorem serialize_ipv4_error (u : UDPPacket) (source dest : Ipv4Addr) (h : MAX_UDP_PAYLOAD < u.data.len) :
    u.serialize_ipv4 source dest = ok (.error .LengthOutOfRange) := by
  have hbound : 65527 < u.data.len := h
  rw [serialize_ipv4, serialize_ipv4With]
  by_cases hfit : u.data.len < 2 ^ 16
  · have hudp : (UInt16.ofNat u.data.len).toNat = u.data.len := by
      rw [UInt16.toNat_ofNat']
      omega
    have hmax : (UInt16.ofNat MAX_UDP_PAYLOAD).toNat = 65527 := by decide
    have hgt : UInt16.ofNat u.data.len > UInt16.ofNat MAX_UDP_PAYLOAD := by
      rw [gt_iff_lt, UInt16.lt_iff_toNat_lt, hudp, hmax]
      omega
    rw [U16.try_from_eq hfit]
    simp only [hgt, if_true, pure_eq_ok]
  · rw [U16.try_from_none (by omega)]

/-- Reading back a serialized datagram out of a packet between the same
addresses gives its ports and payload, and a checksum that is not zero. -/
theorem from_packet_serialize_ipv4 {u : UDPPacket} {ip : Ipv4Packet} (h : u.data.len ≤ MAX_UDP_PAYLOAD)
    (htotal : 28 ≤ ip.total_length.toNat)
    (hdata : ip.data.val = u.datagramBytes u.wireLen (wireChecksum (u.datagramSum ip.source ip.dest))) :
    from_packet ip = ok (.ok {
      source_port := u.source_port
      dest_port := u.dest_port
      datagram_length := u.wireLen
      checksum := wireChecksum (u.datagramSum ip.source ip.dest)
      data := u.data }) := by
  have hbound : u.data.len ≤ 65527 := h
  have hlen : ip.data.len = 8 + u.data.len := by
    rw [Slice.len, hdata, length_datagramBytes]
  have hlist := hdata
  simp only [datagramBytes, U16.to_be_bytes, List.cons_append, List.nil_append] at hlist
  have hdeclared : U16.from_be_bytes (ip.data.byte 4) (ip.data.byte 5) = u.wireLen := by
    simp only [Slice.byte, hlist, List.getD_cons_succ, List.getD_cons_zero, U16.from_be_bytes_to_be_bytes]
  have hsum : pseudoSum ip.source ip.dest u.wireLen + wordSum ip.data.val =
      u.datagramSum ip.source ip.dest + (wireChecksum (u.datagramSum ip.source ip.dest)).toNat := by
    rw [hdata, wordSum_datagramBytes, datagramSum]
    omega
  rw [from_packet_eq_ok_iff]
  constructor
  · refine ⟨htotal, by omega, by omega, ?_, fun _ => ?_⟩
    · rw [hdeclared, u.toNat_wireLen h, hlen]
    · rw [hdeclared, hsum, checksumOf_add_wireChecksum]
  · have hpayload : ip.data.sub 8 ip.data.len = u.data := by
      ext1
      rw [Slice.val_sub, hlist, hlen]
      simp [Slice.len]
    rw [parsed, hpayload, hdeclared]
    simp only [Slice.byte, hlist, List.getD_cons_succ, List.getD_cons_zero, U16.from_be_bytes_to_be_bytes]

end UDPPacket

end conc_os_net.udp
