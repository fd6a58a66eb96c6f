import ConcOs.Net.Ipv4.Serialize

open rust Result ones_complement
open conc_os_net.ipv4

namespace conc_os_net.udp

def MAX_UDP_PAYLOAD : Nat := 65527

inductive UDPError where
  | LengthOutOfRange
  | LengthMismatch
  | IncorrectChecksum
deriving DecidableEq

structure UDPPacket where
  source_port : UInt16
  dest_port : UInt16
  datagram_length : UInt16
  checksum : UInt16
  data : Slice UInt8
deriving DecidableEq

namespace UDPPacket

def new (source_port dest_port : UInt16) (data : Slice UInt8) : Result (Except UDPError UDPPacket) := do
  match U16.try_from (← Usize.add data.len 8) with
  | none => ok (.error .LengthOutOfRange)
  | some datagram_length =>
    ok (.ok {
      source_port := source_port
      dest_port := dest_port
      datagram_length := datagram_length
      checksum := 0
      data := data })

/-- `from_packet`, with the checksum that it calls as a parameter. -/
def from_packetWith (internet_checksum : List (List UInt8) → Result UInt16) (ip_packet : Ipv4Packet) :
    Result (Except UDPError UDPPacket) := do
  if ip_packet.total_length < 28 ∨ ip_packet.data.len < 8 ∨ ip_packet.data.len > 65535 then
    return .error .LengthOutOfRange
  let source_port ← U16.from_be_slice (← ip_packet.data.range 0 2)
  let dest_port ← U16.from_be_slice (← ip_packet.data.range 2 4)
  let datagram_len ← U16.from_be_slice (← ip_packet.data.range 4 6)
  if datagram_len ≠ UInt16.ofNat ip_packet.data.len then return .error .LengthMismatch
  let checksum ← U16.from_be_slice (← ip_packet.data.range 6 8)
  let computed ← internet_checksum [ip_packet.source.octets.val, ip_packet.dest.octets.val, [0x0, 0x11],
    U16.to_be_bytes datagram_len, ip_packet.data.val]
  if computed ≠ 0 ∧ checksum ≠ 0 then return .error .IncorrectChecksum
  let data ← ip_packet.data.range_from 8
  return .ok {
    source_port := source_port
    dest_port := dest_port
    datagram_length := datagram_len
    checksum := checksum
    data := data }

def from_packet (ip_packet : Ipv4Packet) : Result (Except UDPError UDPPacket) :=
  from_packetWith internet_checksum ip_packet

/-- `serialize_ipv4`, with the checksum that it calls as a parameter. -/
def serialize_ipv4With (internet_checksum : List (List UInt8) → Result UInt16) (self : UDPPacket)
    (source_addr dest_addr : Ipv4Addr) : Result (Except UDPError (Vec UInt8)) := do
  match U16.try_from self.data.len with
  | none => ok (.error .LengthOutOfRange)
  | some udp_len =>
    if udp_len > UInt16.ofNat MAX_UDP_PAYLOAD then return .error .LengthOutOfRange
    let total_datagram_len ← U16.add 8 udp_len
    let result := U16.to_be_bytes self.source_port ++ U16.to_be_bytes self.dest_port ++
      U16.to_be_bytes total_datagram_len
    let checksum ← internet_checksum [source_addr.octets.val, dest_addr.octets.val, [0x0, 0x11],
      U16.to_be_bytes total_datagram_len, result, self.data.val]
    let checksum := if checksum = 0x0000 then 0xFFFF else checksum
    let result ← Vec.from (result ++ U16.to_be_bytes checksum ++ self.data.val)
    return .ok result

def serialize_ipv4 (self : UDPPacket) (source_addr dest_addr : Ipv4Addr) :
    Result (Except UDPError (Vec UInt8)) :=
  self.serialize_ipv4With internet_checksum source_addr dest_addr

end UDPPacket

/-- The words of the pseudo header a datagram is checksummed with. -/
def pseudoSum (source dest : Ipv4Addr) (datagram_len : UInt16) : Nat :=
  wordSum source.octets.val + wordSum dest.octets.val + 17 + datagram_len.toNat

theorem wordSum_octets_le (addr : Ipv4Addr) : wordSum addr.octets.val ≤ 131070 := by
  have h := wordSum_le addr.octets.val
  rw [Ipv4Addr.length_octets] at h
  omega

/-- The IPv4 packets whose data `UDPPacket::from_packet` accepts. -/
structure Accepts (ip : Ipv4Packet) : Prop where
  total : 28 ≤ ip.total_length.toNat
  min_len : 8 ≤ ip.data.len
  max_len : ip.data.len ≤ 65535
  length : (U16.from_be_bytes (ip.data.byte 4) (ip.data.byte 5)).toNat = ip.data.len
  verifies : U16.from_be_bytes (ip.data.byte 6) (ip.data.byte 7) ≠ 0 →
    checksumOf (pseudoSum ip.source ip.dest (U16.from_be_bytes (ip.data.byte 4) (ip.data.byte 5)) +
      wordSum ip.data.val) = 0

/-- The datagram read out of an accepted packet. -/
def parsed (ip : Ipv4Packet) : UDPPacket where
  source_port := U16.from_be_bytes (ip.data.byte 0) (ip.data.byte 1)
  dest_port := U16.from_be_bytes (ip.data.byte 2) (ip.data.byte 3)
  datagram_length := U16.from_be_bytes (ip.data.byte 4) (ip.data.byte 5)
  checksum := U16.from_be_bytes (ip.data.byte 6) (ip.data.byte 7)
  data := ip.data.sub 8 ip.data.len

/-- The checksum over the pseudo header and a datagram cannot overflow. -/
theorem datagram_checksum_eq (source dest : Ipv4Addr) (datagram_len : UInt16) {data : List UInt8}
    (hlen : data.length ≤ 65535) :
    internet_checksum [source.octets.val, dest.octets.val, [0x0, 0x11], U16.to_be_bytes datagram_len, data] =
      ok (checksumOf (pseudoSum source dest datagram_len + wordSum data)) := by
  have hs := wordSum_octets_le source
  have hd := wordSum_octets_le dest
  have hdata := wordSum_le data
  have hlt := datagram_len.toNat_lt
  have hsum : ([source.octets.val, dest.octets.val, [0x0, 0x11], U16.to_be_bytes datagram_len, data].map
      wordSum).sum = pseudoSum source dest datagram_len + wordSum data := by
    simp only [List.map_cons, List.map_nil, List.sum_cons, List.sum_nil, wordSum_to_be_bytes, pseudoSum]
    have hproto : wordSum [0x0, 0x11] = 17 := by decide
    omega
  rw [internet_checksum_eq (by rw [hsum, pseudoSum]; omega), hsum]

/-- `UDPPacket::from_packet` never panics: it accepts exactly the packets of
`Accepts`, with the fields of `parsed`, and reports an error for every other. -/
theorem UDPPacket.from_packet_spec (ip : Ipv4Packet) :
    (Accepts ip ∧ UDPPacket.from_packet ip = ok (.ok (parsed ip))) ∨
      (¬ Accepts ip ∧ ∃ e, UDPPacket.from_packet ip = ok (.error e)) := by
  unfold UDPPacket.from_packet UDPPacket.from_packetWith
  have htotal : ip.total_length < 28 ↔ ip.total_length.toNat < 28 := Iff.rfl
  by_cases hlen : ip.total_length < 28 ∨ ip.data.len < 8 ∨ ip.data.len > 65535 <;>
    have hnat := hlen <;> rw [htotal] at hnat
  · refine Or.inr ⟨fun h => ?_, _, if_pos hlen⟩
    have := h.total
    have := h.min_len
    have := h.max_len
    omega
  rw [if_neg hlen, Slice.range_eq (by omega) (by omega), bind_tc_ok, U16.from_be_slice_sub rfl (by omega),
    bind_tc_ok, Slice.range_eq (by omega) (by omega), bind_tc_ok, U16.from_be_slice_sub rfl (by omega),
    bind_tc_ok, Slice.range_eq (by omega) (by omega), bind_tc_ok, U16.from_be_slice_sub rfl (by omega),
    bind_tc_ok]
  have hdeclared : U16.from_be_bytes (ip.data.byte 4) (ip.data.byte 5) = UInt16.ofNat ip.data.len ↔
      (U16.from_be_bytes (ip.data.byte 4) (ip.data.byte 5)).toNat = ip.data.len := by
    rw [← UInt16.toNat_inj, UInt16.toNat_ofNat']
    omega
  by_cases hmatch : U16.from_be_bytes (ip.data.byte 4) (ip.data.byte 5) = UInt16.ofNat ip.data.len
  swap
  · exact Or.inr ⟨fun h => hmatch (hdeclared.mpr h.length), _, if_pos hmatch⟩
  rw [if_neg (not_not.mpr hmatch), Slice.range_eq (by omega) (by omega), bind_tc_ok,
    U16.from_be_slice_sub rfl (by omega), bind_tc_ok,
    datagram_checksum_eq ip.source ip.dest _ (show ip.data.val.length ≤ 65535 by rw [Slice.length_val]; omega),
    bind_tc_ok]
  by_cases hbad : checksumOf (pseudoSum ip.source ip.dest (U16.from_be_bytes (ip.data.byte 4)
      (ip.data.byte 5)) + wordSum ip.data.val) ≠ 0 ∧ U16.from_be_bytes (ip.data.byte 6) (ip.data.byte 7) ≠ 0
  · exact Or.inr ⟨fun h => hbad.1 (h.verifies hbad.2), _, if_pos hbad⟩
  · refine Or.inl ⟨⟨by omega, by omega, by omega, hdeclared.mp hmatch, ?_⟩, ?_⟩
    · intro hfield
      by_contra hsum
      exact hbad ⟨hsum, hfield⟩
    · rw [if_neg hbad, Slice.range_from_eq (by omega), bind_tc_ok]
      rfl

theorem UDPPacket.from_packet_eq_ok_iff {ip : Ipv4Packet} {u : UDPPacket} :
    UDPPacket.from_packet ip = ok (.ok u) ↔ Accepts ip ∧ u = parsed ip := by
  rcases UDPPacket.from_packet_spec ip with ⟨haccepts, heq⟩ | ⟨hnot, e, heq⟩
  · simp [heq, haccepts, eq_comm]
  · simp [heq, hnot]

end conc_os_net.udp
