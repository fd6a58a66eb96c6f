import ConcOs.Net.Ipv4.Serialize
import ConcOs.Net.Udp

open rust Result ones_complement

namespace conc_os_net.ipv4

/-- The parts `internet_checksum` is made for: none but the last breaks a word,
and the words cannot overflow a `u32`. -/
structure Summable (parts : List (List UInt8)) : Prop where
  even : ∀ part ∈ parts.dropLast, part.length % 2 = 0
  words : (parts.flatten.length + 1) / 2 ≤ 65537

/-- Parts that break no word add up to the sum of their concatenation. -/
theorem sum_wordSum_eq {parts : List (List UInt8)} (heven : ∀ part ∈ parts.dropLast, part.length % 2 = 0) :
    (parts.map wordSum).sum = wordSum parts.flatten := by
  induction parts with
  | nil => rfl
  | cons part parts ih =>
    cases parts with
    | nil => simp
    | cons next rest =>
      rw [List.dropLast_cons_cons] at heven
      rw [List.map_cons, List.sum_cons, List.flatten_cons, wordSum_append (heven part List.mem_cons_self),
        ih fun p hp => heven p (List.mem_cons_of_mem _ hp)]

theorem Summable.sum_lt {parts : List (List UInt8)} (h : Summable parts) : wordSum parts.flatten < 2 ^ 32 := by
  have hle := wordSum_le parts.flatten
  have hwords := h.words
  omega

theorem Summable.checksum_eq {parts : List (List UInt8)} (h : Summable parts) :
    internet_checksum parts = ok (checksumOf (wordSum parts.flatten)) := by
  have hsum := sum_wordSum_eq h.even
  rw [internet_checksum_eq (by rw [hsum]; exact h.sum_lt), hsum]

/-- A single part is as good as its concatenation. -/
theorem Summable.flatten {parts : List (List UInt8)} (h : Summable parts) : Summable [parts.flatten] where
  even := by simp
  words := by simpa using h.words

theorem summable_single {bytes : List UInt8} (hlen : bytes.length ≤ 131074) : Summable [bytes] where
  even := by simp
  words := by
    simp only [List.flatten_cons, List.flatten_nil, List.append_nil]
    omega

/-- A stand-in for `internet_checksum` that can be told from it only by parts
it is not made for. -/
def StandsIn (checksum : List (List UInt8) → Result UInt16) : Prop :=
  ∀ parts, Summable parts → checksum parts = internet_checksum parts

namespace Ipv4Packet

/-- What a range returns is no longer than its bounds. -/
theorem range_to_length {s t : Slice UInt8} {stop : Nat} (h : s.range_to stop = ok t) : t.val.length ≤ stop := by
  rw [Slice.range_to, Slice.range] at h
  split at h
  · obtain rfl := ok.inj h
    simp
  · cases h

theorem from_packetWith_eq {checksum : List (List UInt8) → Result UInt16} (h : StandsIn checksum)
    (packet : Slice UInt8) : from_packetWith checksum packet = from_packet packet := by
  rw [from_packet, from_packetWith, from_packetWith]
  -- Both sides run alike up to the call, whose argument is at most 255 bytes long.
  repeat first
    | refine ite_congr rfl (fun _ => rfl) fun _ => ?_
    | refine bind_congr_ok fun value hvalue => ?_
  have hlen := range_to_length hvalue
  rw [h _ (summable_single (hlen.trans ((UInt8.toNat_lt _).le.trans (by decide))))]

theorem serializeWith_eq {checksum : List (List UInt8) → Result UInt16} (h : StandsIn checksum)
    {p : Ipv4Packet} (hwf : p.WellFormed) : serializeWith checksum p = p.serialize := by
  rw [serialize, serializeWith, serializeWith]
  have hoptions := hwf.options_le
  refine bind_congr_ok fun flags _ => bind_congr_ok fun flags_frag_offset _ => ?_
  refine bind_congr_ok fun result _ => bind_congr_ok fun header_len hheader => ?_
  refine bind_congr_ok fun header hrange => ?_
  rw [Usize.add_eq (by rw [usizeMax]; omega)] at hheader
  obtain rfl := ok.inj hheader
  have hlen := range_to_length hrange
  rw [h _ (summable_single (by omega))]

end Ipv4Packet

end conc_os_net.ipv4

namespace conc_os_net.udp

open conc_os_net.ipv4

/-- The pseudo header breaks no word, so it can stand before a datagram. -/
theorem summable_pseudo (source dest : Ipv4Addr) (datagram_len : UInt16) {first : List UInt8}
    {rest : List (List UInt8)} (heven : ∀ part ∈ (first :: rest).dropLast, part.length % 2 = 0)
    (hlen : (first :: rest).flatten.length ≤ 65541) :
    Summable (source.octets.val :: dest.octets.val :: [0x0, 0x11] :: U16.to_be_bytes datagram_len ::
      first :: rest) where
  even := by
    simp only [List.dropLast_cons_cons, List.forall_mem_cons, Ipv4Addr.length_octets, U16.length_to_be_bytes,
      List.length_cons, List.length_nil, Nat.reduceAdd, Nat.reduceMod, true_and]
    exact heven
  words := by
    rw [List.flatten_cons, List.flatten_cons, List.flatten_cons, List.flatten_cons]
    simp only [List.length_append, Ipv4Addr.length_octets, U16.length_to_be_bytes, List.length_cons,
      List.length_nil]
    omega

namespace UDPPacket

theorem from_packetWith_eq {checksum : List (List UInt8) → Result UInt16} (h : StandsIn checksum)
    (ip_packet : Ipv4Packet) : from_packetWith checksum ip_packet = from_packet ip_packet := by
  rw [from_packet, from_packetWith, from_packetWith]
  refine ite_congr rfl (fun _ => rfl) fun hlen => ?_
  repeat first
    | refine ite_congr rfl (fun _ => rfl) fun _ => ?_
    | refine bind_congr_ok fun _ _ => ?_
  have hdata : ip_packet.data.val.length ≤ 65535 := by
    rw [Slice.length_val]
    omega
  rw [h _ (summable_pseudo _ _ _ (by simp) (by simpa using hdata.trans (by decide)))]

theorem serialize_ipv4With_eq {checksum : List (List UInt8) → Result UInt16} (h : StandsIn checksum)
    (u : UDPPacket) (source dest : Ipv4Addr) :
    serialize_ipv4With checksum u source dest = u.serialize_ipv4 source dest := by
  rw [serialize_ipv4, serialize_ipv4With, serialize_ipv4With]
  cases hlen : U16.try_from u.data.len with
  | none => rfl
  | some udp_len =>
    refine ite_congr rfl (fun _ => rfl) fun _ => bind_congr_ok fun total_datagram_len _ => ?_
    have hdata : u.data.val.length < 2 ^ 16 := by
      rw [Slice.length_val]
      by_contra hlong
      rw [U16.try_from_none (by omega)] at hlen
      cases hlen
    dsimp only
    rw [h _ (summable_pseudo _ _ _ (by simp) (by simp; omega))]

end UDPPacket

end conc_os_net.udp
