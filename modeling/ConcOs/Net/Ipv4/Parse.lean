import ConcOs.Net.Ipv4

open rust Result ones_complement

namespace conc_os_net.ipv4

/-- The header length a packet declares in its IHL nibble. -/
def headerLen (s : Slice UInt8) : Nat := (s.byte 0).toNat % 16 * 4

/-- The total length a packet declares. -/
def totalLen (s : Slice UInt8) : Nat := 256 * (s.byte 2).toNat + (s.byte 3).toNat

/-- The byte strings `Ipv4Packet::from_packet` accepts. -/
structure Accepts (s : Slice UInt8) : Prop where
  version : (s.byte 0).toNat / 16 = 4
  ihl : 5 ≤ (s.byte 0).toNat % 16
  header_le : headerLen s ≤ totalLen s
  total_le : totalLen s ≤ s.len
  evil : (s.byte 6).toNat < 128
  verifies : checksumOf (wordSum (s.val.take (headerLen s))) = 0

/-- The packet read out of an accepted byte string. -/
def parsed (s : Slice UInt8) : Ipv4Packet where
  version_ihl := s.byte 0
  dscp_ecn := s.byte 1
  total_length := U16.from_be_bytes (s.byte 2) (s.byte 3)
  id := U16.from_be_bytes (s.byte 4) (s.byte 5)
  frag_offset := U16.from_be_bytes (s.byte 6) (s.byte 7) &&& 0x1fff
  dont_fragment := decide ((U16.from_be_bytes (s.byte 6) (s.byte 7) >>> 13) &&& 0b010 ≠ 0)
  more_fragments := decide ((U16.from_be_bytes (s.byte 6) (s.byte 7) >>> 13) &&& 0b001 ≠ 0)
  ttl := s.byte 8
  protocol := IPProtocol.from (s.byte 9)
  checksum := U16.from_be_bytes (s.byte 10) (s.byte 11)
  source := Ipv4Addr.new (s.byte 12) (s.byte 13) (s.byte 14) (s.byte 15)
  dest := Ipv4Addr.new (s.byte 16) (s.byte 17) (s.byte 18) (s.byte 19)
  options := s.sub 20 (headerLen s)
  data := s.sub (headerLen s) (totalLen s)

theorem version_eq_four_iff (b : UInt8) : (b >>> 4) &&& 0xf = 4 ↔ b.toNat / 16 = 4 := by
  have hb := b.toNat_lt
  have hshift : (b >>> 4).toNat = b.toNat / 16 := by
    rw [UInt8.toNat_shiftRight]
    exact Nat.shiftRight_eq_div_pow b.toNat 4
  have hmask : ((b >>> 4) &&& 0xf).toNat = b.toNat / 16 % 16 := by
    rw [UInt8.toNat_and, hshift]
    exact Nat.and_two_pow_sub_one_eq_mod (b.toNat / 16) 4
  rw [← UInt8.toNat_inj, hmask]
  simp only [UInt8.reduceToNat]
  omega

theorem toNat_ihl (b : UInt8) : (b &&& 0xf).toNat = b.toNat % 16 := by
  rw [UInt8.toNat_and]
  exact Nat.and_two_pow_sub_one_eq_mod b.toNat 4

theorem evil_bit_iff (a b : UInt8) :
    ((U16.from_be_bytes a b >>> 13) &&& 0b100 ≠ 0) ↔ 128 ≤ a.toNat := by
  have ha := a.toNat_lt
  have hb := b.toNat_lt
  have hshift : (U16.from_be_bytes a b >>> 13).toNat = a.toNat / 32 := by
    rw [UInt16.toNat_shiftRight, U16.toNat_from_be_bytes]
    change (256 * a.toNat + b.toNat) >>> 13 = a.toNat / 32
    rw [Nat.shiftRight_eq_div_pow]
    omega
  rw [ne_eq, ← UInt16.toNat_inj, UInt16.toNat_and, hshift]
  have hsmall : a.toNat / 32 < 8 := by omega
  have htable : ∀ n < 8, (¬n &&& 4 = 0) ↔ 4 ≤ n := by decide
  simp only [UInt16.reduceToNat]
  rw [htable _ hsmall]
  omega

theorem Ipv4Packet.read_addr_eq {s : Slice UInt8} {i j : Nat} (hj : j = i + 4) (h : j ≤ s.len) :
    Ipv4Packet.read_addr s i j =
      ok (Ipv4Addr.new (s.byte i) (s.byte (i + 1)) (s.byte (i + 2)) (s.byte (i + 3))) := by
  obtain ⟨octets, hoctets, hval⟩ := Slice.try_into_sub hj h
  rw [Ipv4Packet.read_addr, Slice.range_eq (by omega) h, bind_tc_ok, hoctets, unwrap_some, bind_tc_ok]
  congr 1
  apply Ipv4Addr.ext_val
  change octets.val = _
  subst hj
  rw [hval, Ipv4Addr.octets_new, ← Slice.val_sub_four h]
  simp

/-- The tail expression of `from_packet`, run on the packet cut to its total
length. -/
private def finishPacket (version_ihl dscp_ecn : UInt8) (header_len total_length : Nat)
    (packet : Slice UInt8) : Result (Except Ipv4Error Ipv4Packet) := do
  let id ← U16.from_be_slice (← packet.range 4 6)
  let flags_frag_offset ← U16.from_be_slice (← packet.range 6 8)
  if decide ((flags_frag_offset >>> 13) &&& 0b100 ≠ 0) then return .error .EvilBitSet
  let ttl ← U8.from_be_slice (← packet.range 8 9)
  let proto ← U8.from_be_slice (← packet.range 9 10)
  let checksum ← U16.from_be_slice (← packet.range 10 12)
  if (← internet_checksum [(← packet.range_to header_len).val]) ≠ 0 then
    return .error .IncorrectChecksum
  let src_addr ← Ipv4Packet.read_addr packet 12 16
  let dst_addr ← Ipv4Packet.read_addr packet 16 20
  let options ← packet.range 20 header_len
  let data ← packet.range_from header_len
  return .ok {
    version_ihl := version_ihl
    dscp_ecn := dscp_ecn
    total_length := UInt16.ofNat total_length
    id := id
    frag_offset := flags_frag_offset &&& 0x1fff
    dont_fragment := decide ((flags_frag_offset >>> 13) &&& 0b010 ≠ 0)
    more_fragments := decide ((flags_frag_offset >>> 13) &&& 0b001 ≠ 0)
    ttl := ttl
    protocol := IPProtocol.from proto
    checksum := checksum
    source := src_addr
    dest := dst_addr
    options := options
    data := data }

/-- The reads after the length checks stay in bounds, and only the evil bit and
the header checksum can still reject. -/
private theorem finishPacket_eq {s : Slice UInt8} (hmin : 20 ≤ headerLen s) (hmax : headerLen s ≤ 60)
    (hheader : headerLen s ≤ totalLen s) (htotal : totalLen s ≤ s.len) :
    finishPacket (s.byte 0) (s.byte 1) (headerLen s) (totalLen s) (s.sub 0 (totalLen s)) =
      ok (if 128 ≤ (s.byte 6).toNat then .error .EvilBitSet
        else if checksumOf (wordSum (s.val.take (headerLen s))) ≠ 0 then .error .IncorrectChecksum
        else .ok (parsed s)) := by
  have hcut : (s.sub 0 (totalLen s)).len = totalLen s := by
    rw [Slice.len_sub s htotal]
    omega
  have hbyte : ∀ i < 20, (s.sub 0 (totalLen s)).byte i = s.byte i := fun i hi =>
    s.byte_sub_zero (by omega)
  have hwords : (s.sub 0 (totalLen s)).sub 0 (headerLen s) = s.sub 0 (headerLen s) :=
    s.sub_sub_zero hheader
  have hfit : ([(s.sub 0 (headerLen s)).val].map wordSum).sum < 2 ^ 32 := by
    have hle := wordSum_le (s.sub 0 (headerLen s)).val
    have hlen := s.len_sub (a := 0) (b := headerLen s) (by omega)
    rw [Slice.length_val, hlen] at hle
    simp only [List.map_cons, List.map_nil, List.sum_cons, List.sum_nil]
    omega
  unfold finishPacket
  rw [Slice.range_eq (by omega) (by omega), bind_tc_ok, U16.from_be_slice_sub rfl (by omega), bind_tc_ok,
    Slice.range_eq (by omega) (by omega), bind_tc_ok, U16.from_be_slice_sub rfl (by omega), bind_tc_ok,
    hbyte 4 (by omega), hbyte (4 + 1) (by omega), hbyte 6 (by omega), hbyte (6 + 1) (by omega)]
  simp only [decide_eq_true_eq, evil_bit_iff]
  by_cases hevil : 128 ≤ (s.byte 6).toNat
  · rw [if_pos hevil, if_pos hevil]
    rfl
  rw [if_neg hevil, if_neg hevil, Slice.range_eq (by omega) (by omega), bind_tc_ok,
    U8.from_be_slice_sub rfl (by omega), bind_tc_ok, Slice.range_eq (by omega) (by omega), bind_tc_ok,
    U8.from_be_slice_sub rfl (by omega), bind_tc_ok, Slice.range_eq (by omega) (by omega), bind_tc_ok,
    U16.from_be_slice_sub rfl (by omega), bind_tc_ok, Slice.range_to_eq (by omega), bind_tc_ok, hwords,
    internet_checksum_eq hfit, bind_tc_ok, hbyte 8 (by omega), hbyte 9 (by omega), hbyte 10 (by omega),
    hbyte (10 + 1) (by omega)]
  simp only [List.map_cons, List.map_nil, List.sum_cons, List.sum_nil, Nat.add_zero, Slice.val_sub,
    List.drop_zero, Nat.sub_zero]
  by_cases hsum : checksumOf (wordSum (s.val.take (headerLen s))) ≠ 0
  · rw [if_pos hsum, if_pos hsum]
    rfl
  rw [if_neg hsum, if_neg hsum, Ipv4Packet.read_addr_eq rfl (by omega), bind_tc_ok,
    Ipv4Packet.read_addr_eq rfl (by omega), bind_tc_ok, Slice.range_eq (by omega) (by omega), bind_tc_ok,
    Slice.range_from_eq (by omega), bind_tc_ok, hcut, s.sub_sub_zero hheader, s.sub_sub_zero le_rfl]
  simp only [hbyte _ (show 12 < 20 by omega), hbyte _ (show 12 + 1 < 20 by omega),
    hbyte _ (show 12 + 2 < 20 by omega), hbyte _ (show 12 + 3 < 20 by omega),
    hbyte _ (show 16 < 20 by omega), hbyte _ (show 16 + 1 < 20 by omega),
    hbyte _ (show 16 + 2 < 20 by omega), hbyte _ (show 16 + 3 < 20 by omega)]
  rfl

/-- `Ipv4Packet::from_packet` never panics: it accepts exactly the byte strings
of `Accepts`, with the fields of `parsed`, and reports an error for every
other. -/
theorem Ipv4Packet.from_packet_spec (s : Slice UInt8) :
    (Accepts s ∧ Ipv4Packet.from_packet s = ok (.ok (parsed s))) ∨
      (¬ Accepts s ∧ ∃ e, Ipv4Packet.from_packet s = ok (.error e)) := by
  unfold Ipv4Packet.from_packet Ipv4Packet.from_packetWith
  by_cases hlen : s.len < 20
  · refine Or.inr ⟨fun h => ?_, _, if_pos hlen⟩
    have := h.ihl
    have := h.header_le
    have := h.total_le
    simp only [headerLen] at *
    omega
  rw [if_neg hlen, Slice.range_eq (by omega) (by omega), bind_tc_ok,
    U8.from_be_slice_sub rfl (by omega), bind_tc_ok]
  by_cases hversion : (s.byte 0 >>> 4) &&& 0xf = 4
  swap
  · refine Or.inr ⟨fun h => ?_, _, if_pos hversion⟩
    exact hversion ((version_eq_four_iff _).mpr h.version)
  rw [if_neg (not_not.mpr hversion)]
  have hnibble := toNat_ihl (s.byte 0)
  by_cases hihl : s.byte 0 &&& 0xf < 5
  · refine Or.inr ⟨fun h => ?_, _, if_pos hihl⟩
    have := h.ihl
    have hlt : (s.byte 0 &&& 0xf).toNat < 5 := hihl
    omega
  have hfive : 5 ≤ (s.byte 0).toNat % 16 := by
    have hle : ¬ (s.byte 0 &&& 0xf).toNat < 5 := hihl
    omega
  have hheader : ((s.byte 0 &&& 0xf) * 4).toNat = headerLen s := by
    rw [UInt8.toNat_mul, hnibble, headerLen]
    simp only [UInt8.reduceToNat]
    omega
  rw [if_neg hihl, U8.mul_eq (by rw [hnibble]; simp only [UInt8.reduceToNat]; omega), bind_tc_ok]
  simp only [hheader]
  by_cases hfits : headerLen s > s.len
  · refine Or.inr ⟨fun h => ?_, _, if_pos hfits⟩
    have := h.header_le
    have := h.total_le
    omega
  rw [if_neg hfits, Slice.range_eq (by omega) (by omega), bind_tc_ok,
    U8.from_be_slice_sub rfl (by omega), bind_tc_ok, Slice.range_eq (by omega) (by omega), bind_tc_ok,
    U16.from_be_slice_sub rfl (by omega), bind_tc_ok]
  have htotal : (U16.from_be_bytes (s.byte 2) (s.byte (2 + 1))).toNat = totalLen s :=
    U16.toNat_from_be_bytes _ _
  simp only [htotal]
  by_cases hbounds : totalLen s > s.len ∨ totalLen s < headerLen s
  · refine Or.inr ⟨fun h => ?_, _, if_pos hbounds⟩
    have := h.header_le
    have := h.total_le
    omega
  have hmin : 20 ≤ headerLen s := by
    rw [headerLen]
    omega
  have hmax : headerLen s ≤ 60 := by
    rw [headerLen]
    omega
  rw [if_neg hbounds, Slice.range_to_eq (by omega), bind_tc_ok]
  have hfinish := finishPacket_eq hmin hmax (by omega) (by omega)
  unfold finishPacket at hfinish
  rw [hfinish]
  by_cases hevil : 128 ≤ (s.byte 6).toNat
  · refine Or.inr ⟨fun h => ?_, _, by rw [if_pos hevil]⟩
    have := h.evil
    omega
  by_cases hsum : checksumOf (wordSum (s.val.take (headerLen s))) = 0
  · refine Or.inl ⟨⟨(version_eq_four_iff _).mp hversion, hfive, by omega, by omega, by omega, hsum⟩, ?_⟩
    rw [if_neg hevil, if_neg (not_not.mpr hsum)]
  · refine Or.inr ⟨fun h => hsum h.verifies, _, by rw [if_neg hevil, if_pos hsum]⟩

theorem Ipv4Packet.from_packet_eq_ok_iff {s : Slice UInt8} {p : Ipv4Packet} :
    Ipv4Packet.from_packet s = ok (.ok p) ↔ Accepts s ∧ p = parsed s := by
  rcases Ipv4Packet.from_packet_spec s with ⟨haccepts, heq⟩ | ⟨hnot, e, heq⟩
  · simp [heq, haccepts, eq_comm]
  · simp [heq, hnot]

end conc_os_net.ipv4
