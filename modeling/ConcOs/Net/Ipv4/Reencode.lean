import ConcOs.Net.Ipv4.Serialize

open rust Result ones_complement

namespace conc_os_net.ipv4

/-- Encoding a decoded protocol byte gives the byte back. -/
theorem IPProtocol.into_from (value : UInt8) : (IPProtocol.from value).into = value := by
  unfold IPProtocol.from
  split_ifs with hicmp htcp hudp
  · exact hicmp.symm
  · exact htcp.symm
  · exact hudp.symm
  · rfl

/-- Without the evil bit, the flags and the fragment offset carry the whole
word they were read from. -/
theorem flagsWord_parsed {s : Slice UInt8} (hevil : (s.byte 6).toNat < 128) :
    (parsed s).flagsWord = U16.from_be_bytes (s.byte 6) (s.byte 7) := by
  have hword := U16.toNat_from_be_bytes (s.byte 6) (s.byte 7)
  have hlow := (s.byte 7).toNat_lt
  have hflags : (U16.from_be_bytes (s.byte 6) (s.byte 7) >>> 13).toNat =
      (U16.from_be_bytes (s.byte 6) (s.byte 7)).toNat / 8192 := by
    rw [UInt16.toNat_shiftRight]
    exact Nat.shiftRight_eq_div_pow _ 13
  have htable : ∀ flags : UInt16, flags.toNat < 4 →
      2 * (decide (flags &&& 0b010 ≠ 0)).toNat + (decide (flags &&& 0b001 ≠ 0)).toNat = flags.toNat := by
    intro flags hflags
    obtain ⟨n, hn, rfl⟩ : ∃ n < 4, flags = UInt16.ofNat n := ⟨_, hflags, UInt16.ofNat_toNat.symm⟩
    interval_cases n <;> decide
  have hoffset : (U16.from_be_bytes (s.byte 6) (s.byte 7) &&& 0x1fff).toNat =
      (U16.from_be_bytes (s.byte 6) (s.byte 7)).toNat % 8192 := by
    rw [UInt16.toNat_and]
    exact Nat.and_two_pow_sub_one_eq_mod _ 13
  apply UInt16.toNat_inj.mp
  rw [Ipv4Packet.toNat_flagsWord]
  simp only [parsed]
  rw [htable _ (by omega), hflags, hoffset]
  omega

theorem Accepts.twenty_le {s : Slice UInt8} (h : Accepts s) : 20 ≤ headerLen s := by
  have := h.ihl
  rw [headerLen]
  omega

/-- The packets the parser returns agree with themselves. -/
theorem Accepts.wellFormed {s : Slice UInt8} (h : Accepts s) : (parsed s).WellFormed where
  version := h.version
  ihl := by
    have htwenty := h.twenty_le
    change headerLen s = 20 + (s.sub 20 (headerLen s)).len
    rw [s.len_sub (h.header_le.trans h.total_le)]
    omega
  total := by
    have htwenty := h.twenty_le
    have hheader := h.header_le
    change (U16.from_be_bytes (s.byte 2) (s.byte 3)).toNat =
      20 + (s.sub 20 (headerLen s)).len + (s.sub (headerLen s) (totalLen s)).len
    rw [s.len_sub (h.header_le.trans h.total_le), s.len_sub h.total_le, U16.toNat_from_be_bytes]
    change totalLen s = _
    omega
  offset := by
    change (U16.from_be_bytes (s.byte 6) (s.byte 7) &&& 0x1fff).toNat ≤ 0x1fff
    rw [UInt16.toNat_and]
    exact Nat.and_le_right
  protocol := by
    change IPProtocol.from (s.byte 9) = IPProtocol.from (IPProtocol.from (s.byte 9)).into
    rw [IPProtocol.into_from]

theorem Ipv4Packet.wellFormed_of_from_packet {s : Slice UInt8} {p : Ipv4Packet}
    (hparse : Ipv4Packet.from_packet s = ok (.ok p)) : p.WellFormed := by
  obtain ⟨h, rfl⟩ := Ipv4Packet.from_packet_eq_ok_iff.mp hparse
  exact h.wellFormed

/-- Every bit of an accepted header is carried by some field. -/
theorem Accepts.headerBytes_eq {s : Slice UInt8} (h : Accepts s) :
    (parsed s).headerBytes (parsed s).checksum = s.val.take (headerLen s) := by
  have htwenty := h.twenty_le
  have hlen := h.header_le.trans h.total_le
  have hfields : s.val.take 20 = (List.range 20).map s.byte := Slice.take_eq_map_byte (by omega)
  have hsplit : s.val.take (headerLen s) = s.val.take 20 ++ (s.sub 20 (headerLen s)).val :=
    (s.val_sub_append (Nat.zero_le 20) htwenty).symm
  rw [hsplit, hfields, Ipv4Packet.headerBytes, flagsWord_parsed h.evil]
  simp only [parsed, U16.to_be_bytes_from_be_bytes, IPProtocol.into_from, Ipv4Addr.octets_new]
  rfl

/-- The header and the data of an accepted packet are what was read. -/
theorem Accepts.take_total {s : Slice UInt8} (h : Accepts s) :
    s.val.take (totalLen s) = (parsed s).headerBytes (parsed s).checksum ++ (parsed s).data.val := by
  rw [h.headerBytes_eq]
  exact (s.val_sub_append (Nat.zero_le _) h.header_le).symm

/-- The first word of a header is at least its version, so the sum is positive
whatever the checksum field holds. -/
theorem Ipv4Packet.WellFormed.wordSum_pos {p : Ipv4Packet} (h : p.WellFormed) (checksum : UInt16) :
    0 < wordSum (p.headerBytes checksum) := by
  have hversion := h.version
  simp only [headerBytes, List.cons_append, wordSum]
  omega

/-- Serializing an accepted packet writes the checksum it came with, except
that all ones become zero. -/
theorem Accepts.headerChecksum_eq {s : Slice UInt8} (h : Accepts s) :
    (parsed s).headerChecksum = if (parsed s).checksum = 0xFFFF then 0 else (parsed s).checksum := by
  have hverifies := h.verifies
  rw [← h.headerBytes_eq, Ipv4Packet.wordSum_headerBytes] at hverifies
  exact checksumOf_eq_field (h.wellFormed.wordSum_pos 0) hverifies

/-- Only bytes 10 and 11 of a packet depend on its checksum field. -/
theorem Ipv4Packet.getD_headerBytes (p : Ipv4Packet) (checksum checksum' : UInt16) {i : Nat}
    (hhigh : i ≠ 10) (hlow : i ≠ 11) :
    (p.headerBytes checksum ++ p.data.val).getD i 0 = (p.headerBytes checksum' ++ p.data.val).getD i 0 := by
  have hsplit : ∀ field : UInt16, p.headerBytes field ++ p.data.val = ([p.version_ihl, p.dscp_ecn] ++
      U16.to_be_bytes p.total_length ++ U16.to_be_bytes p.id ++ U16.to_be_bytes p.flagsWord ++
      [p.ttl, p.protocol.into]) ++ U16.to_be_bytes field ++
      (p.source.octets.val ++ p.dest.octets.val ++ p.options.val ++ p.data.val) := by
    intro field
    simp only [headerBytes, List.append_assoc]
  rw [hsplit, hsplit]
  refine getD_replace (by simp) ?_ 0
  change i < 10 ∨ 10 + 2 ≤ i
  omega

theorem from_be_bytes_eq_ones (a b : UInt8) : U16.from_be_bytes a b = 0xFFFF ↔ a = 0xFF ∧ b = 0xFF := by
  have ha := a.toNat_lt
  have hb := b.toNat_lt
  simp only [← UInt16.toNat_inj, ← UInt8.toNat_inj, U16.toNat_from_be_bytes, UInt16.reduceToNat,
    UInt8.reduceToNat]
  omega

/-- What the parser accepts, the serializer writes back: the first
`total_length` bytes, each as it was, except that a checksum field of all ones
becomes zero. -/
theorem reserialize_exact {b : Slice UInt8} {p : Ipv4Packet} (hparse : Ipv4Packet.from_packet b = ok (.ok p)) :
    p.total_length.toNat ≤ b.len ∧ ∃ w, p.serialize = ok w ∧ w.len = p.total_length.toNat ∧
      (∀ i < p.total_length.toNat, w.byte i =
        if (i = 10 ∨ i = 11) ∧ b.byte 10 = 0xFF ∧ b.byte 11 = 0xFF then 0 else b.byte i) ∧
      p.options.val ++ p.data.val = (b.sub 20 p.total_length.toNat).val ∧
      (U16.from_be_bytes (b.byte 10) (b.byte 11) ≠ 0xFFFF → w.val = b.val.take p.total_length.toNat) := by
  obtain ⟨h, rfl⟩ := Ipv4Packet.from_packet_eq_ok_iff.mp hparse
  have htotal : (parsed b).total_length.toNat = totalLen b := U16.toNat_from_be_bytes _ _
  obtain ⟨w, hw, hval, hlen⟩ := h.wellFormed.serialize_eq
  rw [h.headerChecksum_eq] at hval
  rw [htotal] at hlen ⊢
  have hexact : (parsed b).checksum ≠ 0xFFFF → w.val = b.val.take (totalLen b) := by
    intro hfield
    rw [hval, if_neg hfield, h.take_total]
  have hbyte : ∀ i < totalLen b, b.byte i = (b.val.take (totalLen b)).getD i 0 := by
    intro i hi
    rw [Slice.byte, List.getD_eq_getElem?_getD, List.getD_eq_getElem?_getD, List.getElem?_take_of_lt hi]
  refine ⟨h.total_le, w, hw, hlen, fun i hi => ?_, b.val_sub_append h.twenty_le h.header_le, hexact⟩
  by_cases hfield : (parsed b).checksum = 0xFFFF
  swap
  · rw [if_neg fun hboth => hfield ((from_be_bytes_eq_ones _ _).mpr hboth.2), hbyte i hi, ← hexact hfield]
    rfl
  rw [if_pos hfield] at hval
  by_cases hten : i = 10 ∨ i = 11
  · rw [if_pos ⟨hten, (from_be_bytes_eq_ones _ _).mp hfield⟩, Slice.byte, hval]
    rcases hten with rfl | rfl <;> rfl
  · rw [if_neg fun hboth => hten hboth.1, hbyte i hi, h.take_total, Slice.byte, hval]
    exact Ipv4Packet.getD_headerBytes _ _ _ (fun hi => hten (Or.inl hi)) (fun hi => hten (Or.inr hi))

/-- A header whose words other than the checksum sum up to all ones, with a
checksum field of all ones. -/
def onesHeader : Slice UInt8 :=
  ⟨[0x45, 0, 0, 20, 0xBA, 0xEB, 0, 0, 0, 0, 0xFF, 0xFF, 0, 0, 0, 0, 0, 0, 0, 0], by decide⟩

theorem reserialize_exact_ones : ∃ p w, Ipv4Packet.from_packet onesHeader = ok (.ok p) ∧
    p.serialize = ok w ∧ w.len = 20 ∧ w.byte 10 = 0 ∧ w.byte 11 = 0 ∧ w.byte 5 = 0xEB := by
  have haccepts : Accepts onesHeader := ⟨by decide, by decide, by decide, by decide, by decide, by decide⟩
  have hparse := Ipv4Packet.from_packet_eq_ok_iff.mpr ⟨haccepts, rfl⟩
  obtain ⟨_, w, hw, hlen, hbyte, _⟩ := reserialize_exact hparse
  exact ⟨_, w, hparse, hw, hlen, hbyte 10 (by decide), hbyte 11 (by decide), hbyte 5 (by decide)⟩

end conc_os_net.ipv4
