import ConcOs.Net.Ipv4.Parse

open rust Result ones_complement

namespace conc_os_net.ipv4

namespace Ipv4Packet

/-- The flags and fragment offset as one word of the header. -/
def flagsWord (p : Ipv4Packet) : UInt16 :=
  UInt16.ofNat (p.frag_offset.toNat % 8192 + (2 * p.dont_fragment.toNat + p.more_fragments.toNat) * 8192)

/-- The header and options of a packet, with a given checksum field. -/
def headerBytes (p : Ipv4Packet) (checksum : UInt16) : List UInt8 :=
  [p.version_ihl, p.dscp_ecn] ++ U16.to_be_bytes p.total_length ++ U16.to_be_bytes p.id ++
    U16.to_be_bytes p.flagsWord ++ [p.ttl, p.protocol.into] ++ U16.to_be_bytes checksum ++
    p.source.octets.val ++ p.dest.octets.val ++ p.options.val

/-- The checksum `serialize` writes. -/
def headerChecksum (p : Ipv4Packet) : UInt16 := checksumOf (wordSum (p.headerBytes 0))

theorem length_headerBytes (p : Ipv4Packet) (checksum : UInt16) :
    (p.headerBytes checksum).length = 20 + p.options.len := by
  simp only [headerBytes, List.length_append, List.length_cons, List.length_nil, U16.length_to_be_bytes,
    Ipv4Addr.length_octets, Slice.length_val]

theorem toNat_flagsWord (p : Ipv4Packet) : p.flagsWord.toNat =
    p.frag_offset.toNat % 8192 + (2 * p.dont_fragment.toNat + p.more_fragments.toNat) * 8192 := by
  have hd := Bool.toNat_le p.dont_fragment
  have hm := Bool.toNat_le p.more_fragments
  simp only [flagsWord, UInt16.toNat_ofNat']
  omega

/-- The checksum field contributes its own value to the sum of the header. -/
theorem wordSum_headerBytes (p : Ipv4Packet) (checksum : UInt16) :
    wordSum (p.headerBytes checksum) = wordSum (p.headerBytes 0) + checksum.toNat := by
  obtain ⟨a, b, c, d, hsource⟩ := p.source.eq_new
  obtain ⟨e, f, g, h, hdest⟩ := p.dest.eq_new
  have hlt := checksum.toNat_lt
  simp only [headerBytes, hsource, hdest, Ipv4Addr.octets_new, U16.to_be_bytes, List.cons_append,
    List.nil_append, wordSum, UInt8.toNat_ofNat', UInt16.toNat_zero]
  omega

/-- The two flag additions of `serialize` stay within `u16`. -/
theorem serialize_flags (p : Ipv4Packet) :
    (do
      let flags ← U16.add (if p.dont_fragment then 0b010 else 0) (if p.more_fragments then 0b001 else 0)
      U16.add (p.frag_offset &&& 0x1fff) (flags <<< 13)) = ok p.flagsWord := by
  have hmask : (p.frag_offset &&& 0x1fff).toNat = p.frag_offset.toNat % 8192 := by
    rw [UInt16.toNat_and]
    exact Nat.and_two_pow_sub_one_eq_mod p.frag_offset.toNat 13
  have hadd : ∀ flags : UInt16, flags.toNat ≤ 3 →
      U16.add (p.frag_offset &&& 0x1fff) (flags <<< 13) =
        ok (UInt16.ofNat (p.frag_offset.toNat % 8192 + flags.toNat * 8192)) := by
    intro flags hle
    have hshift : (flags <<< 13).toNat = flags.toNat * 8192 := by
      rw [UInt16.toNat_shiftLeft]
      change flags.toNat <<< 13 % 2 ^ 16 = _
      rw [Nat.shiftLeft_eq]
      omega
    rw [U16.add_eq (by rw [hmask, hshift]; omega), ok.injEq]
    apply UInt16.toNat_inj.mp
    rw [UInt16.toNat_add, hmask, hshift, UInt16.toNat_ofNat']
  cases hd : p.dont_fragment <;> cases hm : p.more_fragments <;>
    simp only [if_true, Bool.false_eq_true, if_false, flagsWord, hd, hm, Bool.toNat_true, Bool.toNat_false]
  all_goals
    rw [U16.add_eq (by decide), bind_tc_ok, hadd _ (by decide)]
    rfl

/-- Serialization succeeds for every packet that fits in memory and whose
options do not overflow the checksum, and writes the header with its checksum,
the options and the data. -/
theorem serialize_eq {p : Ipv4Packet} (hlen : 20 + p.options.len + p.data.len ≤ isizeMax)
    (hfit : wordSum (p.headerBytes 0) < 2 ^ 32) :
    ∃ w, p.serialize = ok w ∧ w.val = p.headerBytes p.headerChecksum ++ p.data.val := by
  have hbytes : ([p.version_ihl, p.dscp_ecn] ++ U16.to_be_bytes p.total_length ++ U16.to_be_bytes p.id ++
      U16.to_be_bytes p.flagsWord ++ [p.ttl, p.protocol.into] ++ List.replicate 2 0 ++
      p.source.octets.val ++ p.dest.octets.val ++ p.options.val ++ p.data.val) =
      p.headerBytes 0 ++ p.data.val := rfl
  have hcount : (p.headerBytes 0 ++ p.data.val).length = 20 + p.options.len + p.data.len := by
    rw [List.length_append, length_headerBytes, Slice.length_val]
  obtain ⟨flags, hflags, hword⟩ := bind_eq_ok_iff.mp p.serialize_flags
  have hmem : (p.headerBytes 0 ++ p.data.val).length ≤ isizeMax := by omega
  have hadd : 20 + p.options.len ≤ usizeMax := by
    have : isizeMax ≤ usizeMax := by decide
    omega
  obtain ⟨v, hv, hvval, hvlen⟩ := Vec.from_eq hmem
  have hhead : (v.sub 0 (20 + p.options.len)).val = p.headerBytes 0 := by
    rw [Slice.val_sub, hvval, List.drop_zero, Nat.sub_zero]
    exact List.take_left' (length_headerBytes p 0)
  obtain ⟨w, hw, hval, _⟩ := v.copy_from_slice_eq 10 12
    (U16.to_be_bytes p.headerChecksum) (by omega) (by omega) rfl
  refine ⟨w, ?_, ?_⟩
  · rw [serialize, serializeWith, hflags, bind_tc_ok, hword, bind_tc_ok, hbytes, hv, bind_tc_ok, Usize.add_eq hadd,
      bind_tc_ok, Slice.range_to_eq (by omega), bind_tc_ok, hhead, internet_checksum_eq (by simpa using hfit),
      bind_tc_ok]
    simpa [headerChecksum] using hw
  · rw [hval, hvval]
    simp only [headerBytes, U16.to_be_bytes, List.cons_append, List.nil_append, List.take_succ_cons,
      List.take_zero, List.drop_succ_cons, List.drop_zero]

/-- The packets whose fields agree with each other: an IPv4 header of the size
its options need, a total length that covers the data, and a fragment offset and
protocol that survive their encoding. -/
structure WellFormed (p : Ipv4Packet) : Prop where
  version : p.version_ihl.toNat / 16 = 4
  ihl : p.version_ihl.toNat % 16 * 4 = 20 + p.options.len
  total : p.total_length.toNat = 20 + p.options.len + p.data.len
  offset : p.frag_offset.toNat ≤ 0x1fff
  protocol : p.protocol = IPProtocol.from p.protocol.into

theorem WellFormed.options_le {p : Ipv4Packet} (h : p.WellFormed) : p.options.len ≤ 40 := by
  have := h.ihl
  omega

theorem WellFormed.data_len_le {p : Ipv4Packet} (h : p.WellFormed) : p.data.len ≤ 65515 := by
  have htotal := h.total
  have hlt := p.total_length.toNat_lt
  omega

theorem WellFormed.wordSum_lt {p : Ipv4Packet} (h : p.WellFormed) : wordSum (p.headerBytes 0) < 2 ^ 32 := by
  have hle := wordSum_le (p.headerBytes 0)
  have hoptions := h.options_le
  rw [length_headerBytes] at hle
  omega

/-- A well-formed packet always serializes, to exactly its total length. -/
theorem WellFormed.serialize_eq {p : Ipv4Packet} (h : p.WellFormed) :
    ∃ w, p.serialize = ok w ∧ w.val = p.headerBytes p.headerChecksum ++ p.data.val ∧
      w.len = p.total_length.toNat := by
  have htotal := h.total
  have hlt := p.total_length.toNat_lt
  have hmem : (2 ^ 16 : Nat) ≤ isizeMax := by decide
  obtain ⟨w, hw, hval⟩ := Ipv4Packet.serialize_eq (by omega) h.wordSum_lt
  refine ⟨w, hw, hval, ?_⟩
  rw [Slice.len, hval, List.length_append, length_headerBytes, Slice.length_val, htotal]

/-- The fields that the flags word encodes can be read back from it. -/
theorem flagsWord_decode (p : Ipv4Packet) (hoffset : p.frag_offset.toNat ≤ 0x1fff) :
    p.flagsWord &&& 0x1fff = p.frag_offset ∧
      decide ((p.flagsWord >>> 13) &&& 0b010 ≠ 0) = p.dont_fragment ∧
      decide ((p.flagsWord >>> 13) &&& 0b001 ≠ 0) = p.more_fragments := by
  have hword := p.toNat_flagsWord
  have hd := Bool.toNat_le p.dont_fragment
  have hm := Bool.toNat_le p.more_fragments
  have hshift : p.flagsWord >>> 13 =
      UInt16.ofNat (2 * p.dont_fragment.toNat + p.more_fragments.toNat) := by
    apply UInt16.toNat_inj.mp
    rw [UInt16.toNat_shiftRight, UInt16.toNat_ofNat']
    change p.flagsWord.toNat >>> 13 = _
    rw [Nat.shiftRight_eq_div_pow]
    omega
  refine ⟨?_, ?_, ?_⟩
  · apply UInt16.toNat_inj.mp
    rw [UInt16.toNat_and]
    refine (Nat.and_two_pow_sub_one_eq_mod p.flagsWord.toNat 13).trans ?_
    omega
  · rw [hshift]
    cases p.dont_fragment <;> cases p.more_fragments <;> decide
  · rw [hshift]
    cases p.dont_fragment <;> cases p.more_fragments <;> decide

/-- The checksum `serialize` writes makes the header verify. -/
theorem checksumOf_headerBytes (p : Ipv4Packet) :
    checksumOf (wordSum (p.headerBytes p.headerChecksum)) = 0 := by
  rw [wordSum_headerBytes]
  exact checksumOf_add_self (wordSum (p.headerBytes 0))

/-- Reading back the bytes of a well-formed packet, with any padding after
them, gives the packet with the checksum that was written. -/
theorem WellFormed.from_packet_eq {p : Ipv4Packet} (h : p.WellFormed) {s : Slice UInt8} (pad : List UInt8)
    (hs : s.val = p.headerBytes p.headerChecksum ++ p.data.val ++ pad) :
    from_packet s = ok (.ok { p with checksum := p.headerChecksum }) := by
  obtain ⟨a, b, c, d, hsource⟩ := p.source.eq_new
  obtain ⟨e, f, g, i, hdest⟩ := p.dest.eq_new
  have hlist : s.val = p.version_ihl :: p.dscp_ecn :: UInt8.ofNat (p.total_length.toNat / 256) ::
      UInt8.ofNat (p.total_length.toNat % 256) :: UInt8.ofNat (p.id.toNat / 256) ::
      UInt8.ofNat (p.id.toNat % 256) :: UInt8.ofNat (p.flagsWord.toNat / 256) ::
      UInt8.ofNat (p.flagsWord.toNat % 256) :: p.ttl :: p.protocol.into ::
      UInt8.ofNat (p.headerChecksum.toNat / 256) :: UInt8.ofNat (p.headerChecksum.toNat % 256) ::
      a :: b :: c :: d :: e :: f :: g :: i :: (p.options.val ++ p.data.val ++ pad) := by
    simp only [hs, headerBytes, hsource, hdest, Ipv4Addr.octets_new, U16.to_be_bytes, List.cons_append,
      List.nil_append, List.append_assoc]
  have hversion := h.version
  have hihl := h.ihl
  have htotalEq := h.total
  have hlt := p.total_length.toNat_lt
  have hheader : headerLen s = 20 + p.options.len := by
    simp only [headerLen, Slice.byte, hlist, List.getD_cons_zero, hihl]
  have htotal : totalLen s = p.total_length.toNat := by
    simp only [totalLen, Slice.byte, hlist, List.getD_cons_succ, List.getD_cons_zero, UInt8.toNat_ofNat']
    omega
  have hlen : s.len = 20 + p.options.len + p.data.len + pad.length := by
    rw [Slice.len, hs, List.length_append, List.length_append, length_headerBytes, Slice.length_val]
  have htake : s.val.take (headerLen s) = p.headerBytes p.headerChecksum := by
    rw [hs, hheader, List.append_assoc]
    exact List.take_left' (length_headerBytes p _)
  rw [from_packet_eq_ok_iff]
  constructor
  · refine ⟨?_, ?_, ?_, ?_, ?_, ?_⟩
    · simpa only [Slice.byte, hlist, List.getD_cons_zero] using hversion
    · simp only [Slice.byte, hlist, List.getD_cons_zero]
      omega
    · omega
    · omega
    · have hword := p.toNat_flagsWord
      have hd := Bool.toNat_le p.dont_fragment
      have hm := Bool.toNat_le p.more_fragments
      simp only [Slice.byte, hlist, List.getD_cons_succ, List.getD_cons_zero, UInt8.toNat_ofNat']
      omega
    · rw [htake]
      exact p.checksumOf_headerBytes
  · obtain ⟨hoffset, hdont, hmore⟩ := p.flagsWord_decode h.offset
    have hoptions : s.sub 20 (headerLen s) = p.options := by
      ext1
      rw [Slice.val_sub, hheader, hlist]
      simp [Slice.len]
    have hdata : s.sub (headerLen s) (totalLen s) = p.data := by
      ext1
      rw [Slice.val_sub, hheader, htotal, htotalEq, hs, List.append_assoc,
        List.drop_left' (length_headerBytes p _)]
      simp [Slice.len]
    rw [parsed, hoptions, hdata]
    simp only [Slice.byte, hlist, List.getD_cons_succ, List.getD_cons_zero, U16.from_be_bytes_to_be_bytes,
      hoffset, hdont, hmore, ← h.protocol, ← hsource, ← hdest]

/-- The packet `new` builds around `data`. -/
def ofData (data : Slice UInt8) (source dest : Ipv4Addr) (id : UInt16) (protocol : IPProtocol) :
    Ipv4Packet where
  version_ihl := 0x45
  dscp_ecn := 0
  total_length := UInt16.ofNat (data.len + 20)
  id := id
  frag_offset := 0
  dont_fragment := false
  more_fragments := false
  ttl := 64
  protocol := protocol
  checksum := 0
  source := source
  dest := dest
  options := Slice.empty
  data := data

theorem new_eq {data : Slice UInt8} (h : data.len ≤ 65515) (source dest : Ipv4Addr) (id : UInt16)
    (protocol : IPProtocol) :
    new data source dest id protocol = ok (.ok (ofData data source dest id protocol)) := by
  have hmem : isizeMax + 20 ≤ usizeMax := by decide
  have hle := data.len_le
  rw [new, Usize.add_eq (by omega), bind_tc_ok, U16.try_from_eq (by omega)]
  rfl

theorem new_error {data : Slice UInt8} (h : 65515 < data.len) (source dest : Ipv4Addr) (id : UInt16)
    (protocol : IPProtocol) : new data source dest id protocol = ok (.error .LengthOutOfRange) := by
  have hmem : isizeMax + 20 ≤ usizeMax := by decide
  have hle := data.len_le
  rw [new, Usize.add_eq (by omega), bind_tc_ok, U16.try_from_none (by omega)]

theorem toNat_total_length_ofData {data : Slice UInt8} (h : data.len ≤ 65515) (source dest : Ipv4Addr)
    (id : UInt16) (protocol : IPProtocol) :
    (ofData data source dest id protocol).total_length.toNat = data.len + 20 := by
  simp only [ofData, UInt16.toNat_ofNat']
  omega

theorem ofData_wellFormed {data : Slice UInt8} (h : data.len ≤ 65515) (source dest : Ipv4Addr) (id : UInt16)
    {protocol : IPProtocol} (hprotocol : protocol = IPProtocol.from protocol.into) :
    (ofData data source dest id protocol).WellFormed where
  version := by
    change (0x45 : UInt8).toNat / 16 = 4
    decide
  ihl := by
    change (0x45 : UInt8).toNat % 16 * 4 = 20 + (Slice.empty : Slice UInt8).len
    decide
  total := by
    rw [toNat_total_length_ofData h]
    simp only [ofData, Slice.len, Slice.val_empty, List.length_nil]
    omega
  offset := Nat.zero_le _
  protocol := hprotocol

end Ipv4Packet

end conc_os_net.ipv4
