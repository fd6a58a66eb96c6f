import ConcOs.Net.Arp

open rust Result
open conc_os_net.ethernet

namespace conc_os_net.arp

theorem read_mac_eq {s : Slice UInt8} {i j : Nat} (hj : j = i + 6) (h : j ≤ s.len) :
    ∃ mac, ArpPacket.read_mac s i j = ok mac ∧ mac.addr.val = (s.val.drop i).take 6 := by
  obtain ⟨addr, haddr, hval⟩ := Slice.try_into_sub hj h
  refine ⟨MacAddress.new addr, ?_, hval⟩
  rw [ArpPacket.read_mac, Slice.range_eq (by omega) h, bind_tc_ok, haddr, unwrap_some, bind_tc_ok]

theorem read_addr_eq {s : Slice UInt8} {i j : Nat} (hj : j = i + 4) (h : j ≤ s.len) :
    ∃ addr, ArpPacket.read_addr s i j = ok addr ∧ addr.octets.val = (s.val.drop i).take 4 := by
  obtain ⟨octets, hoctets, hval⟩ := Slice.try_into_sub hj h
  refine ⟨Ipv4Addr.from_octets octets, ?_, hval⟩
  rw [ArpPacket.read_addr, Slice.range_eq (by omega) h, bind_tc_ok, hoctets, unwrap_some, bind_tc_ok]

/-- `ArpPacket::from_slice` never panics. -/
theorem ArpPacket.from_slice_returns (s : Slice UInt8) : ∃ result, ArpPacket.from_slice s = ok result := by
  unfold ArpPacket.from_slice
  by_cases hlen : s.len < 28
  · exact ⟨_, if_pos hlen⟩
  obtain ⟨sender_mac, hsenderMac, _⟩ := read_mac_eq (s := s) (i := 8) (j := 14) rfl (by omega)
  obtain ⟨sender_addr, hsenderAddr, _⟩ := read_addr_eq (s := s) (i := 14) (j := 18) rfl (by omega)
  obtain ⟨target_mac, htargetMac, _⟩ := read_mac_eq (s := s) (i := 18) (j := 24) rfl (by omega)
  obtain ⟨target_addr, htargetAddr, _⟩ := read_addr_eq (s := s) (i := 24) (j := 28) rfl (by omega)
  rw [if_neg hlen, Slice.range_eq (by omega) (by omega), bind_tc_ok, U16.from_be_slice_sub rfl (by omega),
    bind_tc_ok, Slice.range_eq (by omega) (by omega), bind_tc_ok, U16.from_be_slice_sub rfl (by omega),
    bind_tc_ok, Slice.range_eq (by omega) (by omega), bind_tc_ok, U8.from_be_slice_sub rfl (by omega),
    bind_tc_ok, Slice.range_eq (by omega) (by omega), bind_tc_ok, U8.from_be_slice_sub rfl (by omega),
    bind_tc_ok, Slice.range_eq (by omega) (by omega), bind_tc_ok, U16.from_be_slice_sub rfl (by omega),
    bind_tc_ok]
  split
  · exact ⟨_, rfl⟩
  · split
    · exact ⟨_, rfl⟩
    · rw [hsenderMac, bind_tc_ok, hsenderAddr, bind_tc_ok, htargetMac, bind_tc_ok, htargetAddr, bind_tc_ok]
      exact ⟨_, rfl⟩

theorem ArpOperation.try_from_as_u16 (operation : ArpOperation) :
    ArpOperation.try_from operation.as_u16 = some operation := by
  cases operation <;> rfl

/-- The ARP packets between Ethernet and IPv4 addresses. -/
structure ArpPacket.WellFormed (p : ArpPacket) : Prop where
  hardware_type : p.hardware_type = 1
  protocol_type : p.protocol_type = 0x0800
  hardware_len : p.hardware_len = 6
  proto_len : p.proto_len = 4

theorem ArpPacket.length_serialize_le (p : ArpPacket) : p.serialize.val.length ≤ 65535 := by
  rw [p.serialize.property]
  decide

/-- The bytes of an ARP packet, cut at its fields. -/
theorem ArpPacket.serialize_fields {p : ArpPacket} {s : Slice UInt8} {pad : List UInt8}
    (hs : s.val = p.serialize.val ++ pad) :
    U16.from_be_bytes (s.byte 0) (s.byte 1) = p.hardware_type ∧
      U16.from_be_bytes (s.byte 2) (s.byte 3) = p.protocol_type ∧ s.byte 4 = p.hardware_len ∧
      s.byte 5 = p.proto_len ∧ U16.from_be_bytes (s.byte 6) (s.byte 7) = p.operation.as_u16 ∧
      (s.val.drop 8).take 6 = p.sender_mac.addr.val ∧ (s.val.drop 14).take 4 = p.sender_addr.octets.val ∧
      (s.val.drop 18).take 6 = p.target_mac.addr.val ∧ (s.val.drop 24).take 4 = p.target_addr.octets.val := by
  obtain ⟨a, b, c, d, e, f, hsenderMac⟩ := p.sender_mac.eq_six
  obtain ⟨g, h, i, j, hsenderAddr⟩ := p.sender_addr.eq_new
  obtain ⟨k, l, m, n, o, q, htargetMac⟩ := p.target_mac.eq_six
  obtain ⟨t, u, v, w, htargetAddr⟩ := p.target_addr.eq_new
  have hlist := hs
  simp only [val_serialize, hsenderMac, hsenderAddr, htargetMac, htargetAddr, Ipv4Addr.octets_new, U16.to_be_bytes,
    List.cons_append, List.nil_append] at hlist
  simp only [Slice.byte, hlist, List.getD_cons_succ, List.getD_cons_zero, U16.from_be_bytes_to_be_bytes,
    hsenderMac, hsenderAddr, htargetMac, htargetAddr, Ipv4Addr.octets_new, List.drop_succ_cons, List.drop_zero,
    List.take_succ_cons, List.take_zero, and_self]

/-- Reading back the bytes of an ARP packet, with any padding after them, gives
the packet. -/
theorem ArpPacket.WellFormed.from_slice_eq {p : ArpPacket} (h : p.WellFormed) {s : Slice UInt8}
    (pad : List UInt8) (hs : s.val = p.serialize.val ++ pad) : ArpPacket.from_slice s = ok (.ok p) := by
  obtain ⟨hhardware, hprotocol, hhlen, hplen, hoperation, hsenderMac, hsenderAddr, htargetMac, htargetAddr⟩ :=
    serialize_fields hs
  have hlen : 28 ≤ s.len := by
    rw [Slice.len, hs, List.length_append, p.serialize.property]
    omega
  obtain ⟨sender_mac, hreadSenderMac, hval⟩ := read_mac_eq (s := s) (i := 8) (j := 14) rfl (by omega)
  obtain rfl : sender_mac = p.sender_mac := MacAddress.ext_val (hval.trans hsenderMac)
  obtain ⟨sender_addr, hreadSenderAddr, hval⟩ := read_addr_eq (s := s) (i := 14) (j := 18) rfl (by omega)
  obtain rfl : sender_addr = p.sender_addr := Ipv4Addr.ext_val (hval.trans hsenderAddr)
  obtain ⟨target_mac, hreadTargetMac, hval⟩ := read_mac_eq (s := s) (i := 18) (j := 24) rfl (by omega)
  obtain rfl : target_mac = p.target_mac := MacAddress.ext_val (hval.trans htargetMac)
  obtain ⟨target_addr, hreadTargetAddr, hval⟩ := read_addr_eq (s := s) (i := 24) (j := 28) rfl (by omega)
  obtain rfl : target_addr = p.target_addr := Ipv4Addr.ext_val (hval.trans htargetAddr)
  have hformat : ¬ (p.hardware_type ≠ 1 ∨ p.protocol_type ≠ 0x0800 ∨ p.hardware_len ≠ 6 ∨ p.proto_len ≠ 4) := by
    simp [h.hardware_type, h.protocol_type, h.hardware_len, h.proto_len]
  rw [from_slice, if_neg (by omega), Slice.range_eq (by omega) (by omega), bind_tc_ok,
    U16.from_be_slice_sub rfl (by omega), bind_tc_ok, Slice.range_eq (by omega) (by omega), bind_tc_ok,
    U16.from_be_slice_sub rfl (by omega), bind_tc_ok, Slice.range_eq (by omega) (by omega), bind_tc_ok,
    U8.from_be_slice_sub rfl (by omega), bind_tc_ok, Slice.range_eq (by omega) (by omega), bind_tc_ok,
    U8.from_be_slice_sub rfl (by omega), bind_tc_ok, Slice.range_eq (by omega) (by omega), bind_tc_ok,
    U16.from_be_slice_sub rfl (by omega), bind_tc_ok]
  simp only [Nat.zero_add, Nat.reduceAdd, hhardware, hprotocol, hhlen, hplen, hoperation,
    ArpOperation.try_from_as_u16, if_neg hformat, hreadSenderMac, hreadSenderAddr, hreadTargetMac,
    hreadTargetAddr, bind_tc_ok, pure_eq_ok]

end conc_os_net.arp
