import ConcOs.Kernel.Handler.Receive

open rust Result
open conc_os_net
open conc_os_net.arp conc_os_net.ethernet conc_os_net.ipv4

namespace conc_os.network.handler

namespace NetworkInterface

variable {Error : Type}

/-- `process_rx` hands a frame that it can decode to `handle_packet`. -/
theorem process_rx_eq (self : NetworkInterface) (id : Except Error UInt16) {packet : Slice UInt8}
    {dst : MacAddress} {frame : EthernetFrame} (hlen : 14 ≤ packet.len) (hdst : packet.val.take 6 = dst.addr.val)
    (hnew : EthernetFrame.new packet = ok (.ok frame)) :
    self.process_rx id packet = self.handle_packet id frame dst := by
  obtain ⟨addr, haddr, hval⟩ := Slice.try_into_sub (s := packet) (i := 0) (j := 6) (n := 6) rfl (by omega)
  obtain ⟨src, hsrc, _⟩ := Slice.try_into_sub (s := packet) (i := 6) (j := 12) (n := 6) rfl (by omega)
  have hmac : MacAddress.new addr = dst := MacAddress.ext_val (hval.trans hdst)
  rw [process_rx, if_neg (by omega), Slice.range_eq (by omega) (by omega), bind_tc_ok, haddr, unwrap_some,
    bind_tc_ok, Slice.range_eq (by omega) (by omega), bind_tc_ok, hsrc, unwrap_some, bind_tc_ok,
    Slice.index_byte (by omega), bind_tc_ok, Slice.index_byte (by omega), bind_tc_ok, hnew, bind_tc_ok, hmac]

/-- A frame that cannot be decoded is dropped. -/
theorem process_rx_malformed (self : NetworkInterface) (id : Except Error UInt16) {packet : Slice UInt8}
    {e : EthernetError} (hnew : EthernetFrame.new packet = ok (.error e)) :
    self.process_rx id packet = ok (self, []) := by
  rw [process_rx]
  by_cases hlen : packet.len < 14
  · rw [if_pos hlen]
    rfl
  · obtain ⟨addr, haddr, _⟩ := Slice.try_into_sub (s := packet) (i := 0) (j := 6) (n := 6) rfl (by omega)
    obtain ⟨src, hsrc, _⟩ := Slice.try_into_sub (s := packet) (i := 6) (j := 12) (n := 6) rfl (by omega)
    rw [if_neg hlen, Slice.range_eq (by omega) (by omega), bind_tc_ok, haddr, unwrap_some, bind_tc_ok,
      Slice.range_eq (by omega) (by omega), bind_tc_ok, hsrc, unwrap_some, bind_tc_ok,
      Slice.index_byte (by omega), bind_tc_ok, Slice.index_byte (by omega), bind_tc_ok, hnew, bind_tc_ok]
    rfl

/-- A frame for another host is left alone. -/
theorem handle_packet_other (self : NetworkInterface) (id : Except Error UInt16) (frame : EthernetFrame)
    {dst : MacAddress} (hself : dst ≠ self.mac) (hbroadcast : dst ≠ MacAddress.broadcast) :
    self.handle_packet id frame dst = ok (self, []) := by
  have haddr : dst.addr ≠ self.mac.addr := fun heq => hself (MacAddress.ext_val (congrArg Bytes.val heq))
  unfold handle_packet
  rw [if_pos ⟨haddr, hbroadcast⟩]
  rfl

/-- A frame for this host, or for all, is handed to the handler of its kind. -/
theorem handle_packet_eq (self : NetworkInterface) (id : Except Error UInt16) (frame : EthernetFrame)
    {dst : MacAddress} (hdst : dst = self.mac ∨ dst = MacAddress.broadcast) :
    self.handle_packet id frame dst = match frame with
      | .Arp arp_packet => self.handle_arp arp_packet
      | .Ipv4 ipv4_packet => self.handle_ipv4 id ipv4_packet
      | .Unknown _ _ => ok (self, []) := by
  have hours : ¬ (dst.addr ≠ self.mac.addr ∧ dst ≠ MacAddress.broadcast) := by
    rintro ⟨haddr, hbroadcast⟩
    rcases hdst with rfl | rfl
    · exact haddr rfl
    · exact hbroadcast rfl
  unfold handle_packet
  rw [if_neg hours]
  cases frame <;> rfl

end NetworkInterface

theorem length_wellFormed_le {p : Ipv4Packet} (h : p.WellFormed) (checksum : UInt16) :
    (p.headerBytes checksum ++ p.data.val).length ≤ 65535 := by
  have htotal := h.total
  have hlt := p.total_length.toNat_lt
  rw [List.length_append, Ipv4Packet.length_headerBytes, Slice.length_val]
  omega

/-- A frame on the wire as the driver hands it to the kernel. -/
theorem exists_slice (src dst : MacAddress) (ethertype : EtherType) {payload : List UInt8}
    (hlen : payload.length ≤ 65535) : ∃ s : Slice UInt8, s.val = wireFrame src dst ethertype payload := by
  have hmem : (2 ^ 17 : Nat) ≤ isizeMax := by decide
  have hframe := length_wireFrame src dst ethertype payload
  exact ⟨⟨wireFrame src dst ethertype payload, by omega⟩, rfl⟩

end conc_os.network.handler
