import ConcOs.Kernel.Handler
import ConcOs.Net.Checksum.Callers

open rust Result ones_complement
open conc_os_net
open conc_os_net.arp conc_os_net.ethernet conc_os_net.ipv4 conc_os_net.udp

namespace conc_os.network.handler

namespace NetworkInterface

/-- Overwriting a byte does not change the length. -/
theorem length_set {s t : Slice UInt8} {i : Nat} {value : UInt8} (h : s.set i value = ok t) :
    t.val.length = s.val.length := by
  rw [Slice.set] at h
  split at h
  · obtain rfl := ok.inj h
    simp
  · cases h

theorem handle_icmpWith_eq {checksum : List (List UInt8) → Result UInt16} (h : StandsIn checksum)
    (self : NetworkInterface) {packet : Ipv4Packet} (hwf : packet.WellFormed) :
    handle_icmpWith checksum self packet = self.handle_icmp packet := by
  have hlen : packet.data.val.length ≤ 65515 := hwf.data_len_le
  rw [handle_icmp, handle_icmpWith, handle_icmpWith, h _ (summable_single (by omega))]
  refine bind_congr_ok fun sum _ => ite_congr rfl (fun _ => rfl) fun _ => ?_
  refine bind_congr_ok fun kind _ => bind_congr_ok fun code _ => ite_congr rfl (fun _ => ?_) fun _ => rfl
  cases self.ipv4 with
  | none => rfl
  | some src =>
    refine bind_congr_ok fun d1 h1 => bind_congr_ok fun d2 h2 => bind_congr_ok fun d3 h3 => ?_
    have hsame : d3.val.length = packet.data.val.length := by rw [length_set h3, length_set h2, length_set h1]
    rw [h _ (summable_single (by omega))]

end NetworkInterface

/-- On parts that break no word and hold at most 65537 of them, the checksum
returns the complement of the one's complement sum of the words, and so that of
the concatenation. No caller ever passes other parts: it could not tell a
stand-in from the checksum. -/
theorem internet_checksum_sound :
    (∀ parts, Summable parts → ∃ checksum, internet_checksum parts = ok checksum ∧
      checksum.toNat = 0xFFFF -
        (if wordSum parts.flatten = 0 then 0 else (wordSum parts.flatten - 1) % 65535 + 1) ∧
      internet_checksum [parts.flatten] = ok checksum ∧
      (checksum = 0 ↔ 0 < wordSum parts.flatten ∧ 65535 ∣ wordSum parts.flatten)) ∧
    ∀ checksum, StandsIn checksum →
      (∀ packet, Ipv4Packet.from_packetWith checksum packet = Ipv4Packet.from_packet packet) ∧
      (∀ p : Ipv4Packet, p.WellFormed → p.serializeWith checksum = p.serialize) ∧
      (∀ ip_packet, UDPPacket.from_packetWith checksum ip_packet = UDPPacket.from_packet ip_packet) ∧
      (∀ (u : UDPPacket) (source dest : Ipv4Addr),
        u.serialize_ipv4With checksum source dest = u.serialize_ipv4 source dest) ∧
      (∀ (self : NetworkInterface) (packet : Ipv4Packet), packet.WellFormed →
        self.handle_icmpWith checksum packet = self.handle_icmp packet) := by
  refine ⟨fun parts h => ?_, fun checksum h => ?_⟩
  · refine ⟨_, h.checksum_eq, toNat_checksumOf _, ?_, checksumOf_eq_zero⟩
    rw [h.flatten.checksum_eq, List.flatten_cons, List.flatten_nil, List.append_nil]
  · exact ⟨Ipv4Packet.from_packetWith_eq h, fun p => Ipv4Packet.serializeWith_eq h,
      UDPPacket.from_packetWith_eq h, UDPPacket.serialize_ipv4With_eq h,
      fun self _ => self.handle_icmpWith_eq h⟩

/-- Two parts, the last of odd length. -/
theorem internet_checksum_sound_odd :
    ∃ checksum, internet_checksum [[0x12, 0x34], [0xff]] = ok checksum ∧ checksum.toNat = 0xeeca ∧
      internet_checksum [[0x12, 0x34, 0xff]] = ok checksum := by
  obtain ⟨checksum, hparts, hval, hwhole, _⟩ :=
    internet_checksum_sound.1 [[0x12, 0x34], [0xff]] ⟨by decide, by decide⟩
  exact ⟨checksum, hparts, hval, hwhole⟩

end conc_os.network.handler
