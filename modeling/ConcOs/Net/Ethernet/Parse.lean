import ConcOs.Net.Arp.Parse
import ConcOs.Net.Ethernet
import ConcOs.Net.Ipv4.Parse

open rust Result
open conc_os_net.arp conc_os_net.ipv4

namespace conc_os_net.ethernet

/-- `EthernetFrame::new` reads the ethertype and hands the rest to one of the
two parsers. -/
theorem EthernetFrame.new_eq {packet : Slice UInt8} (hlen : 14 ≤ packet.len) :
    EthernetFrame.new packet =
      if U16.from_be_bytes (packet.byte 12) (packet.byte 13) = 0x0806 then do
        match ← ArpPacket.from_slice (packet.sub 14 packet.len) with
        | .ok arp => return .ok (.Arp arp)
        | .error e => return .error (.ArpError e)
      else if U16.from_be_bytes (packet.byte 12) (packet.byte 13) = 0x0800 then do
        match ← Ipv4Packet.from_packet (packet.sub 14 packet.len) with
        | .ok ipv4 => return .ok (.Ipv4 ipv4)
        | .error e => return .error (.Ipv4Err e)
      else return .ok (.Unknown (U16.from_be_bytes (packet.byte 12) (packet.byte 13)) packet) := by
  unfold EthernetFrame.new
  rw [if_neg (by omega), Slice.index_byte (by omega), bind_tc_ok, Slice.index_byte (by omega), bind_tc_ok,
    Slice.range_from_eq hlen]
  rfl

/-- `EthernetFrame::new` never panics, and an IPv4 packet it returns was
accepted by the IPv4 parser. -/
theorem EthernetFrame.new_spec (packet : Slice UInt8) :
    ∃ result, EthernetFrame.new packet = ok result ∧
      ∀ ip, result = .ok (.Ipv4 ip) → ∃ s, Ipv4Packet.from_packet s = ok (.ok ip) := by
  by_cases hlen : packet.len < 14
  · exact ⟨_, if_pos hlen, fun ip h => by cases h⟩
  rw [EthernetFrame.new_eq (by omega)]
  split
  · obtain ⟨result, hresult⟩ := ArpPacket.from_slice_returns (packet.sub 14 packet.len)
    rw [hresult, bind_tc_ok]
    cases result with
    | ok arp => exact ⟨_, rfl, fun ip h => by cases h⟩
    | error e => exact ⟨_, rfl, fun ip h => by cases h⟩
  split
  · rcases Ipv4Packet.from_packet_spec (packet.sub 14 packet.len) with ⟨_, heq⟩ | ⟨_, e, heq⟩
    · rw [heq, bind_tc_ok]
      refine ⟨_, rfl, fun ip h => ?_⟩
      cases h
      exact ⟨_, heq⟩
    · rw [heq, bind_tc_ok]
      exact ⟨_, rfl, fun ip h => by cases h⟩
  · exact ⟨_, rfl, fun ip h => by cases h⟩

end conc_os_net.ethernet
