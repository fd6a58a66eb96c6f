import ConcOs.Net.Corruption
import ConcOs.Net.Udp.Reencode

open rust Result ones_complement
open conc_os_net.ipv4

namespace conc_os_net.udp

/-- The second packet is the first with one word of its addresses or of its
data replaced. -/
inductive Corrupts (ip : Ipv4Packet) : Ipv4Packet → Nat → Nat → Prop where
  | source {source' : Ipv4Addr} {word word' : Nat}
      (hchange : WordChange ip.source.octets.val source'.octets.val word word') :
      Corrupts ip { ip with source := source' } word word'
  | dest {dest' : Ipv4Addr} {word word' : Nat}
      (hchange : WordChange ip.dest.octets.val dest'.octets.val word word') :
      Corrupts ip { ip with dest := dest' } word word'
  | data {data' : Slice UInt8} {word word' : Nat} (hchange : WordChange ip.data.val data'.val word word') :
      Corrupts ip { ip with data := data' } word word'

/-- The checksum field of the datagram in a packet. -/
def checksumField (ip : Ipv4Packet) : UInt16 := U16.from_be_bytes (ip.data.byte 6) (ip.data.byte 7)

/-- Of a packet and its corruption at most one is accepted, if both carry a
checksum. A change of the length word is caught by the length check; with equal
length words, the sums differ by the change of the word. -/
theorem Accepts.not_corrupted {ip ip' : Ipv4Packet} {word word' : Nat} (h : Accepts ip)
    (hfield : checksumField ip ≠ 0) (hcorrupts : Corrupts ip ip' word word')
    (hdetectable : Detectable word word') (hfield' : checksumField ip' ≠ 0) : ¬ Accepts ip' := by
  intro h'
  have hverifies := h.verifies hfield
  have hverifies' := h'.verifies hfield'
  cases hcorrupts with
  | source hchange =>
    simp only [pseudoSum, Nat.add_assoc] at hverifies hverifies'
    rw [Nat.add_comm] at hverifies hverifies'
    exact hchange.checksumOf_ne_zero hdetectable _ hverifies hverifies'
  | dest hchange =>
    simp only [pseudoSum, Nat.add_assoc,
      Nat.add_left_comm (wordSum ip.source.octets.val)] at hverifies hverifies'
    rw [Nat.add_comm] at hverifies hverifies'
    exact hchange.checksumOf_ne_zero hdetectable _ hverifies hverifies'
  | @data data' word word' hchange =>
    have hlen : data'.len = ip.data.len := hchange.length_eq
    have hdeclared : U16.from_be_bytes (data'.byte 4) (data'.byte 5) =
        U16.from_be_bytes (ip.data.byte 4) (ip.data.byte 5) := by
      apply UInt16.toNat_inj.mp
      rw [h.length, ← hlen]
      exact h'.length
    simp only [hdeclared] at hverifies'
    exact hchange.checksumOf_ne_zero hdetectable _ hverifies hverifies'

/-- A datagram that carries a checksum is no longer accepted once a single word
of it, or of the addresses it was checksummed with, is changed, unless the
change is between the two representations of zero or clears the checksum. -/
theorem corrupted_datagram_rejected {ip ip' : Ipv4Packet} {u : UDPPacket} {word word' : Nat}
    (hparse : UDPPacket.from_packet ip = ok (.ok u)) (hfield : checksumField ip ≠ 0)
    (hcorrupts : Corrupts ip ip' word word') (hdetectable : Detectable word word')
    (hfield' : checksumField ip' ≠ 0) : ∃ e, UDPPacket.from_packet ip' = ok (.error e) := by
  obtain ⟨h, _⟩ := UDPPacket.from_packet_eq_ok_iff.mp hparse
  rcases UDPPacket.from_packet_spec ip' with ⟨h', _⟩ | ⟨_, hrejected⟩
  · exact absurd h' (h.not_corrupted hfield hcorrupts hdetectable hfield')
  · exact hrejected

theorem corrupted_datagram_rejected_dest :
    ∃ e, UDPPacket.from_packet { sampleDatagram with dest := Ipv4Addr.new 10 0 2 3 } = ok (.error e) := by
  have hchange : WordChange sampleDatagram.dest.octets.val (Ipv4Addr.new 10 0 2 3).octets.val 0x0202 0x0203 :=
    WordChange.pair (show ([10, 0] : List UInt8).length % 2 = 0 from rfl) 2 2 2 3
  exact corrupted_datagram_rejected (UDPPacket.from_packet_eq_ok_iff.mpr ⟨sampleDatagram_accepts, rfl⟩)
    (by decide) (.dest hchange) ⟨by decide, by decide, by decide⟩ (by decide)

end conc_os_net.udp
