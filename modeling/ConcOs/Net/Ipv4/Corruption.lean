import ConcOs.Net.Corruption
import ConcOs.Net.Ipv4.Reencode

open rust Result ones_complement

namespace conc_os_net.ipv4

/-- The big-endian word at an offset of a byte string. -/
def wordAt (s : Slice UInt8) (k : Nat) : Nat := 256 * (s.byte k).toNat + (s.byte (k + 1)).toNat

/-- The second byte string is as long as the first and differs from it in no
byte outside the word at `k`. -/
structure DiffersAt (k : Nat) (b b' : Slice UInt8) : Prop where
  length : b'.len = b.len
  agree : ∀ i, i ≠ k → i ≠ k + 1 → b'.byte i = b.byte i

/-- The headers of two byte strings that differ in a word of them, and not in
the header length, differ by the change of that word. -/
theorem DiffersAt.header {k : Nat} {b b' : Slice UInt8} (h : DiffersAt k b b') (heven : k % 2 = 0)
    (hbelow : k < headerLen b) (hheader : headerLen b ≤ b.len) :
    WordChange (b.val.take (headerLen b)) (b'.val.take (headerLen b)) (wordAt b k) (wordAt b' k) := by
  have hend : k + 1 < headerLen b := by
    rw [headerLen] at hbelow ⊢
    omega
  have hlen : b'.val.length = b.val.length := h.length
  have hfits : headerLen b ≤ b.val.length := hheader
  have hbyte : ∀ (s : Slice UInt8) (i : Nat), i < headerLen b →
    (s.val.take (headerLen b)).getD i 0 = s.byte i := by
    intro s i hi
    rw [Slice.byte, List.getD_eq_getElem?_getD, List.getD_eq_getElem?_getD, List.getElem?_take_of_lt hi]
  rw [wordAt, wordAt, ← hbyte b k hbelow, ← hbyte b (k + 1) hend, ← hbyte b' k hbelow, ← hbyte b' (k + 1) hend]
  apply WordChange.of_agree heven
  · rw [List.length_take]
    omega
  · rw [List.length_take, List.length_take, hlen]
  · intro i hfirst hsecond
    by_cases hi : i < headerLen b
    · rw [hbyte b' i hi, hbyte b i hi, h.agree i hfirst hsecond]
    · rw [List.getD_eq_default _ _ (by rw [List.length_take]; omega),
        List.getD_eq_default _ _ (by rw [List.length_take]; omega)]

/-- Of two byte strings that differ in one word of the header, at most one is
accepted: whatever the total length in them says, both checksums run over the
same part of the packet. -/
theorem Accepts.not_differs {k : Nat} {b b' : Slice UInt8} (h : Accepts b) (hdiffers : DiffersAt k b b')
    (heven : k % 2 = 0) (hbelow : k < headerLen b) (hihl : headerLen b' = headerLen b)
    (hdetectable : Detectable (wordAt b k) (wordAt b' k)) : ¬ Accepts b' := by
  intro h'
  have hchange := hdiffers.header heven hbelow (h.header_le.trans h.total_le)
  have hverifies := h.verifies
  have hverifies' := h'.verifies
  rw [hihl] at hverifies'
  rw [← Nat.zero_add (wordSum _)] at hverifies hverifies'
  exact hchange.checksumOf_ne_zero hdetectable 0 hverifies hverifies'

/-- An accepted packet is no longer accepted once a single word of its header
is changed, unless the change is between the two representations of zero or
moves the end of the header. -/
theorem corrupted_header_rejected {b b' : Slice UInt8} {p : Ipv4Packet} {k : Nat}
    (hparse : Ipv4Packet.from_packet b = ok (.ok p)) (heven : k % 2 = 0)
    (hbelow : k < 4 * ((b.byte 0).toNat % 16)) (hdiffers : DiffersAt k b b')
    (hihl : (b'.byte 0).toNat % 16 = (b.byte 0).toNat % 16)
    (hdetectable : Detectable (wordAt b k) (wordAt b' k)) :
    ∃ e, Ipv4Packet.from_packet b' = ok (.error e) := by
  obtain ⟨h, _⟩ := Ipv4Packet.from_packet_eq_ok_iff.mp hparse
  have hheader : headerLen b' = headerLen b := by rw [headerLen, hihl, headerLen]
  rcases Ipv4Packet.from_packet_spec b' with ⟨h', _⟩ | ⟨_, hrejected⟩
  · rw [Nat.mul_comm] at hbelow
    exact absurd h' (h.not_differs hdiffers heven hbelow hheader hdetectable)
  · exact hrejected

/-- A packet whose total length is lowered: the shorter packet would fit, and
only the checksum gives the change away. -/
theorem corrupted_header_rejected_total : ∃ e, Ipv4Packet.from_packet
    ⟨[0x45, 0, 0, 20, 0xBA, 0xEA, 0, 0, 0, 0, 0xFF, 0xFF, 0, 0, 0, 0, 0, 0, 0, 0, 7], by decide⟩ =
      ok (.error e) := by
  let b : Slice UInt8 := ⟨[0x45, 0, 0, 21, 0xBA, 0xEA, 0, 0, 0, 0, 0xFF, 0xFF, 0, 0, 0, 0, 0, 0, 0, 0, 7],
    by decide⟩
  have haccepts : Accepts b := ⟨by decide, by decide, by decide, by decide, by decide, by decide⟩
  refine corrupted_header_rejected (b := b) (k := 2) (Ipv4Packet.from_packet_eq_ok_iff.mpr ⟨haccepts, rfl⟩)
    (by decide) (by decide) ⟨rfl, ?_⟩ rfl ⟨by decide, by decide, by decide⟩
  intro i hfirst hsecond
  by_cases hi : i < 21
  · interval_cases i <;> first | rfl | omega
  · rw [Slice.byte, Slice.byte, List.getD_eq_default _ _ (by simpa using hi),
      List.getD_eq_default _ _ (by simpa [b] using hi)]

end conc_os_net.ipv4
