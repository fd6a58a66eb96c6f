import ConcOs.Net.Checksum

open rust Result ones_complement

namespace conc_os_net.ipv4

/-- The second byte string is the first with one even-aligned word replaced. A
last odd byte is a word padded by zero. -/
inductive WordChange : List UInt8 → List UInt8 → Nat → Nat → Prop where
  | pair {before after : List UInt8} (heven : before.length % 2 = 0) (a b a' b' : UInt8) :
      WordChange (before ++ a :: b :: after) (before ++ a' :: b' :: after) (256 * a.toNat + b.toNat)
        (256 * a'.toNat + b'.toNat)
  | last {before : List UInt8} (heven : before.length % 2 = 0) (a a' : UInt8) :
      WordChange (before ++ [a]) (before ++ [a']) (256 * a.toNat) (256 * a'.toNat)

/-- The change is one the checksum can see: to a different word, and not
between the two representations of zero. -/
structure Detectable (word word' : Nat) : Prop where
  ne : word ≠ word'
  rise : ¬ (word = 0 ∧ word' = 0xFFFF)
  fall : ¬ (word = 0xFFFF ∧ word' = 0)

theorem WordChange.length_eq {bytes bytes' : List UInt8} {word word' : Nat}
    (h : WordChange bytes bytes' word word') : bytes'.length = bytes.length := by
  cases h <;> simp

/-- Two byte strings of one length that agree outside the word at an even
offset differ by the change of that word. -/
theorem WordChange.of_agree {bytes bytes' : List UInt8} {k : Nat} (heven : k % 2 = 0)
    (hk : k + 1 < bytes.length) (hlen : bytes'.length = bytes.length)
    (hagree : ∀ i, i ≠ k → i ≠ k + 1 → bytes'.getD i 0 = bytes.getD i 0) :
    WordChange bytes bytes' (256 * (bytes.getD k 0).toNat + (bytes.getD (k + 1) 0).toNat)
      (256 * (bytes'.getD k 0).toNat + (bytes'.getD (k + 1) 0).toNat) := by
  have hsplit : ∀ list : List UInt8, k + 1 < list.length →
      list = list.take k ++ list.getD k 0 :: list.getD (k + 1) 0 :: list.drop (k + 2) := by
    intro list hlist
    rw [List.getD_eq_getElem _ _ (by omega), List.getD_eq_getElem _ _ hlist, List.getElem_cons_drop,
      List.getElem_cons_drop, List.take_append_drop]
  have hget : ∀ i, i ≠ k → i ≠ k + 1 → bytes'[i]? = bytes[i]? := by
    intro i hfirst hsecond
    by_cases hi : i < bytes.length
    · have h := hagree i hfirst hsecond
      rw [List.getD_eq_getElem _ _ (by omega), List.getD_eq_getElem _ _ hi] at h
      rw [List.getElem?_eq_getElem (by omega), List.getElem?_eq_getElem hi, h]
    · rw [List.getElem?_eq_none (by omega), List.getElem?_eq_none (by omega)]
  have hbefore : bytes'.take k = bytes.take k := by
    apply List.ext_getElem?
    intro i
    by_cases hi : i < k
    · rw [List.getElem?_take_of_lt hi, List.getElem?_take_of_lt hi, hget i (by omega) (by omega)]
    · rw [List.getElem?_take_eq_none (by omega), List.getElem?_take_eq_none (by omega)]
  have hafter : bytes'.drop (k + 2) = bytes.drop (k + 2) := by
    apply List.ext_getElem?
    intro i
    rw [List.getElem?_drop, List.getElem?_drop, hget _ (by omega) (by omega)]
  have hsplit' := hsplit bytes' (by omega)
  rw [hbefore, hafter] at hsplit'
  have hlength : (bytes.take k).length % 2 = 0 := by
    rw [List.length_take]
    omega
  have hchange := @WordChange.pair (bytes.take k) (bytes.drop (k + 2)) hlength (bytes.getD k 0)
    (bytes.getD (k + 1) 0) (bytes'.getD k 0) (bytes'.getD (k + 1) 0)
  rwa [← hsplit bytes hk, ← hsplit'] at hchange

theorem WordChange.word_le {bytes bytes' : List UInt8} {word word' : Nat}
    (h : WordChange bytes bytes' word word') : word ≤ 65535 ∧ word' ≤ 65535 := by
  cases h with
  | pair heven a b a' b' =>
    have ha := a.toNat_lt
    have hb := b.toNat_lt
    have ha' := a'.toNat_lt
    have hb' := b'.toNat_lt
    omega
  | last heven a a' =>
    have ha := a.toNat_lt
    have ha' := a'.toNat_lt
    omega

/-- The rest of the words sum up to the same before and after. -/
theorem WordChange.wordSum_eq {bytes bytes' : List UInt8} {word word' : Nat}
    (h : WordChange bytes bytes' word word') :
    ∃ rest, wordSum bytes = rest + word ∧ wordSum bytes' = rest + word' := by
  cases h with
  | @pair before after heven a b a' b' =>
    refine ⟨wordSum before + wordSum after, ?_, ?_⟩ <;>
    · rw [wordSum_append heven, wordSum]
      omega
  | @last before heven a a' =>
    refine ⟨wordSum before, ?_, ?_⟩ <;> rw [wordSum_append heven, wordSum]

/-- A checksum over a sum that contains the changed words verifies for at most
one of the two. -/
theorem WordChange.checksumOf_ne_zero {bytes bytes' : List UInt8} {word word' : Nat}
    (h : WordChange bytes bytes' word word') (hdetectable : Detectable word word') (others : Nat)
    (hverifies : checksumOf (others + wordSum bytes) = 0) : checksumOf (others + wordSum bytes') ≠ 0 := by
  obtain ⟨rest, hbytes, hbytes'⟩ := h.wordSum_eq
  rw [hbytes, ← Nat.add_assoc] at hverifies
  rw [hbytes', ← Nat.add_assoc]
  exact checksumOf_ne_zero_of_word h.word_le.1 h.word_le.2 hdetectable.ne hdetectable.rise hdetectable.fall
    hverifies

end conc_os_net.ipv4
