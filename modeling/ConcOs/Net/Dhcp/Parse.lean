import ConcOs.Net.Dhcp.Options

open rust Result
open conc_os_net.ethernet

namespace conc_os_net.dhcp

theorem DHCPMessageType.try_from_eq_some {value : UInt8} {ty : DHCPMessageType} :
    DHCPMessageType.try_from value = some ty ↔ value = ty.as_u8 := by
  constructor
  · intro h
    unfold DHCPMessageType.try_from at h
    split_ifs at h <;> cases h <;> assumption
  · rintro rfl
    cases ty <;> rfl

theorem DHCPMessageType.try_from_isSome_iff {value : UInt8} :
    (DHCPMessageType.try_from value).isSome ↔ 1 ≤ value.toNat ∧ value.toNat ≤ 8 := by
  have hbyte : ∀ b : UInt8, value = b ↔ value.toNat = b.toNat := fun b => UInt8.toNat_inj.symm
  unfold DHCPMessageType.try_from
  simp only [hbyte, UInt8.reduceToNat]
  split_ifs <;> simp only [Option.isSome_some, Option.isSome_none, true_iff, Bool.false_eq_true,
    false_iff] <;> omega

theorem parse_addr_eq (value : Slice UInt8) :
    parse_addr value = match addrOf value.val with
      | some addr => .ok addr
      | none => .error .InvalidTLV := by
  unfold parse_addr addrOf Slice.try_into
  by_cases hlen : value.val.length = 4 <;> simp [hlen]

theorem addrOf_of_length {value : List UInt8} (h : value.length = 4) : ∃ addr, addrOf value = some addr :=
  ⟨_, dif_pos h⟩

theorem addrOf_eq_none {value : List UInt8} (h : value.length ≠ 4) : addrOf value = none := dif_neg h

/-- The filtered first byte of a message type option. -/
theorem message_type_eq (value : Slice UInt8) :
    ((value.get 0).filter fun _ => value.len = 1).bind DHCPMessageType.try_from =
      match value.val with
      | [ty] => DHCPMessageType.try_from ty
      | _ => none := by
  obtain ⟨bytes, hbytes⟩ := value
  match bytes with
  | [] => rfl
  | [ty] => rfl
  | _ :: _ :: _ => simp [Slice.get, Slice.len, Option.filter]

/-- One more option replaces what was found for its tag. -/
theorem optionsOf_append_option (items : List Item) (tag : UInt8) (value : List UInt8) :
    optionsOf (items ++ [.option tag value]) = {
      message_type :=
        if tag = OPT_MESSAGE_TYPE then value.head?.bind DHCPMessageType.try_from
        else (optionsOf items).message_type
      subnet_mask := if tag = OPT_SUBNET_MASK then addrOf value else (optionsOf items).subnet_mask
      router := if tag = OPT_ROUTER then addrOf (value.take 4) else (optionsOf items).router
      server_id := if tag = OPT_SERVER_ID then addrOf value else (optionsOf items).server_id } := by
  have hfield : ∀ {α : Type} (wanted : UInt8) (f : List UInt8 → Option α),
      (lastValue wanted (items ++ [.option tag value])).bind f =
        if tag = wanted then f value else (lastValue wanted items).bind f := by
    intro α wanted f
    rw [lastValue_append_option]
    split <;> rfl
  simp only [optionsOf, hfield]

/-- An option whose value its tag allows is recorded as the last one of its
kind. -/
theorem parse_option_allowed {tag : UInt8} {value : Slice UInt8} (items : List Item)
    (hallowed : Item.Allowed tag value.val) :
    parse_option (optionsOf items) tag value = ok (.ok (optionsOf (items ++ [.option tag value.val]))) := by
  rw [optionsOf_append_option, parse_option]
  by_cases hmask : tag = OPT_SUBNET_MASK
  · obtain ⟨addr, haddr⟩ := addrOf_of_length (hallowed.addr (Or.inl hmask))
    subst hmask
    rw [if_pos rfl, parse_addr_eq, haddr, if_neg (by decide), if_pos rfl, if_neg (by decide),
      if_neg (by decide)]
    rfl
  rw [if_neg hmask, if_neg hmask]
  by_cases hrouter : tag = OPT_ROUTER
  · obtain ⟨hpos, hdvd⟩ := hallowed.router hrouter
    rw [Slice.length_val] at hpos hdvd
    have hlen : 4 ≤ value.len := by omega
    have htest : ¬ (value.len = 0 ∨ value.len % 4 ≠ 0) := by omega
    obtain ⟨addr, haddr⟩ := addrOf_of_length (show (value.val.take 4).length = 4 by
      rw [List.length_take, Slice.length_val]
      omega)
    have hfirst : addrOf (value.sub 0 4).val = some addr := haddr
    subst hrouter
    rw [if_pos rfl, if_neg htest, Slice.range_to_eq hlen, bind_tc_ok, parse_addr_eq, hfirst, haddr,
      if_neg (by decide), if_pos rfl, if_neg (by decide)]
    rfl
  rw [if_neg hrouter, if_neg hrouter]
  by_cases hserver : tag = OPT_SERVER_ID
  · obtain ⟨addr, haddr⟩ := addrOf_of_length (hallowed.addr (Or.inr hserver))
    subst hserver
    rw [if_pos rfl, parse_addr_eq, haddr, if_neg (by decide), if_pos rfl]
    rfl
  rw [if_neg hserver, if_neg hserver]
  by_cases htype : tag = OPT_MESSAGE_TYPE
  · obtain ⟨ty, hvalue, hrange⟩ := hallowed.message_type htype
    obtain ⟨kind, hkind⟩ := Option.isSome_iff_exists.mp (DHCPMessageType.try_from_isSome_iff.mpr hrange)
    rw [if_pos htype, if_pos htype, message_type_eq, hvalue, List.head?_cons, Option.bind_some]
    simp only [hkind, pure_eq_ok]
  · rw [if_neg htype, if_neg htype]
    rfl

/-- An address option is allowed four bytes. -/
theorem Item.Allowed.of_addr {tag : UInt8} {value : List UInt8}
    (htag : tag = OPT_SUBNET_MASK ∨ tag = OPT_SERVER_ID) (hlen : value.length = 4) : Item.Allowed tag value := by
  rcases htag with rfl | rfl <;>
    exact ⟨fun _ => hlen, fun h => absurd h (by decide), fun h => absurd h (by decide)⟩

/-- An option whose value its tag does not allow is an error. -/
theorem parse_option_not_allowed {parsed : Options} {tag : UInt8} {value : Slice UInt8}
    (hnot : ¬ Item.Allowed tag value.val) :
    parse_option parsed tag value = ok (.error .InvalidTLV) := by
  have haddr : tag = OPT_SUBNET_MASK ∨ tag = OPT_SERVER_ID → parse_addr value = .error .InvalidTLV := by
    intro htag
    rw [parse_addr_eq, addrOf_eq_none fun hlen => hnot (.of_addr htag hlen)]
  rw [parse_option]
  by_cases hmask : tag = OPT_SUBNET_MASK
  · rw [if_pos hmask, haddr (Or.inl hmask)]
    rfl
  rw [if_neg hmask]
  by_cases hrouter : tag = OPT_ROUTER
  · have htest : value.len = 0 ∨ value.len % 4 ≠ 0 := by
      by_contra htest
      subst hrouter
      refine hnot ⟨fun h => absurd h (by decide), fun _ => ?_, fun h => absurd h (by decide)⟩
      rw [Slice.length_val]
      omega
    rw [if_pos hrouter, if_pos htest]
    rfl
  rw [if_neg hrouter]
  by_cases hserver : tag = OPT_SERVER_ID
  · rw [if_pos hserver, haddr (Or.inr hserver)]
    rfl
  rw [if_neg hserver]
  by_cases htype : tag = OPT_MESSAGE_TYPE
  · have hnone : (match value.val with
        | [ty] => DHCPMessageType.try_from ty
        | _ => none) = none := by
      split
      · rename_i ty hvalue
        by_contra hsome
        refine hnot ⟨by simp [hmask, hserver], by simp [hrouter], fun _ => ⟨ty, hvalue, ?_⟩⟩
        exact DHCPMessageType.try_from_isSome_iff.mp (Option.isSome_iff_ne_none.mpr hsome)
      · rfl
    rw [if_pos htype, message_type_eq, hnone]
    rfl
  · exact absurd ⟨by simp [hmask, hserver], by simp [hrouter], by simp [htype]⟩ hnot

/-- The fields `parse_options` reads to their End. -/
structure Splits (field : List UInt8) (items : List Item) (rest : List UInt8) : Prop where
  bytes : field = encode items ++ OPT_END :: rest
  wellFormed : ∀ item ∈ items, item.WellFormed

/-- What the loop of `parse_options` has read when its cursor is at `cur`. -/
structure Scanned (options : Slice UInt8) (cur : Nat) (items : List Item) : Prop where
  bound : cur ≤ options.len
  bytes : options.val = encode items ++ options.val.drop cur
  wellFormed : ∀ item ∈ items, item.WellFormed

/-- Reading one more item moves the cursor past its bytes. -/
theorem Scanned.push {options : Slice UInt8} {cur : Nat} {items : List Item}
    (h : Scanned options cur items) (item : Item) (left : List UInt8) (hitem : item.WellFormed)
    (hleft : options.val.drop cur = item.encode ++ left) :
    Scanned options (cur + item.encode.length) (items ++ [item]) := by
  have hdrop : options.val.drop (cur + item.encode.length) = left := by
    rw [← List.drop_drop, hleft, List.drop_left]
  have hlen := congrArg List.length hleft
  have hbound := h.bound
  simp only [List.length_drop, List.length_append, Slice.length_val] at hlen
  refine ⟨by omega, ?_, ?_⟩
  · rw [hdrop, encode_append, List.append_assoc, encode_cons, encode_nil, List.append_nil, ← hleft]
    exact h.bytes
  · intro other hother
    rcases List.mem_append.mp hother with hmem | hmem
    · exact h.wellFormed other hmem
    · rw [List.mem_singleton.mp hmem]
      exact hitem

/-- A split of the whole field continues one of the part not yet read. -/
theorem Scanned.left_of_splits {options : Slice UInt8} {cur : Nat} {items all : List Item}
    {rest : List UInt8} (h : Scanned options cur items) (hsplits : Splits options.val all rest) :
    ∃ more, options.val.drop cur = encode more ++ OPT_END :: rest ∧ ∀ item ∈ more, item.WellFormed := by
  obtain ⟨more, rfl, hleft⟩ := encode_append_cancel h.wellFormed hsplits.wellFormed
    (h.bytes.symm.trans hsplits.bytes)
  exact ⟨more, hleft, fun item hitem => hsplits.wellFormed item (List.mem_append_right _ hitem)⟩

/-- What the loop of `parse_options` may return. -/
def Parses (options : Slice UInt8) : Except DHCPError Options → Prop
  | .ok parsed => ∃ items rest, Splits options.val items rest ∧ parsed = optionsOf items
  | .error _ => ∀ items rest, ¬ Splits options.val items rest

/-- An option with a tag other than Pad and End: the rest of one iteration of
`parse_options`. -/
theorem parse_options_step_option {options : Slice UInt8} {cur : Nat} {items : List Item}
    (h : Scanned options cur items) (hcur : cur < options.len) (hpad : options.byte cur ≠ OPT_PAD)
    (hend : options.byte cur ≠ OPT_END) :
    (∃ next more, parse_options_step options (cur, optionsOf items) = ok (.cont (next, optionsOf more)) ∧
        Scanned options next more ∧ cur < next) ∨
      ∃ e, parse_options_step options (cur, optionsOf items) = ok (.done (.error e)) ∧
        Parses options (.error e) := by
  have hmem : isizeMax + 300 ≤ usizeMax := by decide
  have hle := options.len_le
  have hcons := Slice.drop_eq_byte_cons hcur
  have hinv : ∀ all rest, Splits options.val all rest → ∃ value after,
      options.val.drop (cur + 1) = UInt8.ofNat value.length :: (value ++ after) ∧ value.length < 256 ∧
        Item.Allowed (options.byte cur) value := by
    intro all rest hsplits
    obtain ⟨more, hleft, hmore⟩ := h.left_of_splits hsplits
    exact encode_option_inv hpad hend hmore (hcons.symm.trans hleft)
  simp only [parse_options_step, if_pos hcur, Slice.index_byte hcur, bind_tc_ok, if_neg hpad, if_neg hend,
    Usize.add_eq (show cur + 1 ≤ usizeMax by omega), Usize.add_eq (show cur + 2 ≤ usizeMax by omega)]
  by_cases hlenByte : cur + 1 < options.len
  swap
  · -- The length byte is missing.
    have hget : options.get (cur + 1) = none := List.getElem?_eq_none (by rw [Slice.length_val]; omega)
    refine Or.inr ⟨.InvalidTLV, by simp only [hget, pure_eq_ok], fun all rest hsplits => ?_⟩
    obtain ⟨value, after, htail, _⟩ := hinv all rest hsplits
    rw [List.drop_eq_nil_of_le (by rw [Slice.length_val]; omega)] at htail
    cases htail
  have hget : options.get (cur + 1) = some (options.byte (cur + 1)) := by
    rw [Slice.get, Slice.byte, List.getD_eq_getElem?_getD, List.getElem?_eq_getElem hlenByte]
    rfl
  have hcount := (options.byte (cur + 1)).toNat_lt
  have hcons' := Slice.drop_eq_byte_cons hlenByte
  rw [hget]
  simp only [Usize.add_eq (show cur + 2 + (options.byte (cur + 1)).toNat ≤ usizeMax by omega), bind_tc_ok,
    Usize.add_eq (show 2 + (options.byte (cur + 1)).toNat ≤ usizeMax by omega),
    Usize.add_eq (show cur + (2 + (options.byte (cur + 1)).toNat) ≤ usizeMax by omega)]
  by_cases hvalue : cur + 2 + (options.byte (cur + 1)).toNat ≤ options.len
  swap
  · -- The value runs past the end.
    have hrange : options.get_range (cur + 2) (cur + 2 + (options.byte (cur + 1)).toNat) = none :=
      if_neg (by omega)
    refine Or.inr ⟨.InvalidTLV, by simp only [hrange, pure_eq_ok], fun all rest hsplits => ?_⟩
    obtain ⟨value, after, htail, hlt, _⟩ := hinv all rest hsplits
    rw [hcons', List.cons.injEq] at htail
    have hlen := congrArg List.length htail.2
    simp only [List.length_drop, List.length_append, Slice.length_val] at hlen
    rw [htail.1, UInt8.toNat_ofNat'] at hvalue
    omega
  have hrange : options.get_range (cur + 2) (cur + 2 + (options.byte (cur + 1)).toNat) =
      some (options.sub (cur + 2) (cur + 2 + (options.byte (cur + 1)).toNat)) := if_pos ⟨by omega, hvalue⟩
  obtain ⟨value, hvalueEq⟩ : ∃ value,
      value = options.sub (cur + 2) (cur + 2 + (options.byte (cur + 1)).toNat) := ⟨_, rfl⟩
  have hvalueLen : value.val.length = (options.byte (cur + 1)).toNat := by
    rw [hvalueEq, Slice.length_val, Slice.len_sub options hvalue]
    omega
  have hbytes : options.val.drop (cur + 2) =
      value.val ++ options.val.drop (cur + 2 + (options.byte (cur + 1)).toNat) := by
    have hsplit := List.take_append_drop (options.byte (cur + 1)).toNat (options.val.drop (cur + 2))
    rw [List.drop_drop] at hsplit
    rw [hvalueEq, Slice.val_sub, Nat.add_sub_cancel_left, hsplit]
  rw [hrange, ← hvalueEq]
  by_cases hallowed : Item.Allowed (options.byte cur) value.val
  · refine Or.inl ⟨cur + (2 + (options.byte (cur + 1)).toNat),
      items ++ [.option (options.byte cur) value.val], ?_, ?_, by omega⟩
    · simp only [parse_option_allowed items hallowed, bind_tc_ok, pure_eq_ok]
    · have hencode : (Item.option (options.byte cur) value.val).encode.length =
          2 + (options.byte (cur + 1)).toNat := by
        simp only [Item.encode, List.length_cons, hvalueLen]
        omega
      rw [← hencode]
      refine h.push (.option (options.byte cur) value.val)
        (options.val.drop (cur + 2 + (options.byte (cur + 1)).toNat))
        ⟨hpad, hend, by rw [hvalueLen]; omega, hallowed⟩ ?_
      rw [hcons, hcons', hbytes, Item.encode, hvalueLen, UInt8.ofNat_toNat]
      rfl
  · -- The value is one its tag does not allow.
    refine Or.inr ⟨.InvalidTLV, ?_, fun all rest hsplits => ?_⟩
    · simp only [parse_option_not_allowed hallowed, bind_tc_ok, pure_eq_ok]
    · obtain ⟨value', after, htail, hlt, hok⟩ := hinv all rest hsplits
      rw [hcons', List.cons.injEq] at htail
      have hlen : value.val.length = value'.length := by
        rw [hvalueLen, htail.1, UInt8.toNat_ofNat']
        omega
      have hsame := (List.append_inj (hbytes.symm.trans htail.2) hlen).1
      exact hallowed (hsame ▸ hok)

/-- One iteration of `parse_options` either reads an item, or ends with the
verdict that the field has, or has not, a well-formed split. -/
theorem parse_options_step_spec {options : Slice UInt8} {cur : Nat} {items : List Item}
    (h : Scanned options cur items) :
    (∃ next more, parse_options_step options (cur, optionsOf items) = ok (.cont (next, optionsOf more)) ∧
        Scanned options next more ∧ cur < next) ∨
      ∃ result, parse_options_step options (cur, optionsOf items) = ok (.done result) ∧
        Parses options result := by
  have hmem : isizeMax + 300 ≤ usizeMax := by decide
  have hle := options.len_le
  by_cases hcur : cur < options.len
  swap
  · refine Or.inr ⟨.error .InvalidTLV, by simp only [parse_options_step, if_neg hcur, pure_eq_ok],
      fun all rest hsplits => ?_⟩
    obtain ⟨more, hleft, _⟩ := h.left_of_splits hsplits
    rw [List.drop_eq_nil_of_le (by rw [Slice.length_val]; omega)] at hleft
    simp at hleft
  have hcons := Slice.drop_eq_byte_cons hcur
  by_cases hpad : options.byte cur = OPT_PAD
  · refine Or.inl ⟨cur + 1, items ++ [.pad], ?_, ?_, by omega⟩
    · have hsame : optionsOf (items ++ [.pad]) = optionsOf items := by
        simp only [optionsOf, lastValue_append_pad]
      simp only [parse_options_step, if_pos hcur, Slice.index_byte hcur, bind_tc_ok, if_pos hpad,
        Usize.add_eq (show cur + 1 ≤ usizeMax by omega), hsame, pure_eq_ok]
    · exact h.push .pad (options.val.drop (cur + 1)) trivial (by rw [hcons, hpad]; rfl)
  by_cases hend : options.byte cur = OPT_END
  · refine Or.inr ⟨.ok (optionsOf items), ?_, items, options.val.drop (cur + 1), ⟨?_, h.wellFormed⟩, rfl⟩
    · simp only [parse_options_step, if_pos hcur, Slice.index_byte hcur, bind_tc_ok, if_neg hpad,
        if_pos hend, pure_eq_ok]
    · rw [← hend, ← hcons]
      exact h.bytes
  rcases parse_options_step_option h hcur hpad hend with hcont | ⟨e, hstep, hverdict⟩
  · exact Or.inl hcont
  · exact Or.inr ⟨.error e, hstep, hverdict⟩

/-- The loop of `parse_options` ends on every input, and accepts exactly the
fields that are well-formed items closed by an End byte. -/
theorem parse_options_spec (options : Slice UInt8) :
    ∃ result, parse_options options = ok result ∧ Parses options result := by
  refine loop_spec (fun state => ∃ items, state.2 = optionsOf items ∧ Scanned options state.1 items)
    (Parses options) (fun state => options.len - state.1) ?_ (options.len + 1) (0, Options.default)
    ⟨[], rfl, Nat.zero_le _, by simp, by simp⟩ (by simp)
  rintro ⟨cur, parsed⟩ ⟨items, rfl, hscanned⟩
  rcases parse_options_step_spec hscanned with ⟨next, more, hstep, hnext, hlt⟩ | ⟨result, hstep, hverdict⟩
  · have hbound := hnext.bound
    exact Or.inl ⟨(next, optionsOf more), hstep, ⟨more, rfl, hnext⟩, by dsimp only; omega⟩
  · exact Or.inr ⟨result, hstep, hverdict⟩

end conc_os_net.dhcp
