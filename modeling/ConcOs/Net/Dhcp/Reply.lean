import ConcOs.Net.Dhcp.Parse

open rust Result
open conc_os_net.ethernet

namespace conc_os_net.dhcp

/-- A field has at most one split into well-formed items. -/
theorem Splits.unique {field : List UInt8} {items items' : List Item} {rest rest' : List UInt8}
    (h : Splits field items rest) (h' : Splits field items' rest') : items = items' := by
  obtain ⟨more, rfl, hleft⟩ := encode_append_cancel h.wellFormed h'.wellFormed
    (h.bytes.symm.trans h'.bytes)
  cases more with
  | nil => simp
  | cons item more =>
    have hitem := h'.wellFormed item (by simp)
    cases item with
    | pad => simp [Item.encode, OPT_END, OPT_PAD] at hleft
    | option tag value =>
      simp only [encode_cons, Item.encode, List.cons_append, List.cons.injEq] at hleft
      exact absurd hleft.1.symm hitem.2.1

/-- The messages a client with hardware address `mac` reads as the reply of
type `kind` in the exchange `xid`: an Ethernet BOOTREPLY addressed to it, whose
options field is `items` closed by End, with the options a binding needs. -/
structure Reply (msg : Slice UInt8) (xid : UInt32) (mac : MacAddress) (kind : UInt8)
    (items : List Item) (rest : List UInt8) : Prop where
  length : 240 ≤ msg.len
  header : msg.val.take 3 = [2, 1, 6]
  cookie : (msg.val.drop 236).take 4 = [0x63, 0x82, 0x53, 0x63]
  exchange : (msg.val.drop 4).take 4 = U32.to_be_bytes xid
  client : (msg.val.drop 28).take 16 = mac.addr.val ++ List.replicate 10 0
  options : Splits (msg.val.drop 240) items rest
  message_type : lastValue 53 items = some [kind]
  subnet_mask : ∃ value, Item.option 1 value ∈ items
  router : ∃ value, Item.option 3 value ∈ items
  server_id : ∃ value, Item.option 54 value ∈ items
  address : (msg.val.drop 16).take 4 ≠ [0, 0, 0, 0]

/-- The binding a reply carries. -/
structure Binds (msg : Slice UInt8) (items : List Item) (b : DHCPBinding) : Prop where
  client_addr : (msg.val.drop 16).take 4 = b.client_addr.octets.val
  subnet_mask : lastValue 1 items = some b.subnet_mask.octets.val
  gateway : (lastValue 3 items).map (List.take 4) = some b.gateway.octets.val
  server_id : lastValue 54 items = some b.server_id.octets.val

/-- A tag that occurs has a last value, which is that of one of its items. -/
theorem lastValue_eq_some_of_mem {tag : UInt8} {value : List UInt8} {items : List Item}
    (hmem : Item.option tag value ∈ items) : ∃ last, lastValue tag items = some last := by
  have hvalue : value ∈ items.filterMap (Item.valueOf tag) :=
    List.mem_filterMap.mpr ⟨_, hmem, by simp [Item.valueOf]⟩
  exact ⟨_, List.getLast?_eq_getLast_of_ne_nil (List.ne_nil_of_mem hvalue)⟩

theorem mem_of_lastValue_eq_some {tag : UInt8} {last : List UInt8} {items : List Item}
    (hlast : lastValue tag items = some last) : Item.option tag last ∈ items := by
  obtain ⟨item, hmem, hitem⟩ := List.mem_filterMap.mp (List.mem_of_getLast? hlast)
  cases item with
  | pad => cases hitem
  | option tag' value =>
    simp only [Item.valueOf] at hitem
    split at hitem
    · rename_i htag
      cases hitem
      rwa [htag] at hmem
    · cases hitem

/-- An address option that occurs in a well-formed field has an address as its
last value. -/
theorem lastValue_bind_addrOf {tag : UInt8} {items : List Item}
    (htag : tag = OPT_SUBNET_MASK ∨ tag = OPT_SERVER_ID) (hitems : ∀ item ∈ items, item.WellFormed)
    (hoccurs : ∃ value, Item.option tag value ∈ items) :
    ∃ addr, (lastValue tag items).bind addrOf = some addr := by
  obtain ⟨value, hmem⟩ := hoccurs
  obtain ⟨last, hlast⟩ := lastValue_eq_some_of_mem hmem
  obtain ⟨addr, haddr⟩ := addrOf_of_length
    ((hitems _ (mem_of_lastValue_eq_some hlast)).2.2.2.addr htag)
  exact ⟨addr, by rw [hlast, Option.bind_some, haddr]⟩

theorem lastValue_bind_router {items : List Item} (hitems : ∀ item ∈ items, item.WellFormed)
    (hoccurs : ∃ value, Item.option OPT_ROUTER value ∈ items) :
    ∃ addr, ((lastValue OPT_ROUTER items).bind fun value => addrOf (value.take 4)) = some addr := by
  obtain ⟨value, hmem⟩ := hoccurs
  obtain ⟨last, hlast⟩ := lastValue_eq_some_of_mem hmem
  obtain ⟨hpos, hdvd⟩ := (hitems _ (mem_of_lastValue_eq_some hlast)).2.2.2.router rfl
  obtain ⟨addr, haddr⟩ := addrOf_of_length (show (last.take 4).length = 4 by
    rw [List.length_take]
    omega)
  exact ⟨addr, by rw [hlast, Option.bind_some, haddr]⟩

/-- The message type found is the expected one exactly when the last message
type option has its code. -/
theorem message_type_eq_some_iff {items : List Item} (hitems : ∀ item ∈ items, item.WellFormed)
    (ty : DHCPMessageType) :
    (optionsOf items).message_type = some ty ↔ lastValue 53 items = some [ty.as_u8] := by
  cases hlast : lastValue 53 items with
  | none => simp [optionsOf, OPT_MESSAGE_TYPE, hlast]
  | some last =>
    obtain ⟨code, rfl, _⟩ := (hitems _ (mem_of_lastValue_eq_some hlast)).2.2.2.message_type rfl
    simp [optionsOf, OPT_MESSAGE_TYPE, hlast, DHCPMessageType.try_from_eq_some]

/-- The parsed addresses are those of the binding. -/
theorem optionsOf_eq_some_iff {items : List Item} {mask router server : Ipv4Addr} :
    ((optionsOf items).subnet_mask = some mask ∧ (optionsOf items).router = some router ∧
        (optionsOf items).server_id = some server) ↔
      lastValue 1 items = some mask.octets.val ∧
        (lastValue 3 items).map (List.take 4) = some router.octets.val ∧
        lastValue 54 items = some server.octets.val := by
  simp only [optionsOf, OPT_SUBNET_MASK, OPT_ROUTER, OPT_SERVER_ID, Option.bind_eq_some_iff,
    addrOf_eq_some, Option.map_eq_some_iff, exists_eq_right]

/-- The verdict of `from_message`: a binding comes from a reply, and an error
means that there is none. -/
def Verdict (msg : Slice UInt8) (xid : UInt32) (mac : MacAddress) (kind : UInt8) :
    Except DHCPError DHCPBinding → Prop
  | .ok b => ∃ items rest, Reply msg xid mac kind items rest ∧ Binds msg items b
  | .error _ => ∀ items rest, ¬ Reply msg xid mac kind items rest

/-- The tail of `from_message`, once the header has been checked. -/
theorem from_message_options {msg : Slice UInt8} {xid : UInt32} {mac : MacAddress}
    {expected : DHCPMessageType} (hlen : 240 ≤ msg.len) (hheader : msg.val.take 3 = [2, 1, 6])
    (hcookie : (msg.val.drop 236).take 4 = [0x63, 0x82, 0x53, 0x63])
    (hxid : (msg.val.drop 4).take 4 = U32.to_be_bytes xid)
    (hclient : (msg.val.drop 28).take 16 = mac.addr.val ++ List.replicate 10 0) {options : Options}
    {items : List Item} {rest : List UInt8} (hsplits : Splits (msg.val.drop 240) items rest)
    (hoptions : options = optionsOf items) :
    ∃ result, (do
      if options.message_type ≠ some expected then return .error .WrongMessageType
      match options.subnet_mask, options.router, options.server_id with
      | some subnet_mask, some gateway, some server_id =>
        let octets ← unwrap "yiaddr is a four byte field" ((← msg.range 16 20).try_into 4)
        let client_addr := Ipv4Addr.from_octets octets
        if client_addr.is_unspecified then return .error .MissingData
        return .ok {
          client_addr := client_addr
          subnet_mask := subnet_mask
          gateway := gateway
          server_id := server_id }
      | _, _, _ => return .error .MissingData) = ok result ∧
      Verdict msg xid mac expected.as_u8 result := by
  subst hoptions
  have hwell := hsplits.wellFormed
  by_cases htype : (optionsOf items).message_type = some expected
  swap
  · refine ⟨.error .WrongMessageType, if_pos htype, fun items' rest' hreply => htype ?_⟩
    rw [hsplits.unique hreply.options]
    exact (message_type_eq_some_iff hreply.options.wellFormed expected).mpr hreply.message_type
  rw [if_neg (not_not.mpr htype)]
  by_cases hfound : ∃ mask router server, (optionsOf items).subnet_mask = some mask ∧
      (optionsOf items).router = some router ∧ (optionsOf items).server_id = some server
  swap
  · refine ⟨.error .MissingData, ?_, fun items' rest' hreply => hfound ?_⟩
    · split
      · exact absurd ⟨_, _, _, ‹_›, ‹_›, ‹_›⟩ hfound
      · rfl
    · rw [hsplits.unique hreply.options]
      obtain ⟨mask, hmask⟩ := lastValue_bind_addrOf (Or.inl rfl) hreply.options.wellFormed hreply.subnet_mask
      obtain ⟨router, hrouter⟩ := lastValue_bind_router hreply.options.wellFormed hreply.router
      obtain ⟨server, hserver⟩ := lastValue_bind_addrOf (Or.inr rfl) hreply.options.wellFormed hreply.server_id
      exact ⟨mask, router, server, hmask, hrouter, hserver⟩
  obtain ⟨mask, router, server, hmask, hrouter, hserver⟩ := hfound
  obtain ⟨octets, hoctets, hval⟩ := Slice.try_into_sub (s := msg) (i := 16) (j := 20) (n := 4) rfl (by omega)
  rw [hmask, hrouter, hserver, Slice.range_eq (by omega) (by omega)]
  simp only [bind_tc_ok, hoctets, unwrap_some]
  by_cases hzero : (Ipv4Addr.from_octets octets).is_unspecified = true
  · refine ⟨.error .MissingData, if_pos hzero, fun items' rest' hreply => hreply.address ?_⟩
    have haddr : Ipv4Addr.from_octets octets = Ipv4Addr.UNSPECIFIED := by
      simpa [Ipv4Addr.is_unspecified] using hzero
    rw [← hval]
    exact congrArg (fun addr : Ipv4Addr => addr.octets.val) haddr
  obtain ⟨hmaskLast, hrouterLast, hserverLast⟩ := optionsOf_eq_some_iff.mp ⟨hmask, hrouter, hserver⟩
  refine ⟨_, if_neg hzero, items, rest, ?_, hval.symm, hmaskLast, hrouterLast, hserverLast⟩
  refine ⟨hlen, hheader, hcookie, hxid, hclient, hsplits,
    (message_type_eq_some_iff hwell expected).mp htype, ⟨_, mem_of_lastValue_eq_some hmaskLast⟩, ?_,
    ⟨_, mem_of_lastValue_eq_some hserverLast⟩, ?_⟩
  · obtain ⟨last, hlast, _⟩ := Option.map_eq_some_iff.mp hrouterLast
    exact ⟨last, mem_of_lastValue_eq_some hlast⟩
  · intro haddr
    apply hzero
    have hunspecified : Ipv4Addr.from_octets octets = Ipv4Addr.UNSPECIFIED :=
      Ipv4Addr.ext_val (hval.trans haddr)
    rw [hunspecified]
    rfl

/-- `from_message` returns on every message, with the right verdict. -/
theorem DHCPBinding.from_message_spec (msg : Slice UInt8) (xid : UInt32) (mac : MacAddress)
    (expected : DHCPMessageType) :
    ∃ result, DHCPBinding.from_message msg xid mac expected = ok result ∧
      Verdict msg xid mac expected.as_u8 result := by
  unfold DHCPBinding.from_message
  by_cases hlen : msg.len < FIXED_LEN
  · exact ⟨_, if_pos hlen, fun items rest hreply => absurd hreply.length (by simpa [FIXED_LEN] using hlen)⟩
  have hmin : 240 ≤ msg.len := by simpa [FIXED_LEN] using hlen
  rw [if_neg hlen, Slice.index_byte (by omega), bind_tc_ok, Slice.index_byte (by omega), bind_tc_ok,
    Slice.index_byte (by omega), bind_tc_ok]
  have hthree := Slice.take_three (s := msg) (by omega)
  by_cases hkind : msg.byte 0 ≠ OP_BOOT_REPLY ∨ msg.byte 1 ≠ HTYPE_ETHERNET ∨ msg.byte 2 ≠ HLEN_ETHERNET
  · refine ⟨_, if_pos hkind, fun items rest hreply => ?_⟩
    have hheader := hreply.header
    rw [hthree] at hheader
    simp only [List.cons.injEq, and_true] at hheader
    rcases hkind with h | h | h
    · exact h hheader.1
    · exact h hheader.2.1
    · exact h hheader.2.2
  have hheader : msg.val.take 3 = [2, 1, 6] := by
    simp only [not_or, not_not] at hkind
    rw [hthree, hkind.1, hkind.2.1, hkind.2.2]
    rfl
  rw [if_neg hkind, Slice.range_eq (by omega) (by omega), bind_tc_ok]
  by_cases hcookie : (msg.val.drop 236).take 4 = [0x63, 0x82, 0x53, 0x63]
  swap
  · exact ⟨_, if_pos hcookie, fun items rest hreply => hcookie hreply.cookie⟩
  rw [if_neg (not_not.mpr (by exact hcookie)), Slice.range_eq (by omega) (by omega), bind_tc_ok,
    U32.from_be_slice_sub rfl (by omega), bind_tc_ok]
  have hfour : (msg.val.drop 4).take 4 = [msg.byte 4, msg.byte 5, msg.byte 6, msg.byte 7] :=
    Slice.val_sub_four (i := 4) (by omega)
  by_cases hxid : U32.from_be_bytes (msg.byte 4) (msg.byte (4 + 1)) (msg.byte (4 + 2)) (msg.byte (4 + 3)) = xid
  swap
  · refine ⟨_, if_pos hxid, fun items rest hreply => hxid ?_⟩
    exact U32.from_be_bytes_inj.mpr (hfour.symm.trans hreply.exchange)
  have hexchange : (msg.val.drop 4).take 4 = U32.to_be_bytes xid :=
    hfour.trans (U32.from_be_bytes_inj.mp hxid)
  rw [if_neg (not_not.mpr hxid), Slice.range_eq (by omega) (by omega), bind_tc_ok]
  by_cases hclient : (msg.val.drop 28).take 16 = mac.addr.val ++ List.replicate 10 0
  swap
  · exact ⟨_, if_pos hclient, fun items rest hreply => hclient hreply.client⟩
  rw [if_neg (not_not.mpr (by exact hclient)), Slice.range_from_eq (by simpa [FIXED_LEN] using hmin), bind_tc_ok]
  have hfield : (msg.sub FIXED_LEN msg.len).val = msg.val.drop 240 := by
    rw [Slice.val_sub, FIXED_LEN, ← Slice.length_val, ← List.length_drop, List.take_length]
  obtain ⟨result, hparse, hparses⟩ := parse_options_spec (msg.sub FIXED_LEN msg.len)
  rw [hparse, bind_tc_ok]
  cases result with
  | error e =>
    refine ⟨.error e, rfl, fun items rest hreply => hparses items rest ?_⟩
    rw [hfield]
    exact hreply.options
  | ok options =>
    obtain ⟨items, rest, hsplits, hoptions⟩ := hparses
    rw [hfield] at hsplits
    exact from_message_options hmin hheader hcookie hexchange hclient hsplits hoptions

theorem DHCPBinding.from_message_eq_ok_iff {msg : Slice UInt8} {xid : UInt32} {mac : MacAddress}
    {expected : DHCPMessageType} {b : DHCPBinding} :
    DHCPBinding.from_message msg xid mac expected = ok (.ok b) ↔
      ∃ items rest, Reply msg xid mac expected.as_u8 items rest ∧ Binds msg items b := by
  obtain ⟨result, heq, hverdict⟩ := DHCPBinding.from_message_spec msg xid mac expected
  rw [heq]
  cases result with
  | error e =>
    constructor
    · intro h
      cases h
    · rintro ⟨items, rest, hreply, _⟩
      exact absurd hreply (hverdict items rest)
  | ok found =>
    constructor
    · intro h
      cases h
      exact hverdict
    · rintro ⟨items, rest, hreply, hbinds⟩
      obtain ⟨items', rest', hreply', hbinds'⟩ := hverdict
      rw [hreply'.options.unique hreply.options] at hbinds'
      have hsame : found = b := by
        obtain ⟨addr, mask, gateway, server⟩ := found
        obtain ⟨addr', mask', gateway', server'⟩ := b
        congr 1
        · exact Ipv4Addr.ext_val (hbinds'.client_addr.symm.trans hbinds.client_addr)
        · exact Ipv4Addr.ext_val (Option.some.inj (hbinds'.subnet_mask.symm.trans hbinds.subnet_mask))
        · exact Ipv4Addr.ext_val (Option.some.inj (hbinds'.gateway.symm.trans hbinds.gateway))
        · exact Ipv4Addr.ext_val (Option.some.inj (hbinds'.server_id.symm.trans hbinds.server_id))
      rw [hsame]

/-- Every message either is a reply with a binding, or is rejected. -/
theorem DHCPBinding.from_message_cases (msg : Slice UInt8) (xid : UInt32) (mac : MacAddress)
    (expected : DHCPMessageType) :
    (∃ items rest b, Reply msg xid mac expected.as_u8 items rest ∧ Binds msg items b) ∨
      (∀ items rest, ¬ Reply msg xid mac expected.as_u8 items rest) ∧
        ∃ e, DHCPBinding.from_message msg xid mac expected = ok (.error e) := by
  obtain ⟨result, heq, hverdict⟩ := DHCPBinding.from_message_spec msg xid mac expected
  cases result with
  | error e => exact Or.inr ⟨hverdict, e, heq⟩
  | ok b =>
    obtain ⟨items, rest, hreply, hbinds⟩ := hverdict
    exact Or.inl ⟨items, rest, b, hreply, hbinds⟩

/-- A message is read as an offer, or as an acknowledgement, exactly when its
bytes follow the grammar of `Reply` with the message type 2, or 5, and the
result is then the binding its items describe. Every other message is an error:
the parser neither panics nor runs on. -/
theorem from_offer_from_ack_iff_reply (msg : Slice UInt8) (xid : UInt32) (mac : MacAddress) :
    (∀ b, DHCPBinding.from_offer msg xid mac = ok (.ok b) ↔
        ∃ items rest, Reply msg xid mac 2 items rest ∧ Binds msg items b) ∧
      ((∃ items rest b, Reply msg xid mac 2 items rest ∧ Binds msg items b) ∨
        (∀ items rest, ¬ Reply msg xid mac 2 items rest) ∧
          ∃ e, DHCPBinding.from_offer msg xid mac = ok (.error e)) ∧
      (∀ b, DHCPBinding.from_ack msg xid mac = ok (.ok b) ↔
        ∃ items rest, Reply msg xid mac 5 items rest ∧ Binds msg items b) ∧
      ((∃ items rest b, Reply msg xid mac 5 items rest ∧ Binds msg items b) ∨
        (∀ items rest, ¬ Reply msg xid mac 5 items rest) ∧
          ∃ e, DHCPBinding.from_ack msg xid mac = ok (.error e)) :=
  ⟨fun _ => DHCPBinding.from_message_eq_ok_iff, DHCPBinding.from_message_cases msg xid mac .Offer,
    fun _ => DHCPBinding.from_message_eq_ok_iff, DHCPBinding.from_message_cases msg xid mac .Ack⟩

end conc_os_net.dhcp
