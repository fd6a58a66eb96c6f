import ConcOs.Net.Dhcp.Build
import ConcOs.Net.Dhcp.Reply

open rust Result
open conc_os_net.ethernet

namespace conc_os_net.dhcp

/-- A field that splits into well-formed items is accepted, with the options
those items leave behind. -/
theorem Splits.parse_options_eq {options : Slice UInt8} {items : List Item} {rest : List UInt8}
    (h : Splits options.val items rest) : parse_options options = ok (.ok (optionsOf items)) := by
  obtain ⟨result, hparse, hverdict⟩ := parse_options_spec options
  cases result with
  | error e => exact absurd h (hverdict items rest)
  | ok parsed =>
    obtain ⟨items', rest', hsplits, rfl⟩ := hverdict
    rw [hparse, hsplits.unique h]

/-- What a client sends is never read as a reply. -/
theorem DHCPBinding.from_message_not_reply {msg : Slice UInt8} (hlen : 240 ≤ msg.len)
    (hop : msg.byte 0 ≠ OP_BOOT_REPLY) (xid : UInt32) (mac : MacAddress) (expected : DHCPMessageType) :
    DHCPBinding.from_message msg xid mac expected = ok (.error .NotAReply) := by
  have hshort : ¬ msg.len < FIXED_LEN := by
    rw [FIXED_LEN]
    omega
  rw [DHCPBinding.from_message, if_neg hshort, Slice.index_byte (by omega), bind_tc_ok,
    Slice.index_byte (by omega), bind_tc_ok, Slice.index_byte (by omega), bind_tc_ok, if_pos (Or.inl hop)]
  rfl

/-- The fields of a client message, by their offsets. -/
theorem messageBytes_fields (mac : MacAddress) (xid : UInt32) (options : List UInt8) :
    ((messageBytes mac xid options).drop 4).take 4 = U32.to_be_bytes xid ∧
      ((messageBytes mac xid options).drop 12).take 16 = List.replicate 16 0 ∧
      ((messageBytes mac xid options).drop 28).take 16 = mac.addr.val ++ List.replicate 10 0 ∧
      (messageBytes mac xid options).drop 240 = options ++ List.replicate (60 - options.length) 0 := by
  obtain ⟨a, b, c, d, e, f, hmac⟩ := mac.eq_six
  simp only [messageBytes, hmac]
  exact ⟨rfl, rfl, rfl, rfl⟩

/-- A message the client builds is rejected under every exchange and address. -/
theorem messageBytes_not_reply {msg : Slice UInt8} {mac : MacAddress} {xid : UInt32} {options : List UInt8}
    (hval : msg.val = messageBytes mac xid options) (hroom : options.length ≤ 60) (xid' : UInt32)
    (mac' : MacAddress) (expected : DHCPMessageType) :
    DHCPBinding.from_message msg xid' mac' expected = ok (.error .NotAReply) := by
  refine DHCPBinding.from_message_not_reply ?_ ?_ xid' mac' expected
  · rw [Slice.len, hval, length_messageBytes mac xid hroom]
    omega
  · have hhead : msg.byte 0 = OP_BOOT_REQUEST := by
      rw [Slice.byte, hval]
      rfl
    rw [hhead]
    decide

/-- The items of the options field of a DHCPREQUEST. -/
def requestItems (offer : DHCPBinding) : List Item :=
  [.option 53 [3], .option 50 offer.client_addr.octets.val, .option 54 offer.server_id.octets.val,
    .option 55 [1, 3]]

/-- A tag the client does not read allows every value. -/
theorem Item.Allowed.of_unread {tag : UInt8} (value : List UInt8) (hmask : tag ≠ OPT_SUBNET_MASK)
    (hserver : tag ≠ OPT_SERVER_ID) (hrouter : tag ≠ OPT_ROUTER) (htype : tag ≠ OPT_MESSAGE_TYPE) :
    Item.Allowed tag value :=
  ⟨fun h => absurd h (by simp [hmask, hserver]), fun h => absurd h hrouter, fun h => absurd h htype⟩

theorem requestItems_wellFormed (offer : DHCPBinding) : ∀ item ∈ requestItems offer, item.WellFormed := by
  have haddr := offer.client_addr.length_octets
  have hserver := offer.server_id.length_octets
  intro item hitem
  simp only [requestItems, List.mem_cons, List.not_mem_nil, or_false] at hitem
  rcases hitem with rfl | rfl | rfl | rfl
  · exact ⟨by decide, by decide, by decide, by decide, by decide, fun _ => ⟨3, rfl, by decide, by decide⟩⟩
  · exact ⟨by decide, by decide, by omega, .of_unread _ (by decide) (by decide) (by decide) (by decide)⟩
  · exact ⟨by decide, by decide, by omega, fun _ => hserver, fun h => absurd h (by decide),
      fun h => absurd h (by decide)⟩
  · exact ⟨by decide, by decide, by decide, .of_unread _ (by decide) (by decide) (by decide) (by decide)⟩

/-- The options field of a request splits into its items, and zeros after the
End byte. -/
theorem requestOptions_splits (offer : DHCPBinding) (pad : List UInt8) :
    Splits (requestOptions offer ++ pad) (requestItems offer) pad where
  bytes := by
    simp [requestOptions, requestItems, Item.encode, OPT_END]
  wellFormed := requestItems_wellFormed offer

theorem optionsOf_requestItems (offer : DHCPBinding) :
    optionsOf (requestItems offer) = ⟨some .Request, none, none, some offer.server_id⟩ := by
  have hserver : lastValue OPT_SERVER_ID (requestItems offer) = some offer.server_id.octets.val := rfl
  have haddr : addrOf offer.server_id.octets.val = some offer.server_id := addrOf_eq_some.mpr rfl
  rw [optionsOf, hserver, Option.bind_some, haddr]
  rfl

/-- The request for an offer names what was offered: it repeats the exchange
and the hardware address of the offer, selects the server of its last server
identifier and asks for its address, once, and says nothing else that a reader
of options would take for a configuration. Neither it nor the discover can be
mistaken for a reply. -/
theorem request_of_offer {m : Slice UInt8} {xid : UInt32} {mac : MacAddress} {o : DHCPBinding}
    (hoffer : DHCPBinding.from_offer m xid mac = ok (.ok o)) :
    ∃ r discover, build_request mac xid o = ok r ∧ build_discover mac xid = ok discover ∧
      (r.val.drop 4).take 4 = (m.val.drop 4).take 4 ∧ (r.val.drop 28).take 16 = (m.val.drop 28).take 16 ∧
      (∃ offered after server, Splits (m.val.drop 240) offered after ∧
        lastValue 54 offered = some server.octets.val ∧
        parse_options (r.sub 240 r.len) = ok (.ok ⟨some .Request, none, none, some server⟩)) ∧
      (∃ items rest, Splits (r.val.drop 240) items rest ∧
        items.filterMap (Item.valueOf 50) = [(m.val.drop 16).take 4] ∧ ∀ b ∈ rest, b = 0) ∧
      (r.val.drop 12).take 16 = List.replicate 16 0 ∧
      ∀ xid' mac', (∃ e, DHCPBinding.from_offer r xid' mac' = ok (.error e)) ∧
        (∃ e, DHCPBinding.from_ack r xid' mac' = ok (.error e)) ∧
        (∃ e, DHCPBinding.from_offer discover xid' mac' = ok (.error e)) ∧
        ∃ e, DHCPBinding.from_ack discover xid' mac' = ok (.error e) := by
  obtain ⟨offered, after, hreply, hbinds⟩ := DHCPBinding.from_message_eq_ok_iff.mp hoffer
  obtain ⟨r, hr, hval⟩ := build_request_eq mac xid o
  obtain ⟨discover, hdiscover, hdval⟩ := build_discover_eq mac xid
  have hroom : (requestOptions o).length ≤ 60 := by
    rw [length_requestOptions]
    omega
  obtain ⟨hxid, hzeros, hclient, hfield⟩ := messageBytes_fields mac xid (requestOptions o)
  rw [← hval] at hxid hzeros hclient hfield
  have hsplits := requestOptions_splits o (List.replicate (60 - (requestOptions o).length) 0)
  rw [← hfield] at hsplits
  have hsub : (r.sub 240 r.len).val = r.val.drop 240 := by
    rw [Slice.val_sub, ← Slice.length_val, ← List.length_drop, List.take_length]
  refine ⟨r, discover, hr, hdiscover, hxid.trans hreply.exchange.symm, hclient.trans hreply.client.symm,
    ⟨offered, after, o.server_id, hreply.options, hbinds.server_id, ?_⟩, ⟨_, _, hsplits, ?_, ?_⟩, hzeros, ?_⟩
  · rw [← hsub] at hsplits
    rw [hsplits.parse_options_eq, optionsOf_requestItems]
  · rw [hbinds.client_addr]
    rfl
  · exact fun b hb => List.eq_of_mem_replicate hb
  · exact fun xid' mac' => ⟨⟨_, messageBytes_not_reply hval hroom xid' mac' _⟩,
      ⟨_, messageBytes_not_reply hval hroom xid' mac' _⟩,
      ⟨_, messageBytes_not_reply hdval (by decide) xid' mac' _⟩,
      ⟨_, messageBytes_not_reply hdval (by decide) xid' mac' _⟩⟩

/-- The options of an offer of 10.0.2.15 with its gateway as the server. -/
def offerItems : List Item :=
  [.option 53 [2], .option 1 [255, 255, 255, 0], .pad, .option 3 [10, 0, 2, 2], .option 54 [10, 0, 2, 2]]

/-- That offer, to the host with the broadcast address under exchange 7. -/
def sampleOffer : Slice UInt8 :=
  ⟨[2, 1, 6, 0] ++ U32.to_be_bytes 7 ++ List.replicate 8 0 ++ [10, 0, 2, 15] ++ List.replicate 8 0 ++
    MacAddress.broadcast.addr.val ++ List.replicate 202 0 ++ MAGIC_COOKIE ++ encode offerItems ++ [OPT_END],
    by decide +kernel⟩

theorem sampleOffer_reply : Reply sampleOffer 7 MacAddress.broadcast 2 offerItems [] where
  length := by decide +kernel
  header := rfl
  cookie := rfl
  exchange := rfl
  client := rfl
  options := ⟨rfl, by
    intro item hitem
    simp only [offerItems, List.mem_cons, List.not_mem_nil, or_false] at hitem
    rcases hitem with rfl | rfl | rfl | rfl | rfl
    · exact ⟨by decide, by decide, by decide, by decide, by decide, fun _ => ⟨2, rfl, by decide, by decide⟩⟩
    · exact ⟨by decide, by decide, by decide, by decide, by decide, fun h => absurd h (by decide)⟩
    · trivial
    · exact ⟨by decide, by decide, by decide, by decide, by decide, fun h => absurd h (by decide)⟩
    · exact ⟨by decide, by decide, by decide, by decide, by decide, fun h => absurd h (by decide)⟩⟩
  message_type := rfl
  subnet_mask := ⟨_, by simp [offerItems]; rfl⟩
  router := ⟨_, by simp [offerItems]; rfl⟩
  server_id := ⟨_, by simp [offerItems]; rfl⟩
  address := by decide

theorem request_of_offer_sample : ∃ o r,
    DHCPBinding.from_offer sampleOffer 7 MacAddress.broadcast = ok (.ok o) ∧
      build_request MacAddress.broadcast 7 o = ok r ∧ (r.val.drop 4).take 4 = [0, 0, 0, 7] := by
  have hoffer : DHCPBinding.from_offer sampleOffer 7 MacAddress.broadcast =
      ok (.ok ⟨Ipv4Addr.new 10 0 2 15, Ipv4Addr.new 255 255 255 0, Ipv4Addr.new 10 0 2 2,
        Ipv4Addr.new 10 0 2 2⟩) :=
    DHCPBinding.from_message_eq_ok_iff.mpr ⟨offerItems, [], sampleOffer_reply, rfl, rfl, rfl, rfl⟩
  obtain ⟨r, _, hr, _, hxid, _⟩ := request_of_offer hoffer
  exact ⟨_, r, hoffer, hr, hxid⟩

end conc_os_net.dhcp
