import ConcOs.Net.Dhcp

open rust Result
open conc_os_net.ethernet

namespace conc_os_net.dhcp

/-- The bytes of a client message. -/
def messageBytes (mac : MacAddress) (xid : UInt32) (options : List UInt8) : List UInt8 :=
  [1, 1, 6, 0] ++ U32.to_be_bytes xid ++ [0, 0, 0x80, 0] ++ List.replicate 16 0 ++ mac.addr.val ++
    List.replicate 202 0 ++ MAGIC_COOKIE ++ options ++ List.replicate (60 - options.length) 0

theorem length_messageBytes (mac : MacAddress) (xid : UInt32) {options : List UInt8}
    (h : options.length ≤ 60) : (messageBytes mac xid options).length = 300 := by
  simp only [messageBytes, List.length_append, List.length_cons, List.length_nil, U32.length_to_be_bytes,
    List.length_replicate, MacAddress.length_addr, MAGIC_COOKIE]
  omega

/-- A message with room for its options is built without panicking. -/
theorem build_message_eq (mac : MacAddress) (xid : UInt32) {options : List UInt8} (h : options.length ≤ 60) :
    ∃ msg, build_message mac xid options = ok msg ∧ msg.val = messageBytes mac xid options := by
  have hsize : (List.replicate MESSAGE_LEN (0 : UInt8)).length ≤ isizeMax := by
    rw [List.length_replicate]
    decide
  have hmsg : MESSAGE_LEN = 300 := rfl
  obtain ⟨m0, h0, v0, l0⟩ := Vec.from_eq hsize
  rw [List.length_replicate, hmsg] at l0
  obtain ⟨m1, h1, v1, l1⟩ := m0.set_eq 0 OP_BOOT_REQUEST (by omega)
  obtain ⟨m2, h2, v2, l2⟩ := m1.set_eq 1 HTYPE_ETHERNET (by omega)
  obtain ⟨m3, h3, v3, l3⟩ := m2.set_eq 2 HLEN_ETHERNET (by omega)
  obtain ⟨m4, h4, v4, l4⟩ := m3.copy_from_slice_eq 4 8 (U32.to_be_bytes xid) (by omega) (by omega) rfl
  obtain ⟨m5, h5, v5, l5⟩ := m4.copy_from_slice_eq 10 12 (U16.to_be_bytes FLAG_BROADCAST) (by omega)
    (by omega) rfl
  obtain ⟨m6, h6, v6, l6⟩ := m5.copy_from_slice_eq 28 (28 + 6) mac.addr.val (by omega) (by omega)
    (by rw [mac.length_addr])
  obtain ⟨m7, h7, v7, l7⟩ := m6.copy_from_slice_eq 236 240 MAGIC_COOKIE (by omega) (by omega) rfl
  obtain ⟨m8, h8, v8, l8⟩ := m7.copy_from_slice_eq FIXED_LEN (FIXED_LEN + options.length) options
    (by omega) (by simp only [FIXED_LEN]; omega) (by omega)
  refine ⟨m8, ?_, ?_⟩
  · rw [build_message, h0, bind_tc_ok, h1, bind_tc_ok, h2, bind_tc_ok, h3, bind_tc_ok, h4, bind_tc_ok, h5,
      bind_tc_ok, h6, bind_tc_ok, h7, bind_tc_ok, h8]
  · have e3 : m3.val = [1, 1, 6] ++ List.replicate 297 0 := by
      rw [v3, v2, v1, v0]
      rfl
    have e4 : m4.val = [1, 1, 6, 0] ++ U32.to_be_bytes xid ++ List.replicate 292 0 := by
      rw [v4, e3]
      rfl
    have e5 : m5.val = [1, 1, 6, 0] ++ U32.to_be_bytes xid ++ [0, 0, 0x80, 0] ++ List.replicate 288 0 := by
      rw [v5, e4]
      rfl
    have e6 : m6.val = [1, 1, 6, 0] ++ U32.to_be_bytes xid ++ [0, 0, 0x80, 0] ++ List.replicate 16 0 ++
        mac.addr.val ++ List.replicate 266 0 := by
      rw [v6, e5]
      rfl
    have hhead : ([1, 1, 6, 0] ++ U32.to_be_bytes xid ++ [0, 0, 0x80, 0] ++ List.replicate 16 0 ++
        mac.addr.val : List UInt8).length = 34 := by
      simp only [List.length_append, List.length_cons, List.length_nil, U32.length_to_be_bytes,
        List.length_replicate, MacAddress.length_addr]
    have e7 : m7.val = [1, 1, 6, 0] ++ U32.to_be_bytes xid ++ [0, 0, 0x80, 0] ++ List.replicate 16 0 ++
        mac.addr.val ++ List.replicate 202 0 ++ MAGIC_COOKIE ++ List.replicate 60 0 := by
      rw [v7, e6, List.take_append, List.drop_append, hhead, List.take_of_length_le (by omega),
        List.drop_eq_nil_of_le (by omega), List.take_replicate, List.drop_replicate]
      rfl
    have hfixed : ([1, 1, 6, 0] ++ U32.to_be_bytes xid ++ [0, 0, 0x80, 0] ++ List.replicate 16 0 ++
        mac.addr.val ++ List.replicate 202 0 ++ MAGIC_COOKIE : List UInt8).length = 240 := by
      rw [List.length_append, List.length_append, hhead, List.length_replicate]
      rfl
    rw [v8, e7, FIXED_LEN, ← hfixed, List.take_left, ← List.drop_drop, List.drop_left, List.drop_replicate]
    rfl

/-- The options of a DHCPDISCOVER. -/
def discoverOptions : List UInt8 := [53, 1, 1, 55, 2, 1, 3, 255]

/-- The options of a DHCPREQUEST for `offer`. -/
def requestOptions (offer : DHCPBinding) : List UInt8 :=
  [53, 1, 3, 50, 4] ++ offer.client_addr.octets.val ++ [54, 4] ++ offer.server_id.octets.val ++
    [55, 2, 1, 3, 255]

theorem build_discover_eq (mac : MacAddress) (xid : UInt32) :
    ∃ msg, build_discover mac xid = ok msg ∧ msg.val = messageBytes mac xid discoverOptions := by
  have hcount : PARAMETER_REQUEST.length = 4 := rfl
  obtain ⟨o0, h0, v0, l0⟩ := @Vec.from_eq UInt8 (List.replicate (3 + PARAMETER_REQUEST.length + 1) 0) (by decide)
  rw [List.length_replicate] at l0
  obtain ⟨o1, h1, v1, l1⟩ := o0.copy_from_slice_eq 0 3 [OPT_MESSAGE_TYPE, 1, DHCPMessageType.Discover.as_u8]
    (by omega) (by omega) rfl
  obtain ⟨o2, h2, v2, l2⟩ := o1.copy_from_slice_eq 3 (3 + PARAMETER_REQUEST.length) PARAMETER_REQUEST
    (by omega) (by omega) (by omega)
  obtain ⟨o3, h3, v3, _⟩ := o2.set_eq (3 + PARAMETER_REQUEST.length) OPT_END (by omega)
  have hoptions : o3.val = discoverOptions := by
    rw [v3, v2, v1, v0]
    rfl
  rw [build_discover, h0, bind_tc_ok, h1, bind_tc_ok, h2, bind_tc_ok, h3, bind_tc_ok, hoptions]
  exact build_message_eq mac xid (by decide)

theorem length_requestOptions (offer : DHCPBinding) : (requestOptions offer).length = 20 := by
  simp [requestOptions]

theorem build_request_eq (mac : MacAddress) (xid : UInt32) (offer : DHCPBinding) :
    ∃ msg, build_request mac xid offer = ok msg ∧ msg.val = messageBytes mac xid (requestOptions offer) := by
  have hcount : PARAMETER_REQUEST.length = 4 := rfl
  obtain ⟨o0, h0, v0, l0⟩ :=
    @Vec.from_eq UInt8 (List.replicate (3 + 6 + 6 + PARAMETER_REQUEST.length + 1) 0) (by decide)
  rw [List.length_replicate] at l0
  obtain ⟨o1, h1, v1, l1⟩ := o0.copy_from_slice_eq 0 3 [OPT_MESSAGE_TYPE, 1, DHCPMessageType.Request.as_u8]
    (by omega) (by omega) rfl
  obtain ⟨o2, h2, v2, l2⟩ := o1.copy_from_slice_eq 3 5 [OPT_REQUESTED_ADDR, 4] (by omega) (by omega) rfl
  obtain ⟨o3, h3, v3, l3⟩ := o2.copy_from_slice_eq 5 9 offer.client_addr.octets.val (by omega) (by omega)
    (by rw [Ipv4Addr.length_octets])
  obtain ⟨o4, h4, v4, l4⟩ := o3.copy_from_slice_eq 9 11 [OPT_SERVER_ID, 4] (by omega) (by omega) rfl
  obtain ⟨o5, h5, v5, l5⟩ := o4.copy_from_slice_eq 11 15 offer.server_id.octets.val (by omega) (by omega)
    (by rw [Ipv4Addr.length_octets])
  obtain ⟨o6, h6, v6, l6⟩ := o5.copy_from_slice_eq 15 (15 + PARAMETER_REQUEST.length) PARAMETER_REQUEST
    (by omega) (by omega) (by omega)
  obtain ⟨o7, h7, v7, _⟩ := o6.set_eq (15 + PARAMETER_REQUEST.length) OPT_END (by omega)
  have hoptions : o7.val = requestOptions offer := by
    obtain ⟨a, b, c, d, hclient⟩ := offer.client_addr.eq_new
    obtain ⟨e, f, g, h, hserver⟩ := offer.server_id.eq_new
    rw [v7, v6, v5, v4, v3, v2, v1, v0, requestOptions, hclient, hserver]
    rfl
  have hle : (requestOptions offer).length ≤ 60 := by
    rw [length_requestOptions]
    omega
  rw [build_request, h0, bind_tc_ok, h1, bind_tc_ok, h2, bind_tc_ok, h3, bind_tc_ok, h4, bind_tc_ok, h5,
    bind_tc_ok, h6, bind_tc_ok, h7, bind_tc_ok, hoptions]
  exact build_message_eq mac xid hle

end conc_os_net.dhcp
