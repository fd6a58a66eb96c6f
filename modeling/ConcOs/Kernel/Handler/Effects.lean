import ConcOs.Kernel.Handler
import ConcOs.Net.Udp.Serialize
import ConcOs.Net.Dhcp.Reply

open rust Result ones_complement
open conc_os_net
open conc_os_net.arp conc_os_net.ethernet conc_os_net.ipv4 conc_os_net.udp

namespace conc_os.network.handler

/-- An Ethernet frame with its payload, padded to the minimum length. -/
def wireFrame (src dst : MacAddress) (ethertype : EtherType) (payload : List UInt8) : Frame :=
  dst.addr.val ++ src.addr.val ++ U16.to_be_bytes ethertype.as_u16 ++ payload ++
    List.replicate (46 - payload.length) 0

/-- The ARP packets this host sends. -/
def arpPacket (operation : ArpOperation) (sender_mac : MacAddress) (sender_addr : Ipv4Addr)
    (target_mac : MacAddress) (target_addr : Ipv4Addr) : ArpPacket where
  hardware_type := 1
  protocol_type := 0x0800
  hardware_len := 6
  proto_len := 4
  operation := operation
  sender_mac := sender_mac
  sender_addr := sender_addr
  target_mac := target_mac
  target_addr := target_addr

/-- The broadcast that asks for the hardware address of `target`. -/
def requestFrame (mac : MacAddress) (ip target : Ipv4Addr) : Frame :=
  wireFrame mac MacAddress.broadcast .ARP
    (arpPacket .Request mac ip unknown_mac target).serialize.val

namespace NetworkInterface

theorem send_frame_eq (self : NetworkInterface) (dst : MacAddress) (ethertype : EtherType)
    (payload : Slice UInt8) :
    self.send_frame dst ethertype payload = ok (wireFrame self.mac dst ethertype payload.val) := by
  have hmem : isizeMax + 14 ≤ usizeMax := by decide
  have hle := payload.len_le
  rw [send_frame, Usize.add_eq (by omega), bind_tc_ok, wireFrame, Slice.length_val]
  have hpad : max (payload.len + 14) 60 - (payload.len + 14) = 46 - payload.len := by omega
  rw [hpad]
  rfl

theorem send_arp_request_eq (self : NetworkInterface) {ip : Ipv4Addr} (hip : self.ipv4 = some ip)
    (target : Ipv4Addr) : self.send_arp_request target = ok (requestFrame self.mac ip target) := by
  rw [send_arp_request, hip, unwrap_some, bind_tc_ok, send_frame_eq]
  rfl

/-- What `send_ipv4` does with a serialized packet whose next hop is known. -/
def submit (self : NetworkInterface) (ip hop : Ipv4Addr) (frame : Vec UInt8) : NetworkInterface × List Frame :=
  match self.arp.lookup hop with
  | some mac => (self, [wireFrame self.mac mac .IPV4 frame.val])
  | none =>
    ({ self with arp := (self.arp.queue_pending hop frame).2 },
      if (self.arp.queue_pending hop frame).1 = .RequestNeeded then [requestFrame self.mac ip hop] else [])

theorem next_hop_ipv4 {self : NetworkInterface} {dst hop : Ipv4Addr} (h : self.next_hop dst = some hop) :
    ∃ ip, self.ipv4 = some ip := by
  unfold next_hop at h
  cases hip : self.ipv4 with
  | none => simp [hip] at h
  | some ip => exact ⟨ip, rfl⟩

theorem send_ipv4_of_next_hop {self : NetworkInterface} {dst hop ip : Ipv4Addr} {packet : Ipv4Packet}
    {frame : Vec UInt8} (hhop : self.next_hop dst = some hop) (hip : self.ipv4 = some ip)
    (hframe : packet.serialize = ok frame) :
    self.send_ipv4 dst packet = ok (self.submit ip hop frame) := by
  rw [send_ipv4, hhop]
  simp only [hframe, bind_tc_ok, submit]
  cases hlookup : self.arp.lookup hop with
  | some mac => simp only [send_frame_eq, bind_tc_ok, pure_eq_ok]
  | none =>
    cases hqueued : (self.arp.queue_pending hop frame).1 with
    | RequestNeeded =>
      rw [send_arp_request_eq { self with arp := (self.arp.queue_pending hop frame).2 } hip, bind_tc_ok]
      rfl
    | AlreadyPending => rfl
    | Dropped => rfl

theorem send_ipv4_of_no_hop {self : NetworkInterface} {dst : Ipv4Addr} (packet : Ipv4Packet)
    (hhop : self.next_hop dst = none) : self.send_ipv4 dst packet = ok (self, []) := by
  rw [send_ipv4, hhop]
  rfl

/-- A well-formed packet never makes `send_ipv4` panic. What it submits starts
with the header of the packet. -/
theorem send_ipv4_wellFormed (self : NetworkInterface) (dst : Ipv4Addr) {packet : Ipv4Packet}
    (h : packet.WellFormed) :
    self.send_ipv4 dst packet = ok (self, []) ∨ ∃ ip hop frame, self.ipv4 = some ip ∧
      self.next_hop dst = some hop ∧
      frame.val = packet.headerBytes packet.headerChecksum ++ packet.data.val ∧
      self.send_ipv4 dst packet = ok (self.submit ip hop frame) := by
  cases hhop : self.next_hop dst with
  | none => exact Or.inl (send_ipv4_of_no_hop packet hhop)
  | some hop =>
    obtain ⟨ip, hip⟩ := next_hop_ipv4 hhop
    obtain ⟨frame, hframe, hval, _⟩ := h.serialize_eq
    exact Or.inr ⟨ip, hop, frame, hip, rfl, hval, send_ipv4_of_next_hop hhop hip hframe⟩

/-- The interface after the first part of `handle_arp`, and what it transmits. -/
def learned (self : NetworkInterface) (p : ArpPacket) : NetworkInterface × List Frame :=
  if p.sender_mac ≠ self.mac then
    ({ self with arp := (self.arp.insert p.sender_addr p.sender_mac).2 },
      (self.arp.insert p.sender_addr p.sender_mac).1.map fun frame =>
        wireFrame self.mac p.sender_mac .IPV4 frame.val)
  else (self, [])

/-- The reply of `handle_arp` to a request for this host's address. -/
def arpReplies (self : NetworkInterface) (p : ArpPacket) : List Frame :=
  if p.operation = .Request ∧ self.ipv4 = some p.target_addr then
    [wireFrame self.mac p.sender_mac .ARP
      (arpPacket .Reply self.mac p.target_addr p.sender_mac p.sender_addr).serialize.val]
  else []

theorem mapM_ok {α β : Type} {f : α → Result β} {g : α → β} (h : ∀ a, f a = ok (g a)) (l : List α) :
    l.mapM f = ok (l.map g) := by
  induction l with
  | nil => rfl
  | cons a l ih => simp [List.mapM_cons, h, ih]

theorem learn_eq (self : NetworkInterface) (p : ArpPacket) : self.learn p = ok (self.learned p) := by
  unfold learn learned
  split
  · simp only [mapM_ok (fun frame => send_frame_eq _ _ _ frame), bind_tc_ok, pure_eq_ok]
  · rfl

@[simp] theorem learned_ipv4 (self : NetworkInterface) (p : ArpPacket) :
    (self.learned p).1.ipv4 = self.ipv4 := by
  unfold learned
  split <;> rfl

@[simp] theorem learned_mac (self : NetworkInterface) (p : ArpPacket) : (self.learned p).1.mac = self.mac := by
  unfold learned
  split <;> rfl

/-- `handle_arp` always returns: it transmits what was parked on the sender's
address, then a reply if one is asked for. -/
theorem handle_arp_eq (self : NetworkInterface) (p : ArpPacket) :
    self.handle_arp p = ok ((self.learned p).1, (self.learned p).2 ++ self.arpReplies p) := by
  rw [handle_arp, learn_eq, bind_tc_ok]
  simp only [learned_ipv4, arpReplies]
  split
  · rename_i hask
    rw [hask.2, unwrap_some, bind_tc_ok]
    simp only [send_frame_eq, learned_mac, bind_tc_ok]
    rfl
  · simp

end NetworkInterface

end conc_os.network.handler
