import ConcOs.Kernel.Handler.Receive
import ConcOs.Net.Arp.Cache
import ConcOs.Rust.Run

open rust Result ones_complement
open conc_os_net
open conc_os_net.arp conc_os_net.ethernet conc_os_net.ipv4 conc_os_net.udp

namespace conc_os.network.handler

/-- What happens to an interface. The random draws an operation may make come
with it, and may fail. -/
inductive Event (Error : Type) where
  | init (xid : Except Error UInt32) (id : Except Error UInt16)
  | receive (packet : Slice UInt8) (id : Except Error UInt16)

/-- The record of one operation: whether it was a successful `init_dhcp`, and
the frames it transmitted. -/
structure Label (Error : Type) where
  event : Event Error
  before : NetworkInterface
  opened : Bool
  sent : List Frame
  after : NetworkInterface

section

variable {Error : Type}

def perform (self : NetworkInterface) (event : Event Error) : Result (Label Error × NetworkInterface) := do
  match event with
  | .init xid id =>
    let (result, after, sent) ← self.init_dhcp xid id
    return (⟨event, self, result.isOk, sent, after⟩, after)
  | .receive packet id =>
    let (after, sent) ← self.process_rx id packet
    return (⟨event, self, false, sent, after⟩, after)

/-- The configuration of an interface. -/
def NetworkInterface.config (self : NetworkInterface) : Option Ipv4Addr × Option Ipv4Addr × Option Ipv4Addr :=
  (self.ipv4, self.subnet_mask, self.gateway)

def Label.reconfigures (label : Label Error) : Bool := label.before.config ≠ label.after.config

/-- The payload of a broadcast UDP datagram: of an Ethernet broadcast of an
IPv4 packet with protocol 17, what follows the 42 bytes of headers. -/
def broadcastDatagram (frame : Frame) : Option (List UInt8) :=
  if frame.take 6 = MacAddress.broadcast.addr.val ∧ (frame.drop 12).take 2 = [8, 0] ∧ frame[23]? = some 17 then
    some (frame.drop 42)
  else none

/-- The payloads of the UDP datagrams broadcast over a stretch of a run. -/
def datagrams (labels : List (Label Error)) : List (List UInt8) :=
  (labels.flatMap Label.sent).filterMap broadcastDatagram

end

theorem getElem?_wireFrame (src dst : MacAddress) (ethertype : EtherType) {payload : List UInt8} {b : UInt8}
    (h : payload[9]? = some b) : (wireFrame src dst ethertype payload)[23]? = some b := by
  have hdrop := drop_wireFrame src dst ethertype payload
  have hindex : (wireFrame src dst ethertype payload)[23]? =
      ((wireFrame src dst ethertype payload).drop 12)[11]? := by rw [List.getElem?_drop]
  have hlt : 9 < payload.length := (List.getElem?_eq_some_iff.mp h).1
  rw [hindex, hdrop, List.append_assoc, List.getElem?_append_right (by simp), U16.length_to_be_bytes,
    List.getElem?_append_left hlt, h]

/-- A broadcast DHCP message is read back from its frame. -/
theorem Broadcasts.broadcastDatagram_eq {mac : MacAddress} {frame : Frame} {msg : List UInt8}
    (h : Broadcasts mac frame msg) (hlen : 18 ≤ msg.length) : broadcastDatagram frame = some msg := by
  obtain ⟨headers, hheaders, hproto, rfl⟩ := h
  have hnine : (headers ++ msg)[9]? = some 17 := by rw [List.getElem?_append_left (by omega), hproto]
  have hdrop := drop_wireFrame mac MacAddress.broadcast .IPV4 (headers ++ msg)
  have hpad : 46 - (headers ++ msg).length = 0 := by
    rw [List.length_append]
    omega
  have hpayload : (wireFrame mac MacAddress.broadcast .IPV4 (headers ++ msg)).drop 42 = msg := by
    have hsplit : (wireFrame mac MacAddress.broadcast .IPV4 (headers ++ msg)).drop 42 =
        ((wireFrame mac MacAddress.broadcast .IPV4 (headers ++ msg)).drop 12).drop 30 := by rw [List.drop_drop]
    have hthirty : (U16.to_be_bytes EtherType.IPV4.as_u16 ++ headers).length = 30 := by simp [hheaders]
    rw [hsplit, hdrop, hpad, List.replicate_zero, List.append_nil, ← List.append_assoc,
      List.drop_left' hthirty]
  have htype : ((wireFrame mac MacAddress.broadcast .IPV4 (headers ++ msg)).drop 12).take 2 = [8, 0] := by
    rw [hdrop]
    rfl
  rw [broadcastDatagram, if_pos ⟨take_six_wireFrame .., htype, getElem?_wireFrame _ _ _ hnine⟩, hpayload]

theorem broadcastDatagram_arp (src dst : MacAddress) (payload : List UInt8) :
    broadcastDatagram (wireFrame src dst .ARP payload) = none := by
  refine if_neg fun h => ?_
  have htype := h.2.1
  rw [drop_wireFrame] at htype
  simp [U16.to_be_bytes, EtherType.as_u16] at htype

theorem broadcastDatagram_icmp (src dst : MacAddress) {payload : List UInt8} (h : payload[9]? = some 1) :
    broadcastDatagram (wireFrame src dst .IPV4 payload) = none := by
  refine if_neg fun hframe => ?_
  have hproto := hframe.2.2
  rw [getElem?_wireFrame _ _ _ h] at hproto
  simp at hproto

/-- Only ICMP packets are parked in the cache. -/
def IcmpParked (cache : ArpCache) : Prop :=
  ∀ ip, ∀ frame ∈ cache.parked ip, frame.val[9]? = some 1

/-- The protocol field of a serialized ICMP packet. -/
theorem icmp_protocol {data frame : Slice UInt8} {ip dst : Ipv4Addr} {id : UInt16} (hframe : frame.val =
    (Ipv4Packet.ofData data ip dst id .ICMP).headerBytes
      (Ipv4Packet.ofData data ip dst id .ICMP).headerChecksum ++
      data.val) : frame.val[9]? = some 1 := by
  rw [hframe]
  rfl

/-- A step that neither touches the configuration or the exchange, nor
broadcasts a datagram. -/
structure Silent (before after : NetworkInterface) (sent : List Frame) : Prop where
  mac : after.mac = before.mac
  config : after.config = before.config
  dhcp : after.dhcp = before.dhcp
  parked : IcmpParked after.arp
  datagrams : sent.filterMap broadcastDatagram = []

theorem Silent.refl {self : NetworkInterface} (h : IcmpParked self.arp) : Silent self self [] :=
  ⟨rfl, rfl, rfl, h, rfl⟩

theorem silent_arp {self : NetworkInterface} (h : IcmpParked self.arp) (p : ArpPacket) :
    Silent self (self.learned p).1 ((self.learned p).2 ++ self.arpReplies p) := by
  have hreplies : (self.arpReplies p).filterMap broadcastDatagram = [] := by
    unfold NetworkInterface.arpReplies
    split
    · simp [broadcastDatagram_arp]
    · rfl
  unfold NetworkInterface.learned
  split
  · refine ⟨rfl, rfl, rfl, ArpCache.AllParked.put_resolved h p.sender_addr p.sender_mac, ?_⟩
    rw [List.filterMap_append, hreplies, List.append_nil, List.filterMap_eq_nil_iff]
    intro frame hframe
    obtain ⟨parked, hparked, rfl⟩ := List.mem_map.mp hframe
    exact broadcastDatagram_icmp _ _ (h p.sender_addr parked hparked)
  · exact ⟨rfl, rfl, rfl, h, by simpa using hreplies⟩

theorem silent_submit {self : NetworkInterface} (h : IcmpParked self.arp) (ip hop : Ipv4Addr) {frame : Vec UInt8}
    (hframe : frame.val[9]? = some 1) :
    Silent self (self.submit ip hop frame).1 (self.submit ip hop frame).2 := by
  unfold NetworkInterface.submit
  cases self.arp.lookup hop with
  | some mac => exact ⟨rfl, rfl, rfl, h, by simp [broadcastDatagram_icmp _ _ hframe]⟩
  | none =>
    have hsent : (if (self.arp.queue_pending hop frame).1 = .RequestNeeded then
        [requestFrame self.mac ip hop] else []).filterMap broadcastDatagram = [] := by
      split
      · simp [requestFrame, broadcastDatagram_arp]
      · rfl
    exact ⟨rfl, rfl, rfl, ArpCache.AllParked.queue_pending h hop hframe, hsent⟩

/-- A received frame is silent unless it is a datagram of a DHCP server. -/
theorem RxOutcome.silent_or_dhcp {self after : NetworkInterface} {packet : Slice UInt8} {sent : List Frame}
    (houtcome : RxOutcome self packet after sent) (h : IcmpParked self.arp) :
    Silent self after sent ∨
      ∃ datagram, Delivers packet datagram ∧ DhcpOutcome self datagram.data after sent := by
  cases houtcome with
  | ignored => exact Or.inl (.refl h)
  | arp p => exact Or.inl (silent_arp h p)
  | echo hip hframe => exact Or.inl (silent_submit h _ _ (icmp_protocol hframe))
  | dhcp hdelivers houtcome => exact Or.inr ⟨_, hdelivers, houtcome⟩

end conc_os.network.handler
