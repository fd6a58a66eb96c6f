import ConcOs.Net.Udp
import ConcOs.Net.Ethernet
import ConcOs.Net.Dhcp

open rust Result
open conc_os_net
open conc_os_net.arp conc_os_net.ethernet conc_os_net.ipv4 conc_os_net.udp

namespace conc_os.network.handler

/-- The bytes handed to the driver for one transmission. -/
abbrev Frame := List UInt8

/-- `Error` is the error type of the entropy device. -/
inductive DHCPError (Error : Type) where
  | RNGError (error : Error)
  | UDPError (error : UDPError)
  | IPv4Error (error : Ipv4Error)
  | AlreadyStarted
deriving DecidableEq

/-- How far the DHCP exchange has got. -/
inductive DHCPState where
  | Idle
  | Selecting (xid : UInt32)
  | Requesting (xid : UInt32) (offer : dhcp.DHCPBinding)
deriving DecidableEq

def DHCPState.xid : DHCPState → Option UInt32
  | .Idle => none
  | .Selecting xid | .Requesting xid _ => some xid

structure NetworkInterface where
  mac : MacAddress
  ipv4 : Option Ipv4Addr
  gateway : Option Ipv4Addr
  subnet_mask : Option Ipv4Addr
  arp : ArpCache
  dhcp : DHCPState

/-- The interface `init_network_interface` starts from. -/
def NetworkInterface.initial (mac : MacAddress) : NetworkInterface where
  mac := mac
  ipv4 := none
  gateway := none
  subnet_mask := none
  arp := ArpCache.new
  dhcp := .Idle

def read_reply (result : Except dhcp.DHCPError dhcp.DHCPBinding) : Option dhcp.DHCPBinding :=
  match result with
  | .ok binding => some binding
  | .error _ => none

/-- The hardware address that a request leaves open. -/
def unknown_mac : MacAddress := MacAddress.new ⟨[0, 0, 0, 0, 0, 0], rfl⟩

namespace NetworkInterface

/-- The frame `send_frame` transmits. Its buffer is allocated at the length it
is filled to, so the four copies are one concatenation; allocating the buffer
and handing it to the driver are taken to succeed. -/
def send_frame (self : NetworkInterface) (dst : MacAddress) (ethertype : EtherType) (payload : Slice UInt8) :
    Result Frame := do
  let frame_len ← Usize.add payload.len 14
  let frame := dst.addr.val ++ self.mac.addr.val ++ U16.to_be_bytes ethertype.as_u16 ++ payload.val
  return frame ++ List.replicate (max frame_len 60 - frame_len) 0

def send_arp_request (self : NetworkInterface) (target_addr : Ipv4Addr) : Result Frame := do
  let request : ArpPacket := {
    hardware_type := 1
    protocol_type := 0x0800
    hardware_len := 6
    proto_len := 4
    operation := .Request
    sender_mac := self.mac
    sender_addr := ← unwrap "called `Option::unwrap()` on a `None` value" self.ipv4
    target_mac := unknown_mac
    target_addr := target_addr }
  self.send_frame MacAddress.broadcast .ARP (Slice.ofBytes (by decide) request.serialize)

/-- The first part of `send_ipv4`: where a packet for `dst` goes next, if the
interface is configured far enough to say. -/
def next_hop (self : NetworkInterface) (dst : Ipv4Addr) : Option Ipv4Addr := do
  let my_ip ← self.ipv4
  let mask ← self.subnet_mask
  let dst_net := Ipv4Addr.from_bits (dst.to_bits &&& mask.to_bits)
  let my_net := Ipv4Addr.from_bits (my_ip.to_bits &&& mask.to_bits)
  if dst_net = my_net then return dst
  self.gateway

/-- Sends `packet` to `dst`, or parks it until its next hop resolves. Returns
the frames transmitted. -/
def send_ipv4 (self : NetworkInterface) (dst : Ipv4Addr) (packet : Ipv4Packet) :
    Result (NetworkInterface × List Frame) := do
  match self.next_hop dst with
  | none => return (self, [])
  | some next_hop =>
    let frame ← packet.serialize
    match self.arp.lookup next_hop with
    | some arp_addr => return (self, [← self.send_frame arp_addr .IPV4 frame])
    | none =>
      let (queued, arp) := self.arp.queue_pending next_hop frame
      let self := { self with arp := arp }
      match queued with
      | .RequestNeeded => return (self, [← self.send_arp_request next_hop])
      | .AlreadyPending => return (self, [])
      | .Dropped => return (self, [])

/-- The first part of `handle_arp`: learns the sender's address, and transmits
what was parked on it. -/
def learn (self : NetworkInterface) (arp_packet : ArpPacket) : Result (NetworkInterface × List Frame) := do
  if arp_packet.sender_mac ≠ self.mac then
    let (parked, arp) := self.arp.insert arp_packet.sender_addr arp_packet.sender_mac
    let self := { self with arp := arp }
    let frames ← parked.mapM fun frame => self.send_frame arp_packet.sender_mac .IPV4 frame
    return (self, frames)
  else return (self, [])

def handle_arp (self : NetworkInterface) (arp_packet : ArpPacket) :
    Result (NetworkInterface × List Frame) := do
  let (self, flushed) ← self.learn arp_packet
  if arp_packet.operation = .Request ∧ self.ipv4 = some arp_packet.target_addr then
    let reply : ArpPacket := {
      hardware_type := 1
      protocol_type := 0x0800
      hardware_len := 6
      proto_len := 4
      operation := .Reply
      sender_mac := self.mac
      sender_addr := ← unwrap "called `Option::unwrap()` on a `None` value" self.ipv4
      target_mac := arp_packet.sender_mac
      target_addr := arp_packet.sender_addr }
    let frame ← self.send_frame arp_packet.sender_mac .ARP (Slice.ofBytes (by decide) reply.serialize)
    return (self, flushed ++ [frame])
  else return (self, flushed)

/-- `handle_icmp`, with the checksum that it calls as a parameter. -/
def handle_icmpWith (internet_checksum : List (List UInt8) → Result UInt16) (self : NetworkInterface)
    (packet : Ipv4Packet) : Result (NetworkInterface × List Frame) := do
  if (← internet_checksum [packet.data.val]) ≠ 0 then return (self, [])
  if (← packet.data.index 0) = 8 ∧ (← packet.data.index 1) = 0 then
    match self.ipv4 with
    | none => return (self, [])
    | some src =>
      let new_data ← packet.data.set 0 0
      let new_data ← new_data.set 2 0
      let new_data ← new_data.set 3 0
      let checksum ← internet_checksum [new_data.val]
      let new_data ← new_data.copy_from_slice 2 4 (U16.to_be_bytes checksum)
      match ← Ipv4Packet.new new_data src packet.source packet.id .ICMP with
      | .error _ => return (self, [])
      | .ok reply => self.send_ipv4 reply.dest reply
  else return (self, [])

def handle_icmp (self : NetworkInterface) (packet : Ipv4Packet) : Result (NetworkInterface × List Frame) :=
  self.handle_icmpWith internet_checksum packet

section

variable {Error : Type}

/-- The broadcast of a DHCP message from the unspecified address. `id` is the
random draw for the IP identification field. -/
def send_dhcp (self : NetworkInterface) (id : Except Error UInt16) (msg : Slice UInt8) :
    Result (Except (DHCPError Error) Frame) := do
  match id with
  | .error e => return .error (.RNGError e)
  | .ok id =>
    match ← UDPPacket.new dhcp.CLIENT_PORT dhcp.SERVER_PORT msg with
    | .error e => return .error (.UDPError e)
    | .ok datagram =>
      let source := Ipv4Addr.UNSPECIFIED
      let dest := Ipv4Addr.BROADCAST
      match ← datagram.serialize_ipv4 source dest with
      | .error e => return .error (.UDPError e)
      | .ok ip_data =>
        match ← Ipv4Packet.new ip_data source dest id .UDP with
        | .error e => return .error (.IPv4Error e)
        | .ok pkt => return .ok (← self.send_frame MacAddress.broadcast .IPV4 (← pkt.serialize))

/-- Opens an exchange. `xid` is the random draw for the exchange id. -/
def init_dhcp (self : NetworkInterface) (xid : Except Error UInt32) (id : Except Error UInt16) :
    Result (Except (DHCPError Error) Unit × NetworkInterface × List Frame) := do
  if self.dhcp ≠ .Idle then return (.error .AlreadyStarted, self, [])
  match xid with
  | .error e => return (.error (.RNGError e), self, [])
  | .ok xid =>
    match ← self.send_dhcp id (← dhcp.build_discover self.mac xid) with
    | .error e => return (.error e, self, [])
    | .ok frame => return (.ok (), { self with dhcp := .Selecting xid }, [frame])

/-- Advances the DHCP exchange by one reply. -/
def handle_dhcp (self : NetworkInterface) (id : Except Error UInt16) (packet : UDPPacket) :
    Result (NetworkInterface × List Frame) := do
  match self.dhcp with
  | .Idle => return (self, [])
  | .Selecting xid =>
    match read_reply (← dhcp.DHCPBinding.from_offer packet.data xid self.mac) with
    | none => return (self, [])
    | some offer =>
      match ← self.send_dhcp id (← dhcp.build_request self.mac xid offer) with
      | .error _ => return (self, [])
      | .ok frame => return ({ self with dhcp := .Requesting xid offer }, [frame])
  | .Requesting xid offer =>
    match read_reply (← dhcp.DHCPBinding.from_ack packet.data xid self.mac) with
    | none => return (self, [])
    | some ack =>
      if ack.server_id ≠ offer.server_id then return (self, [])
      return ({ self with
        ipv4 := some ack.client_addr
        subnet_mask := some ack.subnet_mask
        gateway := some ack.gateway
        dhcp := .Idle }, [])

def handle_udp (self : NetworkInterface) (id : Except Error UInt16) (datagram : UDPPacket) :
    Result (NetworkInterface × List Frame) := do
  if datagram.dest_port = dhcp.CLIENT_PORT ∧ datagram.source_port = dhcp.SERVER_PORT then
    self.handle_dhcp id datagram
  else return (self, [])

/-- Whether `handle_ipv4` takes a packet as addressed to this host. -/
def for_us (self : NetworkInterface) (packet : Ipv4Packet) : Bool :=
  packet.dest = Ipv4Addr.BROADCAST ∨ self.ipv4 = some packet.dest ∨
    (self.ipv4 = none ∧ self.dhcp.xid.isSome)

def handle_ipv4 (self : NetworkInterface) (id : Except Error UInt16) (ipv4_packet : Ipv4Packet) :
    Result (NetworkInterface × List Frame) := do
  if ipv4_packet.more_fragments ∨ ipv4_packet.frag_offset ≠ 0 then return (self, [])
  if ¬ self.for_us ipv4_packet then return (self, [])
  match ipv4_packet.protocol with
  | .ICMP => self.handle_icmp ipv4_packet
  | .TCP => return (self, [])
  | .UDP =>
    match ← UDPPacket.from_packet ipv4_packet with
    | .ok datagram => self.handle_udp id datagram
    | .error _ => return (self, [])
  | .Unknown _ => return (self, [])

def handle_packet (self : NetworkInterface) (id : Except Error UInt16) (frame : EthernetFrame)
    (dst : MacAddress) : Result (NetworkInterface × List Frame) := do
  if dst.addr ≠ self.mac.addr ∧ dst ≠ MacAddress.broadcast then return (self, [])
  match frame with
  | .Arp arp_packet => self.handle_arp arp_packet
  | .Ipv4 ipv4_packet => self.handle_ipv4 id ipv4_packet
  | .Unknown _ _ => return (self, [])

/-- `process_rx` of the network task, on the interface it locks. -/
def process_rx (self : NetworkInterface) (id : Except Error UInt16) (packet : Slice UInt8) :
    Result (NetworkInterface × List Frame) := do
  if packet.len < 14 then return (self, [])
  let dst := MacAddress.new (← unwrap "invalid length" ((← packet.range 0 6).try_into 6))
  let _src := MacAddress.new (← unwrap "invalid length" ((← packet.range 6 12).try_into 6))
  let _ethertype := U16.from_be_bytes (← packet.index 12) (← packet.index 13)
  match ← EthernetFrame.new packet with
  | .ok pkt => self.handle_packet id pkt dst
  | .error _ => return (self, [])

end

end NetworkInterface

end conc_os.network.handler
