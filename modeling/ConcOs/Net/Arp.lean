import ConcOs.Net.Address
import Std.Data.TreeMap

open rust Result
open conc_os_net.ethernet

namespace conc_os_net.arp

def MAX_PENDING_PER_ADDRESS : Nat := 4

def MAX_PENDING_ADDRESSES : Nat := 16

inductive ArpEntry where
  | Resolved (mac : MacAddress)
  | Pending (queue : List (Vec UInt8))
deriving DecidableEq

inductive Queued where
  | RequestNeeded
  | AlreadyPending
  | Dropped
deriving DecidableEq

structure ArpCache where
  entries : Std.TreeMap Ipv4Addr ArpEntry

namespace ArpCache

def new : ArpCache := ⟨∅⟩

def lookup (self : ArpCache) (ip : Ipv4Addr) : Option MacAddress :=
  match self.entries[ip]? with
  | some (.Resolved mac) => some mac
  | some (.Pending _) | none => none

/-- Records `mac` for `ip`, and returns the frames that were parked on it. -/
def insert (self : ArpCache) (ip : Ipv4Addr) (mac : MacAddress) : List (Vec UInt8) × ArpCache :=
  let parked := match self.entries[ip]? with
    | some (.Pending queue) => queue
    | some (.Resolved _) | none => []
  (parked, ⟨self.entries.insert ip (.Resolved mac)⟩)

def is_pending : ArpEntry → Bool
  | .Pending _ => true
  | .Resolved _ => false

def pending_addresses (self : ArpCache) : Nat :=
  self.entries.toList.countP fun entry => is_pending entry.2

/-- Parks `frame` until `ip` resolves. -/
def queue_pending (self : ArpCache) (ip : Ipv4Addr) (frame : Vec UInt8) : Queued × ArpCache :=
  match self.entries[ip]? with
  | some (.Pending queue) =>
    if queue.length < MAX_PENDING_PER_ADDRESS then
      (.AlreadyPending, ⟨self.entries.insert ip (.Pending (queue ++ [frame]))⟩)
    else (.Dropped, self)
  | some (.Resolved _) => (.Dropped, self)
  | none =>
    if self.pending_addresses ≥ MAX_PENDING_ADDRESSES then (.Dropped, self)
    else (.RequestNeeded, ⟨self.entries.insert ip (.Pending [frame])⟩)

def remove (self : ArpCache) (ip : Ipv4Addr) : ArpCache := ⟨self.entries.erase ip⟩

def contains (self : ArpCache) (ip : Ipv4Addr) : Bool := (self.lookup ip).isSome

def pending_len (self : ArpCache) (ip : Ipv4Addr) : Nat :=
  match self.entries[ip]? with
  | some (.Pending queue) => queue.length
  | some (.Resolved _) | none => 0

end ArpCache

inductive ArpOperation where
  | Request
  | Reply
deriving DecidableEq

/-- `ArpOperation::try_from(u16)`. -/
def ArpOperation.try_from (value : UInt16) : Option ArpOperation :=
  if value = 1 then some .Request else if value = 2 then some .Reply else none

/-- `operation as u16`. -/
def ArpOperation.as_u16 : ArpOperation → UInt16
  | .Request => 1
  | .Reply => 2

inductive ArpError where
  | LengthOutOfRange
  | IncorrectFormat
  | BadOperation
deriving DecidableEq

structure ArpPacket where
  hardware_type : UInt16
  protocol_type : UInt16
  hardware_len : UInt8
  proto_len : UInt8
  operation : ArpOperation
  sender_mac : MacAddress
  sender_addr : Ipv4Addr
  target_mac : MacAddress
  target_addr : Ipv4Addr
deriving DecidableEq

namespace ArpPacket

def serialize (self : ArpPacket) : Bytes 28 :=
  let pkt := Bytes.zeros 28
  let pkt := pkt.copy_from_slice 0 2 (U16.to_be_bytes self.hardware_type) (by simp)
  let pkt := pkt.copy_from_slice 2 4 (U16.to_be_bytes self.protocol_type) (by simp)
  let pkt := pkt.copy_from_slice 4 5 [self.hardware_len] (by simp)
  let pkt := pkt.copy_from_slice 5 6 [self.proto_len] (by simp)
  let pkt := pkt.copy_from_slice 6 8 (U16.to_be_bytes self.operation.as_u16) (by simp)
  let pkt := pkt.copy_from_slice 8 14 self.sender_mac.addr.val (by simp)
  let pkt := pkt.copy_from_slice 14 18 self.sender_addr.octets.val (by simp)
  let pkt := pkt.copy_from_slice 18 24 self.target_mac.addr.val (by simp)
  pkt.copy_from_slice 24 28 self.target_addr.octets.val (by simp)

/-- The fields fill the packet without a gap. -/
theorem val_serialize (self : ArpPacket) : self.serialize.val =
    U16.to_be_bytes self.hardware_type ++ U16.to_be_bytes self.protocol_type ++ [self.hardware_len] ++
      [self.proto_len] ++ U16.to_be_bytes self.operation.as_u16 ++ self.sender_mac.addr.val ++
      self.sender_addr.octets.val ++ self.target_mac.addr.val ++ self.target_addr.octets.val := by
  -- Each copy starts where the one before it ends.
  rw [← List.take_of_length_le self.serialize.property.le]
  simp only [serialize, Bytes.take_copy_from_slice, List.take_zero, List.nil_append]

/-- A hardware address field. -/
def read_mac (packet_data : Slice UInt8) (start stop : Nat) : Result MacAddress := do
  let addr ← unwrap "invalid length" ((← packet_data.range start stop).try_into 6)
  ok (MacAddress.new addr)

/-- An address field. -/
def read_addr (packet_data : Slice UInt8) (start stop : Nat) : Result Ipv4Addr := do
  let octets ← unwrap "invalid length" ((← packet_data.range start stop).try_into 4)
  ok (Ipv4Addr.from_octets octets)

def from_slice (packet_data : Slice UInt8) : Result (Except ArpError ArpPacket) := do
  if packet_data.len < 28 then return .error .LengthOutOfRange
  let hardware_type ← U16.from_be_slice (← packet_data.range 0 2)
  let protocol_type ← U16.from_be_slice (← packet_data.range 2 4)
  let hardware_len ← U8.from_be_slice (← packet_data.range 4 5)
  let proto_len ← U8.from_be_slice (← packet_data.range 5 6)
  match ArpOperation.try_from (← U16.from_be_slice (← packet_data.range 6 8)) with
  | none => return .error .BadOperation
  | some operation =>
    if hardware_type ≠ 1 ∨ protocol_type ≠ 0x0800 ∨ hardware_len ≠ 6 ∨ proto_len ≠ 4 then
      return .error .IncorrectFormat
    let sender_mac ← read_mac packet_data 8 14
    let sender_addr ← read_addr packet_data 14 18
    let target_mac ← read_mac packet_data 18 24
    let target_addr ← read_addr packet_data 24 28
    return .ok {
      hardware_type := hardware_type
      protocol_type := protocol_type
      hardware_len := hardware_len
      proto_len := proto_len
      operation := operation
      sender_mac := sender_mac
      sender_addr := sender_addr
      target_mac := target_mac
      target_addr := target_addr }

end ArpPacket

end conc_os_net.arp
