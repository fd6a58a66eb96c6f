import ConcOs.Net.Address
import ConcOs.Net.Checksum

open rust Result ones_complement

namespace conc_os_net.ipv4

inductive IPProtocol where
  | ICMP
  | TCP
  | UDP
  | Unknown (proto : UInt8)
deriving DecidableEq

/-- `IPProtocol::from(u8)`. -/
def IPProtocol.from (value : UInt8) : IPProtocol :=
  if value = 1 then .ICMP else if value = 6 then .TCP else if value = 17 then .UDP else .Unknown value

/-- `u8::from(IPProtocol)`. -/
def IPProtocol.into : IPProtocol → UInt8
  | .ICMP => 1
  | .TCP => 6
  | .UDP => 17
  | .Unknown proto => proto

inductive Ipv4Error where
  | VersionMismatch
  | LengthOutOfRange
  | IHLMismatch
  | HeaderLengthMismatch
  | TotalLengthMismatch
  | EvilBitSet
  | IncorrectChecksum
deriving DecidableEq

structure Ipv4Packet where
  version_ihl : UInt8
  dscp_ecn : UInt8
  total_length : UInt16
  id : UInt16
  frag_offset : UInt16
  dont_fragment : Bool
  more_fragments : Bool
  ttl : UInt8
  protocol : IPProtocol
  checksum : UInt16
  source : Ipv4Addr
  dest : Ipv4Addr
  options : Slice UInt8
  data : Slice UInt8
deriving DecidableEq

namespace Ipv4Packet

def new (data : Slice UInt8) (source dest : Ipv4Addr) (id : UInt16) (protocol : IPProtocol) :
    Result (Except Ipv4Error Ipv4Packet) := do
  match U16.try_from (← Usize.add data.len 20) with
  | none => ok (.error .LengthOutOfRange)
  | some total_len =>
    ok (.ok {
      version_ihl := 0x45
      dscp_ecn := 0
      total_length := total_len
      id := id
      frag_offset := 0
      dont_fragment := false
      more_fragments := false
      ttl := 64
      protocol := protocol
      checksum := 0
      source := source
      dest := dest
      options := Slice.empty
      data := data })

/-- The four octets of an address field. -/
def read_addr (packet : Slice UInt8) (start stop : Nat) : Result Ipv4Addr := do
  let octets ← unwrap "invalid length" ((← packet.range start stop).try_into 4)
  ok (Ipv4Addr.from_octets octets)

/-- `from_packet`, with the checksum that it calls as a parameter. -/
def from_packetWith (internet_checksum : List (List UInt8) → Result UInt16) (packet : Slice UInt8) :
    Result (Except Ipv4Error Ipv4Packet) := do
  if packet.len < 20 then return .error .LengthOutOfRange
  let version_ihl ← U8.from_be_slice (← packet.range 0 1)
  let version := (version_ihl >>> 4) &&& 0xf
  if version ≠ 4 then return .error .VersionMismatch
  let ihl := version_ihl &&& 0xf
  if ihl < 5 then return .error .IHLMismatch
  let header_len := (← U8.mul ihl 4).toNat
  if header_len > packet.len then return .error .HeaderLengthMismatch
  let dscp_ecn ← U8.from_be_slice (← packet.range 1 2)
  let total_length := (← U16.from_be_slice (← packet.range 2 4)).toNat
  if total_length > packet.len ∨ total_length < header_len then return .error .TotalLengthMismatch
  let packet ← packet.range_to total_length
  let id ← U16.from_be_slice (← packet.range 4 6)
  let flags_frag_offset ← U16.from_be_slice (← packet.range 6 8)
  let frag_offset := flags_frag_offset &&& 0x1fff
  let flags := flags_frag_offset >>> 13
  let evil_bit : Bool := flags &&& 0b100 ≠ 0
  let dont_fragment : Bool := flags &&& 0b010 ≠ 0
  let more_fragments : Bool := flags &&& 0b001 ≠ 0
  if evil_bit then return .error .EvilBitSet
  let ttl ← U8.from_be_slice (← packet.range 8 9)
  let protocol := IPProtocol.from (← U8.from_be_slice (← packet.range 9 10))
  let checksum ← U16.from_be_slice (← packet.range 10 12)
  if (← internet_checksum [(← packet.range_to header_len).val]) ≠ 0 then
    return .error .IncorrectChecksum
  let src_addr ← read_addr packet 12 16
  let dst_addr ← read_addr packet 16 20
  let options ← packet.range 20 header_len
  let data ← packet.range_from header_len
  return .ok {
    version_ihl := version_ihl
    dscp_ecn := dscp_ecn
    total_length := UInt16.ofNat total_length
    id := id
    frag_offset := frag_offset
    dont_fragment := dont_fragment
    more_fragments := more_fragments
    ttl := ttl
    protocol := protocol
    checksum := checksum
    source := src_addr
    dest := dst_addr
    options := options
    data := data }

def from_packet (packet : Slice UInt8) : Result (Except Ipv4Error Ipv4Packet) :=
  from_packetWith internet_checksum packet

/-- `serialize`, with the checksum that it calls as a parameter. -/
def serializeWith (internet_checksum : List (List UInt8) → Result UInt16) (self : Ipv4Packet) :
    Result (Vec UInt8) := do
  let flags ← U16.add (if self.dont_fragment then 0b010 else 0) (if self.more_fragments then 0b001 else 0)
  let flags_frag_offset ← U16.add (self.frag_offset &&& 0x1fff) (flags <<< 13)
  let result ← Vec.from ([self.version_ihl, self.dscp_ecn] ++ U16.to_be_bytes self.total_length ++
    U16.to_be_bytes self.id ++ U16.to_be_bytes flags_frag_offset ++ [self.ttl, self.protocol.into] ++
    List.replicate 2 0 ++ self.source.octets.val ++ self.dest.octets.val ++ self.options.val ++ self.data.val)
  let checksum ← internet_checksum [(← result.range_to (← Usize.add 20 self.options.len)).val]
  result.copy_from_slice 10 12 (U16.to_be_bytes checksum)

def serialize (self : Ipv4Packet) : Result (Vec UInt8) := self.serializeWith internet_checksum

end Ipv4Packet

end conc_os_net.ipv4
