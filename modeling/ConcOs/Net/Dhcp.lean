import ConcOs.Net.Address

open rust Result
open conc_os_net.ethernet

namespace conc_os_net.dhcp

def CLIENT_PORT : UInt16 := 68

def SERVER_PORT : UInt16 := 67

/-- The BOOTP header plus the magic cookie. -/
def FIXED_LEN : Nat := 240

def MESSAGE_LEN : Nat := 300

def MAGIC_COOKIE : List UInt8 := [0x63, 0x82, 0x53, 0x63]

def OP_BOOT_REQUEST : UInt8 := 1
def OP_BOOT_REPLY : UInt8 := 2
def HTYPE_ETHERNET : UInt8 := 1
def HLEN_ETHERNET : UInt8 := 6

def FLAG_BROADCAST : UInt16 := 0x8000

def OPT_PAD : UInt8 := 0
def OPT_SUBNET_MASK : UInt8 := 1
def OPT_ROUTER : UInt8 := 3
def OPT_REQUESTED_ADDR : UInt8 := 50
def OPT_MESSAGE_TYPE : UInt8 := 53
def OPT_SERVER_ID : UInt8 := 54
def OPT_PARAMETER_REQUEST_LIST : UInt8 := 55
def OPT_END : UInt8 := 255

def PARAMETER_REQUEST : List UInt8 := [OPT_PARAMETER_REQUEST_LIST, 2, OPT_SUBNET_MASK, OPT_ROUTER]

inductive DHCPError where
  | TooShort
  | NotAReply
  | BadMagicCookie
  | XidMismatch
  | ClientMacMismatch
  | InvalidTLV
  | WrongMessageType
  | MissingData
deriving DecidableEq

inductive DHCPMessageType where
  | Discover
  | Offer
  | Request
  | Decline
  | Ack
  | Nak
  | Release
  | Inform
deriving DecidableEq

/-- `DHCPMessageType::try_from(u8)`. -/
def DHCPMessageType.try_from (value : UInt8) : Option DHCPMessageType :=
  if value = 1 then some .Discover
  else if value = 2 then some .Offer
  else if value = 3 then some .Request
  else if value = 4 then some .Decline
  else if value = 5 then some .Ack
  else if value = 6 then some .Nak
  else if value = 7 then some .Release
  else if value = 8 then some .Inform
  else none

/-- `message_type as u8`. -/
def DHCPMessageType.as_u8 : DHCPMessageType → UInt8
  | .Discover => 1
  | .Offer => 2
  | .Request => 3
  | .Decline => 4
  | .Ack => 5
  | .Nak => 6
  | .Release => 7
  | .Inform => 8

/-- The header both client messages share, followed by `options` and zeros. -/
def build_message (client_mac : MacAddress) (xid : UInt32) (options : List UInt8) : Result (Vec UInt8) := do
  let msg ← Vec.from (List.replicate MESSAGE_LEN 0)
  let msg ← msg.set 0 OP_BOOT_REQUEST
  let msg ← msg.set 1 HTYPE_ETHERNET
  let msg ← msg.set 2 HLEN_ETHERNET
  let msg ← msg.copy_from_slice 4 8 (U32.to_be_bytes xid)
  let msg ← msg.copy_from_slice 10 12 (U16.to_be_bytes FLAG_BROADCAST)
  let msg ← msg.copy_from_slice 28 (28 + 6) client_mac.addr.val
  let msg ← msg.copy_from_slice 236 240 MAGIC_COOKIE
  msg.copy_from_slice FIXED_LEN (FIXED_LEN + options.length) options

def build_discover (client_mac : MacAddress) (xid : UInt32) : Result (Vec UInt8) := do
  let options ← Vec.from (List.replicate (3 + PARAMETER_REQUEST.length + 1) 0)
  let options ← options.copy_from_slice 0 3 [OPT_MESSAGE_TYPE, 1, DHCPMessageType.Discover.as_u8]
  let options ← options.copy_from_slice 3 (3 + PARAMETER_REQUEST.length) PARAMETER_REQUEST
  let options ← options.set (3 + PARAMETER_REQUEST.length) OPT_END
  build_message client_mac xid options.val

/-- The configuration a server binds to a client. -/
structure DHCPBinding where
  client_addr : Ipv4Addr
  subnet_mask : Ipv4Addr
  gateway : Ipv4Addr
  server_id : Ipv4Addr
deriving DecidableEq

def build_request (client_mac : MacAddress) (xid : UInt32) (offer : DHCPBinding) : Result (Vec UInt8) := do
  let options ← Vec.from (List.replicate (3 + 6 + 6 + PARAMETER_REQUEST.length + 1) 0)
  let options ← options.copy_from_slice 0 3 [OPT_MESSAGE_TYPE, 1, DHCPMessageType.Request.as_u8]
  let options ← options.copy_from_slice 3 5 [OPT_REQUESTED_ADDR, 4]
  let options ← options.copy_from_slice 5 9 offer.client_addr.octets.val
  let options ← options.copy_from_slice 9 11 [OPT_SERVER_ID, 4]
  let options ← options.copy_from_slice 11 15 offer.server_id.octets.val
  let options ← options.copy_from_slice 15 (15 + PARAMETER_REQUEST.length) PARAMETER_REQUEST
  let options ← options.set (15 + PARAMETER_REQUEST.length) OPT_END
  build_message client_mac xid options.val

/-- The options recognised while parsing. -/
structure Options where
  message_type : Option DHCPMessageType
  subnet_mask : Option Ipv4Addr
  router : Option Ipv4Addr
  server_id : Option Ipv4Addr
deriving DecidableEq

/-- `Options::default()`. -/
def Options.default : Options := ⟨none, none, none, none⟩

def parse_addr (value : Slice UInt8) : Except DHCPError Ipv4Addr :=
  match value.try_into 4 with
  | some octets => .ok (Ipv4Addr.from_octets octets)
  | none => .error .InvalidTLV

/-- The `match tag` of `parse_options`: stores the value of one option. -/
def parse_option (parsed : Options) (tag : UInt8) (value : Slice UInt8) :
    Result (Except DHCPError Options) := do
  if tag = OPT_SUBNET_MASK then
    match parse_addr value with
    | .ok addr => return .ok { parsed with subnet_mask := some addr }
    | .error e => return .error e
  else if tag = OPT_ROUTER then
    if value.len = 0 ∨ value.len % 4 ≠ 0 then return .error .InvalidTLV
    match parse_addr (← value.range_to 4) with
    | .ok addr => return .ok { parsed with router := some addr }
    | .error e => return .error e
  else if tag = OPT_SERVER_ID then
    match parse_addr value with
    | .ok addr => return .ok { parsed with server_id := some addr }
    | .error e => return .error e
  else if tag = OPT_MESSAGE_TYPE then
    match ((value.get 0).filter fun _ => value.len = 1).bind DHCPMessageType.try_from with
    | some ty => return .ok { parsed with message_type := some ty }
    | none => return .error .InvalidTLV
  else return .ok parsed

/-- One iteration of the `while` loop of `parse_options`, on the cursor and the
options found so far. -/
def parse_options_step (options : Slice UInt8) (state : Nat × Options) :
    Result (ControlFlow (Nat × Options) (Except DHCPError Options)) := do
  let (cur, parsed) := state
  if cur < options.len then
    let tag ← options.index cur
    if tag = OPT_PAD then
      let cur ← Usize.add cur 1
      return .cont (cur, parsed)
    if tag = OPT_END then return .done (.ok parsed)
    match options.get (← Usize.add cur 1) with
    | none => return .done (.error .InvalidTLV)
    | some len =>
      let start ← Usize.add cur 2
      let stop ← Usize.add start len.toNat
      match options.get_range start stop with
      | none => return .done (.error .InvalidTLV)
      | some value =>
        match ← parse_option parsed tag value with
        | .error e => return .done (.error e)
        | .ok parsed =>
          let cur ← Usize.add cur (← Usize.add 2 len.toNat)
          return .cont (cur, parsed)
  else return .done (.error .InvalidTLV)

/-- Walks the options field. Every iteration moves the cursor, so one more
iteration than there are bytes suffices. -/
def parse_options (options : Slice UInt8) : Result (Except DHCPError Options) :=
  loop (parse_options_step options) (options.len + 1) (0, Options.default)

namespace DHCPBinding

def from_message (msg : Slice UInt8) (xid : UInt32) (client_mac : MacAddress)
    (expected : DHCPMessageType) : Result (Except DHCPError DHCPBinding) := do
  if msg.len < FIXED_LEN then return .error .TooShort
  if (← msg.index 0) ≠ OP_BOOT_REPLY ∨ (← msg.index 1) ≠ HTYPE_ETHERNET ∨
      (← msg.index 2) ≠ HLEN_ETHERNET then
    return .error .NotAReply
  if (← msg.range 236 240).val ≠ MAGIC_COOKIE then return .error .BadMagicCookie
  if (← U32.from_be_slice (← msg.range 4 8)) ≠ xid then return .error .XidMismatch
  let chaddr := client_mac.addr.val ++ List.replicate 10 0
  if (← msg.range 28 44).val ≠ chaddr then return .error .ClientMacMismatch
  match ← parse_options (← msg.range_from FIXED_LEN) with
  | .error e => return .error e
  | .ok options =>
    if options.message_type ≠ some expected then return .error .WrongMessageType
    match options.subnet_mask, options.router, options.server_id with
    | some subnet_mask, some gateway, some server_id =>
      let octets ← unwrap "yiaddr is a four byte field" ((← msg.range 16 20).try_into 4)
      let client_addr := Ipv4Addr.from_octets octets
      if client_addr.is_unspecified then return .error .MissingData
      return .ok {
        client_addr := client_addr
        subnet_mask := subnet_mask
        gateway := gateway
        server_id := server_id }
    | _, _, _ => return .error .MissingData

def from_offer (msg : Slice UInt8) (xid : UInt32) (client_mac : MacAddress) :
    Result (Except DHCPError DHCPBinding) :=
  from_message msg xid client_mac .Offer

def from_ack (msg : Slice UInt8) (xid : UInt32) (client_mac : MacAddress) :
    Result (Except DHCPError DHCPBinding) :=
  from_message msg xid client_mac .Ack

end DHCPBinding

end conc_os_net.dhcp
