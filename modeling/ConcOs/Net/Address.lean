import ConcOs.Rust.Bytes

namespace rust

/-- `core::net::Ipv4Addr`: four octets, ordered lexicographically. -/
structure Ipv4Addr where
  octets : Bytes 4
deriving DecidableEq

namespace Ipv4Addr

def new (a b c d : UInt8) : Ipv4Addr := ⟨⟨[a, b, c, d], rfl⟩⟩

def from_octets (octets : Bytes 4) : Ipv4Addr := ⟨octets⟩

def BROADCAST : Ipv4Addr := new 255 255 255 255

def UNSPECIFIED : Ipv4Addr := new 0 0 0 0

def is_unspecified (self : Ipv4Addr) : Bool := self = UNSPECIFIED

/-- `u32::from(addr)`. -/
def to_bits (self : Ipv4Addr) : UInt32 :=
  match self.octets.val with
  | [a, b, c, d] => U32.from_be_bytes a b c d
  | _ => 0

/-- `Ipv4Addr::from(bits)`. -/
def from_bits (bits : UInt32) : Ipv4Addr := ⟨⟨U32.to_be_bytes bits, rfl⟩⟩

/-- Every address is given by its four octets. -/
theorem eq_new (addr : Ipv4Addr) : ∃ a b c d, addr = new a b c d := by
  obtain ⟨⟨octets, hlen⟩⟩ := addr
  match octets, hlen with
  | [a, b, c, d], _ => exact ⟨a, b, c, d, rfl⟩

@[simp] theorem octets_new (a b c d : UInt8) : (new a b c d).octets.val = [a, b, c, d] := rfl

@[simp] theorem length_octets (addr : Ipv4Addr) : addr.octets.val.length = 4 := addr.octets.property

theorem ext_val {a b : Ipv4Addr} (h : a.octets.val = b.octets.val) : a = b := by
  obtain ⟨a⟩ := a
  obtain ⟨b⟩ := b
  exact congrArg Ipv4Addr.mk (Bytes.ext h)

theorem from_bits_inj {a b : UInt32} : from_bits a = from_bits b ↔ a = b := by
  rw [← U32.to_be_bytes_inj]
  exact ⟨congrArg fun addr : Ipv4Addr => addr.octets.val, fun h => ext_val h⟩

instance : Ord Ipv4Addr := ⟨fun a b => compare a.octets.val b.octets.val⟩

instance : Std.TransOrd Ipv4Addr where
  eq_swap := by
    intro a b
    exact @Std.OrientedCmp.eq_swap (List UInt8) compare _ a.octets.val b.octets.val
  isLE_trans := by
    intro a b c
    exact @Std.TransCmp.isLE_trans (List UInt8) compare _ a.octets.val b.octets.val c.octets.val

instance : Std.LawfulEqOrd Ipv4Addr where
  eq_of_compare := by
    intro a b h
    exact ext_val (@Std.LawfulEqCmp.eq_of_compare (List UInt8) compare _ a.octets.val b.octets.val h)
  compare_self := by
    intro a
    exact @Std.ReflCmp.compare_self (List UInt8) compare _ a.octets.val

end Ipv4Addr

end rust

namespace conc_os_net.ethernet

structure MacAddress where
  addr : rust.Bytes 6
deriving DecidableEq

namespace MacAddress

def new (addr : rust.Bytes 6) : MacAddress := ⟨addr⟩

def broadcast : MacAddress := ⟨⟨[255, 255, 255, 255, 255, 255], rfl⟩⟩

@[simp] theorem length_addr (mac : MacAddress) : mac.addr.val.length = 6 := mac.addr.property

theorem ext_val {a b : MacAddress} (h : a.addr.val = b.addr.val) : a = b := by
  obtain ⟨a⟩ := a
  obtain ⟨b⟩ := b
  exact congrArg MacAddress.mk (rust.Bytes.ext h)

/-- Every hardware address is given by its six bytes. -/
theorem eq_six (mac : MacAddress) : ∃ a b c d e f, mac.addr.val = [a, b, c, d, e, f] := by
  obtain ⟨⟨addr, hlen⟩⟩ := mac
  match addr, hlen with
  | [a, b, c, d, e, f], _ => exact ⟨a, b, c, d, e, f, rfl⟩

end MacAddress

end conc_os_net.ethernet
