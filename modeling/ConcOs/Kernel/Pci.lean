import ConcOs.Rust.Scalar

open rust

namespace conc_os.pci

/-- `virtio_drivers::transport::pci::bus::DeviceFunction`. -/
structure DeviceFunction where
  bus : UInt8
  device : UInt8
  function : UInt8
deriving DecidableEq

/-- A register in the configuration space of a function, of which a bus has 32
devices of 8 functions each. -/
structure Register where
  bus : Nat
  device : Nat
  function : Nat
  offset : Nat
deriving DecidableEq

/-- A read or a write of a register. -/
inductive Access where
  | read (register : Register)
  | write (register : Register) (value : UInt32)
deriving DecidableEq

/-- The host bridge: the address that was last written to port 0xCF8, and the
accesses that it has put on the bus, oldest first. -/
structure Bridge where
  address : UInt32
  accesses : List Access

/-- What the functions answer to a read, given all accesses up to it. -/
abbrev Functions := List Access → UInt32

/-- The register that an address selects. Bit 31 enables the data port. -/
def selected (address : UInt32) : Option Register :=
  if 2 ^ 31 ≤ address.toNat then
    some {
      bus := address.toNat / 2 ^ 16 % 2 ^ 8
      device := address.toNat / 2 ^ 11 % 2 ^ 5
      function := address.toNat / 2 ^ 8 % 2 ^ 3
      offset := address.toNat / 2 ^ 2 % 2 ^ 6 * 4 }
  else none

namespace Bridge

/-- A read of port 0xCFC. Without a register no function answers. -/
def read_data (functions : Functions) (self : Bridge) : UInt32 × Bridge :=
  match selected self.address with
  | some register =>
    let accesses := self.accesses ++ [.read register]
    (functions accesses, { self with accesses })
  | none => (0xFFFFFFFF, self)

/-- A write of port 0xCFC. -/
def write_data (value : UInt32) (self : Bridge) : Bridge :=
  match selected self.address with
  | some register => { self with accesses := self.accesses ++ [.write register value] }
  | none => self

end Bridge

def pci_config_address (bus device function offset : UInt8) : UInt32 :=
  ((1 : UInt32) <<< 31) ||| (bus.toUInt32 <<< 16) ||| (device.toUInt32 <<< 11) ||| (function.toUInt32 <<< 8) |||
    (offset.toUInt32 &&& 0xfc)

def pci_read_u32 (functions : Functions) (bus device function offset : UInt8) (bridge : Bridge) :
    UInt32 × Bridge :=
  let address := pci_config_address bus device function offset
  { bridge with address }.read_data functions

def pci_write_u32 (bus device function offset : UInt8) (value : UInt32) (bridge : Bridge) : Bridge :=
  let address := pci_config_address bus device function offset
  { bridge with address }.write_data value

/-- `virtio_drivers::transport::pci::bus::DeviceFunctionInfo`. -/
structure DeviceFunctionInfo (HeaderType : Type) where
  vendor_id : UInt16
  device_id : UInt16
  «class» : UInt8
  subclass : UInt8
  prog_if : UInt8
  revision : UInt8
  header_type : HeaderType

/-- `virtio_drivers::transport::DeviceType`, of which the kernel drives two. -/
inductive DeviceType where
  | Network
  | EntropySource
  | other (id : Nat)
deriving DecidableEq

/-- `HeaderType::from` and `virtio_device_type` of `virtio_drivers`. -/
structure VirtioDrivers where
  HeaderType : Type
  header_type : UInt8 → HeaderType
  virtio_device_type : DeviceFunctionInfo HeaderType → Option DeviceType

section

variable (virtio_drivers : VirtioDrivers)

/-- What the three registers that `virtio_type_at` reads say about a function. -/
def DeviceFunctionInfo.of (device_vendor class_revision bist_type_latency_cache : UInt32) :
    DeviceFunctionInfo virtio_drivers.HeaderType where
  vendor_id := device_vendor.toUInt16
  device_id := (device_vendor >>> 16).toUInt16
  «class» := (class_revision >>> 24).toUInt8
  subclass := (class_revision >>> 16).toUInt8
  prog_if := (class_revision >>> 8).toUInt8
  revision := class_revision.toUInt8
  header_type := virtio_drivers.header_type ((bist_type_latency_cache >>> 16).toUInt8 &&& 0x7f)

def virtio_type_at (functions : Functions) (bus device function : UInt8) (bridge : Bridge) :
    Option DeviceType × Bridge :=
  let (device_vendor, bridge) := pci_read_u32 functions bus device function 0 bridge
  let (class_revision, bridge) := pci_read_u32 functions bus device function 8 bridge
  let (bist_type_latency_cache, bridge) := pci_read_u32 functions bus device function 12 bridge
  (virtio_drivers.virtio_device_type (.of virtio_drivers device_vendor class_revision bist_type_latency_cache),
    bridge)

end

section address

/-- A field below the others adds to them. -/
theorem or_eq_add {high low : Nat} (i : Nat) (hhigh : 2 ^ i ∣ high) (hlow : low < 2 ^ i) :
    high ||| low = high + low := by
  obtain ⟨k, rfl⟩ := hhigh
  rw [Nat.two_pow_add_eq_or_of_lt hlow]

theorem and_register {n : Nat} (hn : n < 256) : n &&& 252 = n / 4 * 4 := by
  have hall : ∀ n < 256, n &&& 252 = n / 4 * 4 := by decide +kernel
  exact hall n hn

theorem toNat_shiftLeft_byte (field : UInt8) {amount : UInt32} (hamount : amount.toNat ≤ 24) :
    (field.toUInt32 <<< amount).toNat = field.toNat * 2 ^ amount.toNat := by
  have hfield := field.toNat_lt
  have hbits : amount.toNat % 32 = amount.toNat := Nat.mod_eq_of_lt (by omega)
  rw [UInt32.toNat_shiftLeft, UInt8.toNat_toUInt32, hbits, Nat.shiftLeft_eq, Nat.mod_eq_of_lt]
  calc field.toNat * 2 ^ amount.toNat
      < 2 ^ 8 * 2 ^ amount.toNat := by gcongr
    _ ≤ 2 ^ 8 * 2 ^ 24 := by gcongr; omega
    _ = 2 ^ 32 := by norm_num

/-- The fields of an address do not overlap. -/
theorem toNat_pci_config_address {device function : UInt8} (bus offset : UInt8) (hdevice : device.toNat < 32)
    (hfunction : function.toNat < 8) :
    (pci_config_address bus device function offset).toNat =
      2 ^ 31 + bus.toNat * 2 ^ 16 + device.toNat * 2 ^ 11 + function.toNat * 2 ^ 8 + offset.toNat / 4 * 4 := by
  have hbus := bus.toNat_lt
  have hoffset := offset.toNat_lt
  have henable : ((1 : UInt32) <<< 31).toNat = 2 ^ 31 := rfl
  have hlow : (offset.toUInt32 &&& 0xfc).toNat = offset.toNat / 4 * 4 := by
    rw [UInt32.toNat_and, UInt8.toNat_toUInt32]
    exact and_register hoffset
  have hbusField : (bus.toUInt32 <<< 16).toNat = bus.toNat * 2 ^ 16 := toNat_shiftLeft_byte bus (by decide)
  have hdeviceField : (device.toUInt32 <<< 11).toNat = device.toNat * 2 ^ 11 :=
    toNat_shiftLeft_byte device (by decide)
  have hfunctionField : (function.toUInt32 <<< 8).toNat = function.toNat * 2 ^ 8 :=
    toNat_shiftLeft_byte function (by decide)
  have hbusAdds : 2 ^ 31 ||| bus.toNat * 2 ^ 16 = _ := or_eq_add 31 (by omega) (by omega)
  have hdeviceAdds : 2 ^ 31 + bus.toNat * 2 ^ 16 ||| device.toNat * 2 ^ 11 = _ :=
    or_eq_add 16 (by omega) (by omega)
  have hfunctionAdds : 2 ^ 31 + bus.toNat * 2 ^ 16 + device.toNat * 2 ^ 11 ||| function.toNat * 2 ^ 8 = _ :=
    or_eq_add 11 (by omega) (by omega)
  rw [pci_config_address, UInt32.toNat_or, UInt32.toNat_or, UInt32.toNat_or, UInt32.toNat_or, henable, hbusField,
    hdeviceField, hfunctionField, hlow, hbusAdds, hdeviceAdds, hfunctionAdds]
  exact or_eq_add 8 (by omega) (by omega)

/-- The register of a function that contains the byte at an offset. -/
def Register.at (df : DeviceFunction) (offset : UInt8) : Register :=
  ⟨df.bus.toNat, df.device.toNat, df.function.toNat, offset.toNat / 4 * 4⟩

/-- An address selects the register that it was made for. -/
theorem selected_pci_config_address {df : DeviceFunction} (offset : UInt8) (hdevice : df.device.toNat < 32)
    (hfunction : df.function.toNat < 8) :
    selected (pci_config_address df.bus df.device df.function offset) = some (.at df offset) := by
  have hbus := df.bus.toNat_lt
  have hoffset := offset.toNat_lt
  have haddress := toNat_pci_config_address df.bus offset hdevice hfunction
  rw [selected, if_pos (by omega), haddress, Option.some.injEq, Register.at, Register.mk.injEq]
  refine ⟨?_, ?_, ?_, ?_⟩ <;> omega

/-- A read goes to the register it names and to no other, whatever was accessed before. -/
theorem pci_read_u32_eq (functions : Functions) {df : DeviceFunction} (offset : UInt8)
    (hdevice : df.device.toNat < 32) (hfunction : df.function.toNat < 8) (bridge : Bridge) :
    pci_read_u32 functions df.bus df.device df.function offset bridge =
      (functions (bridge.accesses ++ [.read (.at df offset)]),
        ⟨pci_config_address df.bus df.device df.function offset,
          bridge.accesses ++ [.read (.at df offset)]⟩) := by
  simp only [pci_read_u32, Bridge.read_data, selected_pci_config_address offset hdevice hfunction]

theorem pci_write_u32_eq {df : DeviceFunction} (offset : UInt8) (value : UInt32) (hdevice : df.device.toNat < 32)
    (hfunction : df.function.toNat < 8) (bridge : Bridge) :
    pci_write_u32 df.bus df.device df.function offset value bridge =
      ⟨pci_config_address df.bus df.device df.function offset,
        bridge.accesses ++ [.write (.at df offset) value]⟩ := by
  simp only [pci_write_u32, Bridge.write_data, selected_pci_config_address offset hdevice hfunction]

end address

section identity

variable (virtio_drivers : VirtioDrivers)

/-- The registers that `virtio_type_at` reads always return the same. -/
def Identifies (functions : Functions) (identity : DeviceFunction → UInt8 → UInt32) : Prop :=
  ∀ past df, ∀ offset ∈ [0, 8, 12], functions (past ++ [.read (.at df offset)]) = identity df offset

/-- The type of a function. -/
def typeOf (identity : DeviceFunction → UInt8 → UInt32) (df : DeviceFunction) : Option DeviceType :=
  virtio_drivers.virtio_device_type (.of virtio_drivers (identity df 0) (identity df 8) (identity df 12))

/-- The reads of `virtio_type_at`. -/
def identifying (df : DeviceFunction) : List Access := [.read (.at df 0), .read (.at df 8), .read (.at df 12)]

/-- A function is identified by reads of its own registers. -/
theorem virtio_type_at_eq {functions : Functions} {identity : DeviceFunction → UInt8 → UInt32}
    (hidentity : Identifies functions identity) {df : DeviceFunction} (hdevice : df.device.toNat < 32)
    (hfunction : df.function.toNat < 8) (bridge : Bridge) :
    ∃ address, virtio_type_at virtio_drivers functions df.bus df.device df.function bridge =
      (typeOf virtio_drivers identity df, ⟨address, bridge.accesses ++ identifying df⟩) := by
  refine ⟨pci_config_address df.bus df.device df.function 12, ?_⟩
  simp only [virtio_type_at, pci_read_u32_eq functions _ hdevice hfunction, hidentity _ df 0 (by simp),
    hidentity _ df 8 (by simp), hidentity _ df 12 (by simp), typeOf]
  simp only [List.append_assoc, List.cons_append, List.nil_append, identifying]

end identity

end conc_os.pci
