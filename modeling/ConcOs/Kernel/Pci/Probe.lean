import ConcOs.Kernel.Pci
import ConcOs.Rust.Run
import Mathlib.Logic.Function.Basic

open rust Result

namespace conc_os.apic

structure IoApicInfo where
  gsi_base : UInt32

/-- An entry of the redirection table: an input of the I/O APIC, and the vector
that it raises. -/
structure Route where
  index : UInt8
  vector : UInt8
deriving DecidableEq

/-- The entry that `route_pci_interrupt` writes. -/
def route_pci_interrupt (overflow_checks : Bool) (io_apics : List IoApicInfo) (gsi vector : UInt8) :
    Result Route := do
  let io_apic_info ← unwrap "must have an I/O apic" io_apics.head?
  let index ← U8.sub overflow_checks gsi io_apic_info.gsi_base.toUInt8
  return ⟨index, vector⟩

end conc_os.apic

namespace conc_os.interrupts

def VIRTIO_NET_VECTOR : UInt8 := 0x60

end conc_os.interrupts

namespace conc_os.pci

open conc_os.apic

/-- The two drivers. -/
inductive Role where
  | net
  | rng
deriving DecidableEq

/-- The type of device that a driver is for. -/
def Role.device_type : Role → DeviceType
  | .net => .Network
  | .rng => .EntropySource

inductive DeviceErr where
  | FailedInit
  | VirtioError
deriving DecidableEq

/-- An attempt to bring up a device: the accesses that `PciTransport::new` makes
through `PortCam` to the function it is given, and how it ends. -/
structure Attempt where
  requests : List (UInt8 × Option UInt32)
  result : Except DeviceErr Unit

/-- A function that `PciTransport::new` was called for, and whether the driver came
up. If it did not, a transport that was built is dropped, which resets the device. -/
structure Touch where
  role : Role
  df : DeviceFunction
  up : Bool
deriving DecidableEq

/-- The statics `VIRTIO_NET` and `VIRTIO_RNG`, as the functions whose drivers they
hold; and what was done to the hardware, oldest first. -/
structure Devices where
  bridge : Bridge
  drivers : Role → Option DeviceFunction
  touched : List Touch
  routes : List Route

/-- Before anything was probed. -/
def Devices.boot (address : UInt32) : Devices := ⟨⟨address, []⟩, fun _ => none, [], []⟩

section

variable (virtio_drivers : VirtioDrivers) (functions : Functions)

/-- `PortCam::read_word` and `PortCam::write_word`. -/
def access_word (df : DeviceFunction) (bridge : Bridge) (request : UInt8 × Option UInt32) : Bridge :=
  match request with
  | (offset, none) => (pci_read_u32 functions df.bus df.device df.function offset bridge).2
  | (offset, some value) => pci_write_u32 df.bus df.device df.function offset value bridge

/-- `init_net_from_df` and `init_rng_from_df`. -/
def init_from_df (role : Role) (attempt : Attempt) (df : DeviceFunction) (self : Devices) :
    Except DeviceErr Unit × Devices :=
  let bridge := attempt.requests.foldl (access_word functions df) self.bridge
  let self := { self with bridge }
  match attempt.result with
  | .ok () =>
    -- `call_once`
    let drivers := Function.update self.drivers role (some ((self.drivers role).getD df))
    (.ok (), { self with drivers, touched := self.touched ++ [⟨role, df, true⟩] })
  | .error err => (.error err, { self with touched := self.touched ++ [⟨role, df, false⟩] })

/-- The loops of `init_virtio_net_pci` and `init_virtio_rng`, over the functions in
the order they visit them. Returns the function at which they return. -/
def probe (role : Role) (attempts : DeviceFunction → Attempt) :
    List DeviceFunction → Devices → Option DeviceFunction × Devices
  | [], self => (none, self)
  | df :: rest, self =>
    let (kind, bridge) := virtio_type_at virtio_drivers functions df.bus df.device df.function self.bridge
    let self := { self with bridge }
    if kind ≠ some role.device_type then probe role attempts rest self
    else
      match init_from_df functions role (attempts df) df self with
      | (.ok (), self) => (some df, self)
      | (.error _, self) => probe role attempts rest self

end

/-- The functions in the order of the three loops. -/
def allFunctions : List DeviceFunction :=
  (List.range 256).flatMap fun bus => (List.range 32).flatMap fun device => (List.range 8).map fun function =>
    ⟨.ofNat bus, .ofNat device, .ofNat function⟩

end conc_os.pci

namespace conc_os.network.device

open conc_os.pci conc_os.apic conc_os.interrupts

variable (virtio_drivers : VirtioDrivers) (functions : Functions)

def init_virtio_net_pci (overflow_checks : Bool) (io_apics : List IoApicInfo)
    (attempts : DeviceFunction → Attempt) (self : Devices) : Result (Bool × Devices) := do
  if (self.drivers .net).isSome then return (true, self)
  match probe virtio_drivers functions .net attempts allFunctions self with
  | (some df, self) =>
    let (pci_reg, bridge) := pci_read_u32 functions df.bus df.device df.function 0x3C self.bridge
    let gsi := (pci_reg &&& 0xff).toUInt8
    let route ← route_pci_interrupt overflow_checks io_apics gsi VIRTIO_NET_VECTOR
    return (true, { self with bridge, routes := self.routes ++ [route] })
  | (none, self) => return (false, self)

end conc_os.network.device

namespace conc_os.rng

open conc_os.pci

variable (virtio_drivers : VirtioDrivers) (functions : Functions)

def init_virtio_rng (attempts : DeviceFunction → Attempt) (self : Devices) : Bool × Devices :=
  if (self.drivers .rng).isSome then (true, self)
  else
    match probe virtio_drivers functions .rng attempts allFunctions self with
    | (some _, self) => (true, self)
    | (none, self) => (false, self)

end conc_os.rng

namespace conc_os.pci

open conc_os.network.device conc_os.rng conc_os.apic

/-- A call of one of the two functions, with how the attempts of this call end. -/
structure Call where
  role : Role
  attempts : DeviceFunction → Attempt

variable (virtio_drivers : VirtioDrivers) (functions : Functions)

def perform (overflow_checks : Bool) (io_apics : List IoApicInfo) (self : Devices) (call : Call) :
    Result (Bool × Devices) :=
  match call.role with
  | .net => init_virtio_net_pci virtio_drivers functions overflow_checks io_apics call.attempts self
  | .rng => ok (init_virtio_rng virtio_drivers functions call.attempts self)

def Access.register : Access → Register
  | .read register => register
  | .write register _ => register

def Access.writes : Access → Bool
  | .read _ => false
  | .write _ _ => true

/-- The register is in the configuration space of the function. -/
def Register.Of (register : Register) (df : DeviceFunction) : Prop :=
  register.bus = df.bus.toNat ∧ register.device = df.device.toNat ∧ register.function = df.function.toNat

theorem mem_allFunctions {df : DeviceFunction} :
    df ∈ allFunctions ↔ df.device.toNat < 32 ∧ df.function.toNat < 8 := by
  simp only [allFunctions, List.mem_flatMap, List.mem_map, List.mem_range]
  constructor
  · rintro ⟨bus, _, device, hdevice, function, hfunction, rfl⟩
    simp only [UInt8.toNat_ofNat']
    omega
  · rintro ⟨hdevice, hfunction⟩
    exact ⟨df.bus.toNat, df.bus.toNat_lt, df.device.toNat, hdevice, df.function.toNat, hfunction, by simp⟩

/-- `PortCam` accesses the function it is given. -/
theorem access_word_eq {df : DeviceFunction} (hdf : df ∈ allFunctions) (bridge : Bridge)
    (request : UInt8 × Option UInt32) :
    ∃ access, (access_word functions df bridge request).accesses = bridge.accesses ++ [access] ∧
      access.register.Of df := by
  obtain ⟨hdevice, hfunction⟩ := mem_allFunctions.mp hdf
  obtain ⟨offset, value⟩ := request
  cases value with
  | none =>
    refine ⟨.read (.at df offset), ?_, rfl, rfl, rfl⟩
    simp only [access_word, pci_read_u32_eq functions offset hdevice hfunction]
  | some value =>
    refine ⟨.write (.at df offset) value, ?_, rfl, rfl, rfl⟩
    simp only [access_word, pci_write_u32_eq offset value hdevice hfunction]

theorem foldl_access_word {df : DeviceFunction} (hdf : df ∈ allFunctions) (bridge : Bridge)
    (requests : List (UInt8 × Option UInt32)) :
    ∃ accesses, (requests.foldl (access_word functions df) bridge).accesses = bridge.accesses ++ accesses ∧
      ∀ access ∈ accesses, access.register.Of df := by
  induction requests generalizing bridge with
  | nil => exact ⟨[], by simp, by simp⟩
  | cons request requests ih =>
    obtain ⟨access, haccess, hof⟩ := access_word_eq functions hdf bridge request
    obtain ⟨accesses, haccesses, hall⟩ := ih (access_word functions df bridge request)
    refine ⟨access :: accesses, ?_, List.forall_mem_cons.mpr ⟨hof, hall⟩⟩
    rw [List.foldl_cons, haccesses, haccess, List.append_assoc, List.singleton_append]

section probe

variable {functions : Functions} {identity : DeviceFunction → UInt8 → UInt32} {virtio_drivers}

/-- The functions of the type that a driver is for. -/
def candidates (virtio_drivers : VirtioDrivers)
    (identity : DeviceFunction → UInt8 → UInt32) (role : Role) (scanned : List DeviceFunction) :
    List DeviceFunction :=
  scanned.filter fun df => typeOf virtio_drivers identity df = some role.device_type

/-- The attempt brings the driver up. -/
def Attempt.up (attempt : Attempt) : Bool := attempt.result.isOk

/-- A probe tries the candidates in order until one comes up, and writes to no other
function. -/
structure Probed (role : Role) (attempts : DeviceFunction → Attempt) (tried : List DeviceFunction)
    (before : Devices) (result : Option DeviceFunction) (after : Devices) : Prop where
  found : result = tried.find? fun df => (attempts df).up
  touched : after.touched = before.touched ++
    ((tried.takeWhile fun df => !(attempts df).up).map (⟨role, ·, false⟩) ++ result.toList.map (⟨role, ·, true⟩))
  drivers : after.drivers = result.elim before.drivers fun df =>
    Function.update before.drivers role (some ((before.drivers role).getD df))
  writes : ∃ accesses, after.bridge.accesses = before.bridge.accesses ++ accesses ∧
    ∀ access ∈ accesses, access.writes = true → ∃ touch ∈ after.touched, access.register.Of touch.df

theorem Probed.driver {role : Role} {attempts : DeviceFunction → Attempt} {tried : List DeviceFunction}
    {before after : Devices} {result : Option DeviceFunction}
    (h : Probed role attempts tried before result after)
    (hnone : before.drivers role = none) : after.drivers role = result := by
  rw [h.drivers]
  cases result with
  | none => exact hnone
  | some df => rw [Option.elim_some, Function.update_self, hnone, Option.getD_none]

/-- Reads before a probe change nothing. -/
theorem Probed.skip {role : Role} {attempts : DeviceFunction → Attempt} {tried : List DeviceFunction}
    {self after : Devices} {result : Option DeviceFunction} {bridge : Bridge} {reads : List Access}
    (h : Probed role attempts tried { self with bridge } result after)
    (hbridge : bridge.accesses = self.bridge.accesses ++ reads)
    (hreads : ∀ access ∈ reads, access.writes = false) :
    Probed role attempts tried self result after where
  found := h.found
  touched := h.touched
  drivers := h.drivers
  writes := by
    obtain ⟨accesses, haccesses, hwrites⟩ := h.writes
    refine ⟨reads ++ accesses, by rw [haccesses, hbridge, List.append_assoc], fun access hmem hwrite => ?_⟩
    rcases List.mem_append.mp hmem with hread | hmem
    · rw [hreads access hread] at hwrite
      cases hwrite
    · exact hwrites access hmem hwrite

/-- A candidate that does not come up is tried before the others. -/
theorem Probed.fail {role : Role} {attempts : DeviceFunction → Attempt} {tried : List DeviceFunction}
    {self after : Devices} {result : Option DeviceFunction} {df : DeviceFunction} {bridge : Bridge}
    {accesses : List Access}
    (h : Probed role attempts tried { self with bridge, touched := self.touched ++ [⟨role, df, false⟩] }
      result after)
    (hdown : (attempts df).up = false) (hbridge : bridge.accesses = self.bridge.accesses ++ accesses)
    (hof : ∀ access ∈ accesses, access.register.Of df) :
    Probed role attempts (df :: tried) self result after where
  found := by rw [List.find?_cons_of_neg (by simp [hdown])]; exact h.found
  touched := by
    rw [h.touched, List.takeWhile_cons_of_pos (by simp [hdown])]
    simp
  drivers := h.drivers
  writes := by
    obtain ⟨later, hlater, hwrites⟩ := h.writes
    refine ⟨accesses ++ later, by rw [hlater, hbridge, List.append_assoc], fun access hmem hwrite => ?_⟩
    rcases List.mem_append.mp hmem with hmem | hmem
    · exact ⟨⟨role, df, false⟩, by rw [h.touched]; simp, hof access hmem⟩
    · exact hwrites access hmem hwrite

theorem probe_spec (hidentity : Identifies functions identity) (role : Role)
    (attempts : DeviceFunction → Attempt) {scanned : List DeviceFunction}
    (hscanned : ∀ df ∈ scanned, df ∈ allFunctions) (self : Devices) :
    Probed role attempts (candidates virtio_drivers identity role scanned) self
      (probe virtio_drivers functions role attempts scanned self).1
      (probe virtio_drivers functions role attempts scanned self).2 := by
  induction scanned generalizing self with
  | nil => exact ⟨rfl, by simp [candidates, probe], rfl, [], by simp [probe], by simp⟩
  | cons df rest ih =>
    obtain ⟨hdf, hrest⟩ := List.forall_mem_cons.mp hscanned
    obtain ⟨hdevice, hfunction⟩ := mem_allFunctions.mp hdf
    obtain ⟨address, htype⟩ := virtio_type_at_eq virtio_drivers hidentity hdevice hfunction self.bridge
    rw [probe, htype]
    refine Probed.skip ?_ (show (Bridge.mk address (self.bridge.accesses ++ identifying df)).accesses = _ from rfl)
      (by simp [identifying, Access.writes])
    by_cases hkind : typeOf virtio_drivers identity df = some role.device_type
    swap
    · rw [candidates, List.filter_cons_of_neg (by simp [hkind])]
      simp only [ne_eq, hkind, not_false_eq_true, if_true]
      exact ih hrest _
    rw [candidates, List.filter_cons_of_pos (by simp [hkind])]
    simp only [ne_eq, hkind, not_true, if_false, init_from_df]
    obtain ⟨accesses, haccesses, hof⟩ := foldl_access_word functions hdf
      ⟨address, self.bridge.accesses ++ identifying df⟩ (attempts df).requests
    cases hresult : (attempts df).result with
    | error err =>
      have hdown : (attempts df).up = false := by rw [Attempt.up, hresult]; rfl
      exact (ih hrest _).fail hdown haccesses hof
    | ok _ =>
      have hup : (attempts df).up = true := by rw [Attempt.up, hresult]; rfl
      refine ⟨?_, ?_, rfl, accesses, haccesses, fun access hmem _ => ⟨⟨role, df, true⟩, ?_, hof access hmem⟩⟩
      · exact (List.find?_cons_of_pos (p := fun df => (attempts df).up) hup).symm
      · rw [List.takeWhile_cons_of_neg (by simp [hup])]
        rfl
      · simp

theorem Probed.of_probe (hidentity : Identifies functions identity) {role : Role}
    {attempts : DeviceFunction → Attempt} {self after : Devices} {found : Option DeviceFunction}
    (h : probe virtio_drivers functions role attempts allFunctions self = (found, after)) :
    Probed role attempts (candidates virtio_drivers identity role allFunctions) self found after := by
  have hspec : Probed role attempts (candidates virtio_drivers identity role allFunctions) self _ _ :=
    probe_spec hidentity role attempts (fun _ hdf => hdf) self
  rwa [h] at hspec

/-- Reads after a probe change nothing. -/
theorem Probed.read {role : Role} {attempts : DeviceFunction → Attempt} {tried : List DeviceFunction}
    {before after : Devices} {result : Option DeviceFunction} {bridge : Bridge} {reads : List Access}
    (h : Probed role attempts tried before result after)
    (hbridge : bridge.accesses = after.bridge.accesses ++ reads)
    (hreads : ∀ access ∈ reads, access.writes = false) (routes : List Route) :
    Probed role attempts tried before result { after with bridge, routes } where
  found := h.found
  touched := h.touched
  drivers := h.drivers
  writes := by
    obtain ⟨accesses, haccesses, hwrites⟩ := h.writes
    refine ⟨accesses ++ reads, by rw [hbridge, haccesses, List.append_assoc], fun access hmem hwrite => ?_⟩
    rcases List.mem_append.mp hmem with hmem | hread
    · exact hwrites access hmem hwrite
    · rw [hreads access hread] at hwrite
      cases hwrite

variable {overflow_checks : Bool} {io_apics : List IoApicInfo}

/-- A call finds its driver in place, or probes for it. -/
theorem perform_cases (hidentity : Identifies functions identity) {self after : Devices} {call : Call}
    {result : Bool}
    (h : perform virtio_drivers functions overflow_checks io_apics self call = ok (result, after)) :
    (self.drivers call.role).isSome = true ∧ result = true ∧ after = self ∨
      self.drivers call.role = none ∧ ∃ found, result = found.isSome ∧
        Probed call.role call.attempts (candidates virtio_drivers identity call.role allFunctions) self found
          after := by
  obtain ⟨role, attempts⟩ := call
  cases hdriver : self.drivers role with
  | some df =>
    refine Or.inl ⟨rfl, ?_⟩
    cases role with
    | net =>
      rw [perform, init_virtio_net_pci, hdriver] at h
      cases h
      exact ⟨rfl, rfl⟩
    | rng =>
      rw [perform, init_virtio_rng, hdriver] at h
      cases h
      exact ⟨rfl, rfl⟩
  | none =>
    refine Or.inr ⟨rfl, ?_⟩
    obtain ⟨⟨found, probed⟩, hprobe⟩ :
      ∃ probed, probe virtio_drivers functions role attempts allFunctions self = probed := ⟨_, rfl⟩
    have hprobed := Probed.of_probe hidentity hprobe
    cases role with
    | net =>
      rw [perform, init_virtio_net_pci, hdriver] at h
      simp only [Option.isSome_none, Bool.false_eq_true, if_false, hprobe] at h
      cases found with
      | none =>
        cases h
        exact ⟨none, rfl, hprobed⟩
      | some df =>
        obtain ⟨route, _, hreturn⟩ := bind_eq_ok_iff.mp h
        cases hreturn
        obtain ⟨hdevice, hfunction⟩ := mem_allFunctions.mp (List.mem_of_mem_filter
          (List.mem_of_find?_eq_some hprobed.found.symm))
        exact ⟨some df, rfl, hprobed.read (show _ = _ ++ [Access.read (.at df 0x3C)] by
          rw [pci_read_u32_eq functions 0x3C hdevice hfunction]) (by simp [Access.writes]) _⟩
    | rng =>
      rw [perform, init_virtio_rng, hdriver] at h
      simp only [Option.isSome_none, Bool.false_eq_true, if_false, hprobe] at h
      cases found <;> cases h <;> exact ⟨_, rfl, hprobed⟩

/-- No driver's device was touched since the driver came up, and only devices that the
kernel drives were touched or written to. -/
structure Undisturbed (virtio_drivers : VirtioDrivers)
    (identity : DeviceFunction → UInt8 → UInt32) (devices : Devices) : Prop where
  typed : ∀ touch ∈ devices.touched,
    typeOf virtio_drivers identity touch.df = some touch.role.device_type
  live : ∀ role df, devices.drivers role = some df → ∃ before after,
    devices.touched = before ++ ⟨role, df, true⟩ :: after ∧ ∀ touch ∈ after, touch.df ≠ df
  writes : ∀ access ∈ devices.bridge.accesses, access.writes = true →
    ∃ touch ∈ devices.touched, access.register.Of touch.df

theorem Role.device_type_injective : Function.Injective Role.device_type := by
  rintro (_ | _) (_ | _) h <;> first | rfl | cases h

/-- What a probe touches is of the type it is for. -/
theorem Probed.typed {role : Role} {attempts : DeviceFunction → Attempt} {scanned : List DeviceFunction}
    {before after : Devices} {result : Option DeviceFunction}
    (h : Probed role attempts (candidates virtio_drivers identity role scanned) before result after) :
    ∃ touched, after.touched = before.touched ++ touched ∧ ∀ touch ∈ touched,
      touch.role = role ∧ typeOf virtio_drivers identity touch.df = some role.device_type := by
  have hcandidate : ∀ df ∈ candidates virtio_drivers identity role scanned,
      typeOf virtio_drivers identity df = some role.device_type :=
    fun df hdf => of_decide_eq_true (List.mem_filter.mp hdf).2
  refine ⟨_, h.touched, fun touch hmem => ?_⟩
  rcases List.mem_append.mp hmem with hmem | hmem
  · obtain ⟨df, hdf, rfl⟩ := List.mem_map.mp hmem
    exact ⟨rfl, hcandidate df ((List.takeWhile_sublist _).subset hdf)⟩
  · obtain ⟨df, hdf, rfl⟩ := List.mem_map.mp hmem
    have hfound := h.found
    rw [Option.mem_toList.mp hdf] at hfound
    exact ⟨rfl, hcandidate df (List.mem_of_find?_eq_some hfound.symm)⟩

/-- A probe disturbs no driver: what it touches is of another type than the device of
the other driver. -/
theorem Undisturbed.probed {role : Role} {attempts : DeviceFunction → Attempt} {scanned : List DeviceFunction}
    {self after : Devices} {result : Option DeviceFunction} (h : Undisturbed virtio_drivers identity self)
    (hnone : self.drivers role = none)
    (hprobed : Probed role attempts (candidates virtio_drivers identity role scanned) self result after) :
    Undisturbed virtio_drivers identity after := by
  obtain ⟨touched, htouched, htyped⟩ := hprobed.typed
  refine ⟨?_, ?_, ?_⟩
  · intro touch hmem
    rw [htouched] at hmem
    rcases List.mem_append.mp hmem with hmem | hmem
    · exact h.typed touch hmem
    · rw [(htyped touch hmem).1]
      exact (htyped touch hmem).2
  · intro other df hdriver
    by_cases hrole : other = role
    · subst hrole
      obtain rfl := (hprobed.driver hnone).symm.trans hdriver
      exact ⟨_, [], hprobed.touched.trans (List.append_assoc ..).symm, by simp⟩
    · have hsame : self.drivers other = some df := by
        rw [hprobed.drivers] at hdriver
        cases result with
        | none => exact hdriver
        | some found => rwa [Option.elim_some, Function.update_of_ne hrole] at hdriver
      obtain ⟨before, since, hsplit, hsince⟩ := h.live other df hsame
      refine ⟨before, since ++ touched, by rw [htouched, hsplit]; simp, fun touch hmem heq => ?_⟩
      rcases List.mem_append.mp hmem with hmem | hmem
      · exact hsince touch hmem heq
      · have htype := h.typed ⟨other, df, true⟩ (by rw [hsplit]; simp)
        have hother := (htyped touch hmem).2
        rw [heq, htype] at hother
        exact hrole (Role.device_type_injective (Option.some.inj hother))
  · obtain ⟨accesses, haccesses, hwrites⟩ := hprobed.writes
    intro access hmem hwrite
    rw [haccesses] at hmem
    rcases List.mem_append.mp hmem with hmem | hmem
    · obtain ⟨touch, htouch, hof⟩ := h.writes access hmem hwrite
      exact ⟨touch, by rw [htouched]; exact List.mem_append_left _ htouch, hof⟩
    · exact hwrites access hmem hwrite

theorem Undisturbed.boot (address : UInt32) : Undisturbed virtio_drivers identity (.boot address) where
  typed := fun _ hmem => by cases hmem
  live := fun _ _ hdriver => by cases hdriver
  writes := fun _ hmem => by cases hmem

theorem Undisturbed.perform (hidentity : Identifies functions identity) {self after : Devices} {call : Call}
    {result : Bool} (h : Undisturbed virtio_drivers identity self)
    (hcall : perform virtio_drivers functions overflow_checks io_apics self call = ok (result, after)) :
    Undisturbed virtio_drivers identity after := by
  rcases perform_cases hidentity hcall with ⟨_, _, rfl⟩ | ⟨hnone, found, _, hprobed⟩
  · exact h
  · exact h.probed hnone hprobed

/-- A bus with one function, a network card. -/
def sampleFunctions : Functions := fun accesses =>
  if accesses.getLast? = some (.read ⟨0, 3, 0, 0⟩) then 0x10001AF4 else 0xFFFFFFFF

def sampleDrivers : VirtioDrivers where
  HeaderType := UInt8
  header_type := id
  virtio_device_type info :=
    if info.vendor_id = 0x1AF4 ∧ info.device_id = 0x1000 then some .Network else none

def sampleIdentity (df : DeviceFunction) (offset : UInt8) : UInt32 := sampleFunctions [.read (.at df offset)]

theorem sample_identifies : Identifies sampleFunctions sampleIdentity := by
  intro past df offset _
  simp [sampleIdentity, sampleFunctions]

/-- A call for the network driver, which comes up at once. -/
def sampleCall : Call := ⟨.net, fun _ => ⟨[(4, some 7)], .ok ()⟩⟩

/-- The driver comes up. -/
theorem sample_perform : ∃ after df,
    perform sampleDrivers sampleFunctions false [⟨0⟩] (.boot 0) sampleCall = ok (true, after) ∧
      after.drivers .net = some df := by
  obtain ⟨⟨found, probed⟩, hprobe⟩ : ∃ probed,
    probe sampleDrivers sampleFunctions .net sampleCall.attempts allFunctions (.boot 0) = probed := ⟨_, rfl⟩
  have hprobed := Probed.of_probe sample_identifies hprobe
  have hsome : found.isSome = true := by
    rw [hprobed.found, List.find?_isSome]
    refine ⟨⟨0, 3, 0⟩, List.mem_filter.mpr ⟨mem_allFunctions.mpr (by decide), ?_⟩, rfl⟩
    decide +kernel
  obtain ⟨df, rfl⟩ := Option.isSome_iff_exists.mp hsome
  have hfree : ¬ ((Devices.boot 0).drivers .net).isSome = true := Bool.false_ne_true
  have hcall : ∃ bridge routes, init_virtio_net_pci sampleDrivers sampleFunctions false [⟨0⟩]
      sampleCall.attempts (.boot 0) = ok (true, { probed with bridge, routes }) := by
    rw [init_virtio_net_pci, if_neg hfree, hprobe]
    exact ⟨_, _, rfl⟩
  obtain ⟨bridge, routes, hcall⟩ := hcall
  exact ⟨{ probed with bridge, routes }, df, hcall, hprobed.driver rfl⟩

/-- Whatever calls were made and however their attempts ended, the device of a driver
was not touched since the driver came up, every function that was touched is of the
type it was touched for, and no other function's configuration was written to. -/
theorem probing_undisturbed (hidentity : Identifies functions identity) {address : UInt32} {calls : List Call}
    {results : List Bool} {final : Devices}
    (hrun : execute (perform virtio_drivers functions overflow_checks io_apics) (.boot address) calls =
      ok (results, final)) :
    (∀ touch ∈ final.touched, typeOf virtio_drivers identity touch.df = some touch.role.device_type) ∧
    (∀ role df, final.drivers role = some df → ∃ before after,
      final.touched = before ++ ⟨role, df, true⟩ :: after ∧ ∀ touch ∈ after, touch.df ≠ df) ∧
    ∀ access ∈ final.bridge.accesses, access.writes = true →
      ∃ touch ∈ final.touched, access.register.Of touch.df := by
  have hinv : ∀ (past : List Bool) state call label next, Undisturbed virtio_drivers identity state →
      perform virtio_drivers functions overflow_checks io_apics state call = ok (label, next) →
      Undisturbed virtio_drivers identity next := fun _ _ _ _ _ h => h.perform hidentity
  have hfinal := @execute_invariant _ _ _ _ (fun _ => Undisturbed virtio_drivers identity) hinv _ [] _ _ _
    (.boot address) hrun
  exact ⟨hfinal.typed, hfinal.live, hfinal.writes⟩

theorem probing_undisturbed_card : ∃ results final df,
    execute (perform sampleDrivers sampleFunctions false [⟨0⟩]) (.boot 0) [sampleCall, sampleCall] =
      ok (results, final) ∧ final.drivers .net = some df ∧
    ∃ before after, final.touched = before ++ ⟨.net, df, true⟩ :: after ∧ ∀ touch ∈ after, touch.df ≠ df := by
  obtain ⟨devices, df, hcall, hdriver⟩ := sample_perform
  have hagain : perform sampleDrivers sampleFunctions false [⟨0⟩] devices sampleCall =
      ok (true, devices) := by
    have hsome : (devices.drivers .net).isSome = true := by rw [hdriver]; rfl
    exact if_pos hsome
  have hrun : execute (perform sampleDrivers sampleFunctions false [⟨0⟩]) (.boot 0)
      [sampleCall, sampleCall] = ok ([true, true], devices) := by
    simp only [execute, hcall, hagain, bind_tc_ok]
  exact ⟨_, devices, df, hrun, hdriver, (probing_undisturbed sample_identifies hrun).2.1 .net df hdriver⟩

/-- Without its driver a call takes the first function on any bus that is of the type
and comes up, after trying those before it once each. It returns `false` only if no
function on any bus could be had. -/
theorem probing_first (hidentity : Identifies functions identity) {self after : Devices} {call : Call}
    {result : Bool} (hnone : self.drivers call.role = none)
    (hcall : perform virtio_drivers functions overflow_checks io_apics self call = ok (result, after)) :
    after.drivers call.role = ((candidates virtio_drivers identity call.role allFunctions).find? fun df =>
      (call.attempts df).up) ∧
    result = (after.drivers call.role).isSome ∧
    (∀ role, role ≠ call.role → after.drivers role = self.drivers role) ∧
    after.touched = self.touched ++
      (((candidates virtio_drivers identity call.role allFunctions).takeWhile fun df =>
        !(call.attempts df).up).map (⟨call.role, ·, false⟩) ++
      (after.drivers call.role).toList.map (⟨call.role, ·, true⟩)) ∧
    (result = false → ∀ df : DeviceFunction, df.device.toNat < 32 → df.function.toNat < 8 →
      typeOf virtio_drivers identity df = some call.role.device_type → (call.attempts df).up = false) := by
  rcases perform_cases hidentity hcall with ⟨hsome, _, _⟩ | ⟨_, found, hresult, hprobed⟩
  · rw [hnone] at hsome
    cases hsome
  have hdriver := hprobed.driver hnone
  refine ⟨hdriver.trans hprobed.found, hdriver.symm ▸ hresult, fun role hrole => ?_,
    hdriver.symm ▸ hprobed.touched, fun hfalse df hdevice hfunction htype => ?_⟩
  · rw [hprobed.drivers]
    cases found with
    | none => rfl
    | some df => rw [Option.elim_some, Function.update_of_ne hrole]
  · have hmissing : found = none := Option.not_isSome_iff_eq_none.mp (by rw [← hresult, hfalse]; simp)
    have hnever := List.find?_eq_none.mp (hprobed.found.symm.trans hmissing)
    have hmem : df ∈ candidates virtio_drivers identity call.role allFunctions :=
      List.mem_filter.mpr ⟨mem_allFunctions.mpr ⟨hdevice, hfunction⟩, decide_eq_true htype⟩
    simpa using hnever df hmem

theorem probing_first_card : ∃ after,
    perform sampleDrivers sampleFunctions false [⟨0⟩] (.boot 0) sampleCall = ok (true, after) ∧
    after.drivers .net = ((candidates sampleDrivers sampleIdentity .net allFunctions).find? fun df =>
      (sampleCall.attempts df).up) := by
  obtain ⟨after, df, hcall, _⟩ := sample_perform
  exact ⟨after, hcall, (probing_first sample_identifies rfl hcall).1⟩

end probe

end conc_os.pci
