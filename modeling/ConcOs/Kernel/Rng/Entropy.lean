import ConcOs.Kernel.Pci.Probe
import ConcOs.Kernel.Rng.KeyStream
import ConcOs.Kernel.Rng.Xorshift

open rust Result
open conc_os.pci

namespace conc_os.rng

/-- What the hardware answers while `gather_seed` runs: the result of
`request_entropy` with the buffer after it, and the executions of `rdrand` in turn.
One that fails has no word. -/
structure Sources (Error : Type) where
  entropy : Except Error Nat × Bytes 32
  rdrand : Nat → Option UInt64

section sources

variable {Error : Type}

/-- `driver` is what `VIRTIO_RNG` holds. -/
def virtio_bytes (driver : Option DeviceFunction) (sources : Sources Error) : Option (Bytes 32) := do
  let _ ← driver
  match sources.entropy with
  | (.ok n, out) => if n = out.val.length then some out else none
  | (.error _, _) => none

/-- `(0..10).any(|_| _rdrand64_step(&mut word) == 1)`, with 10 as a parameter. Also
counts the executions. -/
def rdrand_word (rdrand : Nat → Option UInt64) : Nat → Nat → Option UInt64 × Nat
  | 0, count => (none, count)
  | retries + 1, count =>
    match rdrand count with
    | some word => (some word, count + 1)
    | none => rdrand_word rdrand retries (count + 1)

/-- The loop of `rdrand_bytes_unchecked`, for the chunks that are left. -/
def rdrand_chunks (rdrand : Nat → Option UInt64) : (chunks : Nat) → Nat → Option (Bytes (8 * chunks))
  | 0, _ => some ⟨[], rfl⟩
  | chunks + 1, count => do
    let (word, count) := rdrand_word rdrand 10 count
    let word ← word
    let rest ← rdrand_chunks rdrand chunks count
    some ⟨U64.to_ne_bytes word ++ rest.val, by
      rw [List.length_append, U64.length_to_ne_bytes, rest.property]; omega⟩

def rdrand_bytes_unchecked (rdrand : Nat → Option UInt64) : Option (Bytes 32) := rdrand_chunks rdrand 4 0

def rdrand_bytes (has_rdrand : Bool) (sources : Sources Error) : Option (Bytes 32) :=
  if ¬ has_rdrand then none else rdrand_bytes_unchecked sources.rdrand

/-- A word is had if one of the executions succeeds. -/
theorem rdrand_word_some {rdrand : Nat → Option UInt64} {retries count : Nat}
    (h : ∃ k < retries, (rdrand (count + k)).isSome = true) :
    ∃ word next, rdrand_word rdrand retries count = (some word, next) := by
  induction retries generalizing count with
  | zero =>
    obtain ⟨k, hk, _⟩ := h
    omega
  | succ retries ih =>
    rw [rdrand_word]
    cases hnow : rdrand count with
    | some word => exact ⟨word, count + 1, rfl⟩
    | none =>
      obtain ⟨k, hk, hsome⟩ := h
      cases k with
      | zero =>
        rw [Nat.add_zero, hnow] at hsome
        cases hsome
      | succ k => exact ih ⟨k, by omega, by rwa [Nat.add_assoc, Nat.add_comm 1 k]⟩

/-- The executions never fail ten times in a row. -/
def Works (rdrand : Nat → Option UInt64) : Prop := ∀ start, ∃ k < 10, (rdrand (start + k)).isSome = true

theorem Works.rdrand_chunks {rdrand : Nat → Option UInt64} (h : Works rdrand) (chunks count : Nat) :
    ∃ bytes, rdrand_chunks rdrand chunks count = some bytes := by
  induction chunks generalizing count with
  | zero => exact ⟨_, rfl⟩
  | succ chunks ih =>
    obtain ⟨word, next, hword⟩ := rdrand_word_some (h count)
    obtain ⟨rest, hrest⟩ := ih next
    exact ⟨_, by simp only [rng.rdrand_chunks, hword, hrest, Option.bind_eq_bind, Option.bind_some]; rfl⟩

end sources

/-- What the mode says about the seed: which sources delivered, and that the seed is
what they delivered, mixed if both did. -/
def EntropyMode.Names : EntropyMode → Option (Bytes 32) → Option (Bytes 32) → Bytes 32 → Prop
  | .VirtioAndRdrand, virtio, rdrand, seed => ∃ a b, virtio = some a ∧ rdrand = some b ∧ seed = a.xor b
  | .Virtio, virtio, rdrand, seed => virtio = some seed ∧ rdrand = none
  | .Rdrand, virtio, rdrand, seed => virtio = none ∧ rdrand = some seed
  | .Insecure, _, _, _ => False

theorem gather_seed_names {virtio rdrand : Option (Bytes 32)} {seed : Bytes 32} {mode : EntropyMode}
    (h : gather_seed virtio rdrand = some (seed, mode)) : mode.Names virtio rdrand seed := by
  cases virtio with
  | none =>
    cases rdrand with
    | none => cases h
    | some b =>
      cases h
      exact ⟨rfl, congrArg some (Bytes.zeros_xor b).symm⟩
  | some a =>
    cases rdrand with
    | none =>
      cases h
      exact ⟨congrArg some (Bytes.zeros_xor a).symm, rfl⟩
    | some b =>
      cases h
      refine ⟨a, b, rfl, rfl, ?_⟩
      change ((Bytes.zeros 32).xor a).xor b = a.xor b
      rw [Bytes.zeros_xor]

/-- The statics of the module and the devices. The generators come with how often they
asked for fresh entropy and read the time stamp counter. -/
structure Entropy (Rng : Type) where
  devices : Devices
  CSPRNG : Option (Csprng Rng × Nat)
  ENTROPY_MODE : Option EntropyMode
  FALLBACK : Xorshift64 × Nat

/-- The statics before anything is drawn. -/
def Entropy.boot {Rng : Type} (devices : Devices) : Entropy Rng := ⟨devices, none, none, (.new, 0)⟩

/-- The types that `from_rand` makes. -/
class FromRand (T : Type) where
  SIZE_BYTES : Nat
  from_ne_bytes : List UInt8 → T

/-- The number with these bytes, the lowest first. -/
def from_ne_bytes (bytes : List UInt8) : Nat := Nat.ofDigits 256 (bytes.map UInt8.toNat)

instance instFromRandUInt8 : FromRand UInt8 := ⟨1, fun bytes => .ofNat (from_ne_bytes bytes)⟩

instance instFromRandUInt16 : FromRand UInt16 := ⟨2, fun bytes => .ofNat (from_ne_bytes bytes)⟩

instance instFromRandUInt32 : FromRand UInt32 := ⟨4, fun bytes => .ofNat (from_ne_bytes bytes)⟩

instance instFromRandUInt64 : FromRand UInt64 := ⟨8, fun bytes => .ofNat (from_ne_bytes bytes)⟩

instance instFromRandInt8 : FromRand Int8 := ⟨1, fun bytes => .ofNat (from_ne_bytes bytes)⟩

instance instFromRandInt16 : FromRand Int16 := ⟨2, fun bytes => .ofNat (from_ne_bytes bytes)⟩

instance instFromRandInt32 : FromRand Int32 := ⟨4, fun bytes => .ofNat (from_ne_bytes bytes)⟩

instance instFromRandInt64 : FromRand Int64 := ⟨8, fun bytes => .ofNat (from_ne_bytes bytes)⟩

/-- The machine that the kernel runs on. What `gather_seed` returns to the generator
later on does not depend on what it returns to `init_entropy`. -/
structure Platform where
  virtio_drivers : VirtioDrivers
  functions : Functions
  has_rdrand : Bool
  tsc : Tsc
  reseeds : Csprng.Hardware

namespace Entropy

variable {Rng Error : Type} [ChaCha20 Rng] (platform : Platform)

/-- What `init_entropy` gathers once `init_virtio_rng` has returned. -/
def gather (devices : Devices) (sources : Sources Error) : Option (Bytes 32 × EntropyMode) :=
  gather_seed (virtio_bytes (devices.drivers .rng) sources) (rdrand_bytes platform.has_rdrand sources)

def init_entropy (attempts : DeviceFunction → Attempt) (sources : Sources Error) (self : Entropy Rng) :
    EntropyMode × Entropy Rng :=
  let (_, devices) := init_virtio_rng platform.virtio_drivers platform.functions attempts self.devices
  let (mode, csprng) :=
    match gather platform devices sources with
    -- `call_once`
    | some (seed, mode) => (mode, some (self.CSPRNG.getD (.new seed, 0)))
    | none => (.Insecure, self.CSPRNG)
  let mode := self.ENTROPY_MODE.getD mode
  (mode, { self with devices, CSPRNG := csprng, ENTROPY_MODE := some mode })

/-- Returns the bytes written over `buf`. -/
def get_random (buf : List UInt8) (self : Entropy Rng) :
    Result ((Except Error Nat × List UInt8) × Entropy Rng) := do
  match self.CSPRNG with
  | some (csprng, calls) =>
    let (written, csprng, calls) ← csprng.fill platform.reseeds calls buf
    return ((.ok buf.length, written), { self with CSPRNG := some (csprng, calls) })
  | none =>
    let (written, fallback, reads) := self.FALLBACK.1.fill platform.tsc self.FALLBACK.2 buf
    return ((.ok buf.length, written), { self with FALLBACK := (fallback, reads) })

def entropy_mode (self : Entropy Rng) : EntropyMode := self.ENTROPY_MODE.getD .Insecure

def entropy_is_cryptographic (self : Entropy Rng) : Bool := self.entropy_mode ≠ .Insecure

def from_rand (T : Type) [FromRand T] (self : Entropy Rng) : Result (Except Error T × Entropy Rng) := do
  let arr := List.replicate (FromRand.SIZE_BYTES T) 0
  let ((result, arr), self) ← self.get_random platform arr
  match result with
  | .error e => return (.error e, self)
  | .ok _ => return (.ok (FromRand.from_ne_bytes arr), self)

/-- What a call of `init_entropy` gathers. -/
def found (devices : Devices) (attempts : DeviceFunction → Attempt) (sources : Sources Error) :
    Option (Bytes 32 × EntropyMode) :=
  gather platform (init_virtio_rng platform.virtio_drivers platform.functions attempts devices).2 sources

/-- A call of `init_entropy` or `get_random`, with what the hardware does during it. -/
inductive Request (Error : Type) where
  | init (attempts : DeviceFunction → Attempt) (sources : Sources Error)
  | random (buf : List UInt8)

/-- What a call returns, and writes. -/
inductive Answer (Error : Type) where
  | mode (mode : EntropyMode)
  | random (result : Except Error Nat) (written : List UInt8)

def perform (self : Entropy Rng) (request : Request Error) : Result (Answer Error × Entropy Rng) :=
  match request with
  | .init attempts sources =>
    let (mode, self) := self.init_entropy platform attempts sources
    ok (.mode mode, self)
  | .random buf => do
    let ((result, written), self) ← self.get_random platform buf
    return (.random result written, self)

def Request.buf? : Request Error → Option (List UInt8)
  | .init _ _ => none
  | .random buf => some buf

def Request.init? : Request Error → Option ((DeviceFunction → Attempt) × Sources Error)
  | .init attempts sources => some (attempts, sources)
  | .random _ => none

def Answer.written? : Answer Error → Option (List UInt8)
  | .mode _ => none
  | .random _ written => some written

/-- The answer to a request while the mode is this: every byte that was asked for is
written, and `init_entropy` reports the mode. -/
def Answer.To (mode : Option EntropyMode) : Request Error → Answer Error → Prop
  | .init _ _, .mode reported => mode = some reported
  | .random buf, .random result written => result = .ok buf.length ∧ written.length = buf.length
  | _, _ => False

/-- The generator was seeded by the call of `init_entropy` after `before`, and has
served every request since. -/
def Seeded (platform : Platform) (before : List (Request Error)) (attempts : DeviceFunction → Attempt)
    (sources : Sources Error) (seed : Bytes 32) (requests : List (Request Error)) (answers : List (Answer Error))
    (self : Entropy Rng) : Prop :=
  ∃ after earlier reported since state, requests = before ++ .init attempts sources :: after ∧
    answers = earlier ++ .mode reported :: since ∧ earlier.length = before.length ∧ self.CSPRNG = some state ∧
    Csprng.Served platform.reseeds seed (after.filterMap Request.buf?) (since.filterMap Answer.written?) state

/-- What the first call of `init_entropy` gathered. -/
def firstFound (devices : Devices) (requests : List (Request Error)) :
    Option (Option (Bytes 32 × EntropyMode)) :=
  (requests.findSome? Request.init?).map fun call => found platform devices call.1 call.2

/-- Where the statics are after these calls. -/
inductive Stage (platform : Platform) (devices : Devices) (requests : List (Request Error))
    (answers : List (Answer Error)) (self : Entropy Rng) : Prop where
  /-- Nothing was initialized. -/
  | fresh (n : Nat) (hdevices : self.devices = devices) (hnone : self.CSPRNG = none)
      (hmode : self.ENTROPY_MODE = none) (hfallback : self.FALLBACK = Xorshift64.calls platform.tsc n)
      (hfirst : firstFound platform devices requests = none)
  /-- Nothing was found so far. -/
  | insecure (n : Nat) (hnone : self.CSPRNG = none) (hmode : self.ENTROPY_MODE = some .Insecure)
      (hfirst : firstFound platform devices requests = some none)
      (hfallback : self.FALLBACK = Xorshift64.calls platform.tsc n)
  /-- The first call of `init_entropy` seeded the generator. -/
  | seeded {before : List (Request Error)} {attempts : DeviceFunction → Attempt} {sources : Sources Error}
      {seed : Bytes 32} {mode : EntropyMode}
      (hseeded : Seeded platform before attempts sources seed requests answers self)
      (hmode : self.ENTROPY_MODE = some mode) (hbefore : firstFound platform devices before = none)
      (hfound : found platform devices attempts sources = some (seed, mode))
  /-- A later one did. -/
  | late {before : List (Request Error)} {attempts : DeviceFunction → Attempt} {sources : Sources Error}
      {seed : Bytes 32} (hseeded : Seeded platform before attempts sources seed requests answers self)
      (hmode : self.ENTROPY_MODE = some .Insecure) (hfirst : firstFound platform devices requests = some none)

variable {platform} {devices : Devices} {requests before : List (Request Error)} {answers : List (Answer Error)}
  {self : Entropy Rng} {attempts : DeviceFunction → Attempt} {sources : Sources Error} {seed : Bytes 32}

theorem firstFound_append (requests rest : List (Request Error)) :
    firstFound platform devices (requests ++ rest) =
      (firstFound platform devices requests).or (firstFound platform devices rest) := by
  rw [firstFound, List.findSome?_append, Option.map_or]
  rfl

/-- What a call of `init_entropy` does if it gathers a seed. -/
theorem init_entropy_some {gathered : Bytes 32 × EntropyMode}
    (h : found platform self.devices attempts sources = some gathered) :
    self.init_entropy platform attempts sources = (self.ENTROPY_MODE.getD gathered.2, { self with
      devices := (init_virtio_rng platform.virtio_drivers platform.functions attempts self.devices).2
      CSPRNG := some (self.CSPRNG.getD (.new gathered.1, 0))
      ENTROPY_MODE := some (self.ENTROPY_MODE.getD gathered.2) }) := by
  rw [found] at h
  simp only [init_entropy, h]

/-- What it does if it gathers none. -/
theorem init_entropy_none (h : found platform self.devices attempts sources = none) :
    self.init_entropy platform attempts sources = (self.ENTROPY_MODE.getD .Insecure, { self with
      devices := (init_virtio_rng platform.virtio_drivers platform.functions attempts self.devices).2
      ENTROPY_MODE := some (self.ENTROPY_MODE.getD .Insecure) }) := by
  rw [found] at h
  simp only [init_entropy, h]

/-- The next request is served from the stream. -/
theorem Seeded.random (h : Seeded platform before attempts sources seed requests answers self)
    (buf : List UInt8) : ∃ written next,
    self.get_random platform buf = ok (((.ok buf.length : Except Error Nat), written), next) ∧
      written.length = buf.length ∧ next.ENTROPY_MODE = self.ENTROPY_MODE ∧
      Seeded platform before attempts sources seed (requests ++ [.random buf])
        (answers ++ [.random (.ok buf.length) written]) next := by
  obtain ⟨after, earlier, reported, since, state, rfl, rfl, hlen, hcsprng, hserved⟩ := h
  obtain ⟨written, next, hfill, hnext⟩ := hserved.fill buf
  have hlength : written.length = buf.length := by
    have hlengths := hnext.lengths
    rw [List.map_append, List.map_append, hserved.lengths] at hlengths
    simpa using hlengths
  refine ⟨written, { self with CSPRNG := some next }, ?_, hlength, rfl, after ++ [.random buf], earlier,
    reported, since ++ [.random (.ok buf.length) written], next, by simp, by simp, hlen, rfl, ?_⟩
  · rw [get_random, hcsprng]
    simp only [hfill, bind_tc_ok, pure_eq_ok]
  · rw [List.filterMap_append, List.filterMap_append]
    exact hnext

/-- A second call of `init_entropy` keeps the generator. -/
theorem Seeded.init (h : Seeded platform before attempts sources seed requests answers self)
    (again : DeviceFunction → Attempt) (sources' : Sources Error) :
    Seeded platform before attempts sources seed (requests ++ [.init again sources'])
      (answers ++ [.mode (self.init_entropy platform again sources').1])
      (self.init_entropy platform again sources').2 := by
  obtain ⟨after, earlier, reported, since, state, rfl, rfl, hlen, hcsprng, hserved⟩ := h
  refine ⟨after ++ [.init again sources'], earlier, reported, since ++ [.mode _], state, by simp,
    by simp; rfl, hlen, ?_, ?_⟩
  · cases hfound : found platform self.devices again sources' with
    | none => rw [init_entropy_none hfound, hcsprng]
    | some gathered => rw [init_entropy_some hfound, hcsprng, Option.getD_some]
  · simp only [List.filterMap_append, List.filterMap_cons, List.filterMap_nil, Request.buf?, Answer.written?,
      List.append_nil]
    exact hserved

/-- Without a seeded generator the fallback serves the request. -/
theorem get_random_fallback {n : Nat} (hnone : self.CSPRNG = none)
    (hfallback : self.FALLBACK = Xorshift64.calls platform.tsc n) (buf : List UInt8) :
    ∃ written, self.get_random platform buf = ok (((.ok buf.length : Except Error Nat), written),
        { self with FALLBACK := Xorshift64.calls platform.tsc (n + (buf.length + 7) / 8) }) ∧
      written.length = buf.length := by
  refine ⟨(List.range buf.length).map (blockStream 8 (Xorshift64.outputBytes platform.tsc n)), ?_, by simp⟩
  rw [get_random, hnone, hfallback]
  simp only [Xorshift64.fill_eq, pure_eq_ok]

/-- The mode that is set stays. -/
theorem init_entropy_mode (self : Entropy Rng) (attempts : DeviceFunction → Attempt) (sources : Sources Error) :
    ∃ mode, (self.init_entropy platform attempts sources).2.ENTROPY_MODE = some (self.ENTROPY_MODE.getD mode) ∧
      (self.init_entropy platform attempts sources).1 = self.ENTROPY_MODE.getD mode := by
  cases hfound : found platform self.devices attempts sources with
  | none => exact ⟨.Insecure, by rw [init_entropy_none hfound], by rw [init_entropy_none hfound]⟩
  | some gathered => exact ⟨gathered.2, by rw [init_entropy_some hfound], by rw [init_entropy_some hfound]⟩

theorem Stage.random (h : Stage platform devices requests answers self) (buf : List UInt8) :
    ∃ written next, self.get_random platform buf = ok (((.ok buf.length : Except Error Nat), written), next) ∧
      written.length = buf.length ∧ next.ENTROPY_MODE = self.ENTROPY_MODE ∧
      Stage platform devices (requests ++ [.random buf])
        (answers ++ [.random (.ok buf.length) written]) next := by
  cases h with
  | fresh n hdevices hnone hmode hfallback hfirst =>
    obtain ⟨written, hcall, hlen⟩ := get_random_fallback hnone hfallback buf
    refine ⟨written, _, hcall, hlen, rfl, .fresh _ hdevices hnone hmode rfl ?_⟩
    rw [firstFound_append, hfirst]
    rfl
  | insecure n hnone hmode hfirst hfallback =>
    obtain ⟨written, hcall, hlen⟩ := get_random_fallback hnone hfallback buf
    exact ⟨written, _, hcall, hlen, rfl,
      .insecure _ hnone hmode (by rw [firstFound_append, hfirst, Option.some_or]) rfl⟩
  | seeded hseeded hmode hbefore hfound =>
    obtain ⟨written, next, hcall, hlen, hkept, hnext⟩ := hseeded.random buf
    exact ⟨written, next, hcall, hlen, hkept, .seeded hnext (hkept.trans hmode) hbefore hfound⟩
  | late hseeded hmode hfirst =>
    obtain ⟨written, next, hcall, hlen, hkept, hnext⟩ := hseeded.random buf
    exact ⟨written, next, hcall, hlen, hkept,
      .late hnext (hkept.trans hmode) (by rw [firstFound_append, hfirst, Option.some_or])⟩

/-- The generator that a call of `init_entropy` seeds has served nothing. -/
theorem Seeded.new {gathered : Bytes 32 × EntropyMode} (hlen : answers.length = requests.length)
    (hnone : self.CSPRNG = none) (hfound : found platform self.devices attempts sources = some gathered) :
    Seeded platform requests attempts sources gathered.1 (requests ++ [.init attempts sources])
      (answers ++ [.mode (self.init_entropy platform attempts sources).1])
      (self.init_entropy platform attempts sources).2 := by
  refine ⟨[], answers, _, [], (.new gathered.1, 0), rfl, rfl, hlen, ?_, ⟨rfl, rfl, 0, Csprng.Serves.new⟩⟩
  rw [init_entropy_some hfound, hnone, Option.getD_none]

theorem Stage.init (h : Stage platform devices requests answers self) (hlen : answers.length = requests.length)
    (attempts : DeviceFunction → Attempt) (sources : Sources Error) :
    Stage platform devices (requests ++ [.init attempts sources])
      (answers ++ [.mode (self.init_entropy platform attempts sources).1])
      (self.init_entropy platform attempts sources).2 := by
  obtain ⟨mode, hset, _⟩ := @init_entropy_mode Rng Error _ platform self attempts sources
  cases h with
  | fresh n hdevices hnone hmode hfallback hfirst =>
    cases hfound : found platform self.devices attempts sources with
    | none =>
      have hnow : firstFound platform devices (requests ++ [.init attempts sources]) = some none := by
        rw [firstFound_append, hfirst, Option.none_or, ← hdevices, ← hfound]
        rfl
      rw [init_entropy_none hfound]
      exact .insecure n hnone (by rw [hmode, Option.getD_none]) hnow hfallback
    | some gathered =>
      refine .seeded (.new hlen hnone hfound) ?_ hfirst (hdevices ▸ hfound)
      rw [init_entropy_some hfound, hmode, Option.getD_none]
  | insecure n hnone hmode hfirst hfallback =>
    have hnow : firstFound platform devices (requests ++ [.init attempts sources]) = some none := by
      rw [firstFound_append, hfirst, Option.some_or]
    have hstill : (self.init_entropy platform attempts sources).2.ENTROPY_MODE = some .Insecure := by
      rw [hset, hmode, Option.getD_some]
    cases hfound : found platform self.devices attempts sources with
    | none =>
      rw [init_entropy_none hfound] at hstill ⊢
      exact .insecure n hnone hstill hnow hfallback
    | some gathered => exact .late (.new hlen hnone hfound) hstill hnow
  | seeded hseeded hmode hbefore hfound =>
    exact .seeded (hseeded.init attempts sources) (by rw [hset, hmode, Option.getD_some]) hbefore hfound
  | late hseeded hmode hfirst =>
    exact .late (hseeded.init attempts sources) (by rw [hset, hmode, Option.getD_some])
      (by rw [firstFound_append, hfirst, Option.some_or])

theorem Answer.To.mono {mode mode' : Option EntropyMode} (hkeep : ∀ m, mode = some m → mode' = some m)
    {request : Request Error} {answer : Answer Error} (h : Answer.To mode request answer) :
    Answer.To mode' request answer := by
  cases request <;> cases answer <;> first | exact h | exact hkeep _ h

/-- Every call of `init_entropy` reports the mode. -/
theorem Answer.To.reported {mode : Option EntropyMode} {reported : EntropyMode}
    (h : List.Forall₂ (Answer.To mode) requests answers) (hmem : Answer.mode reported ∈ answers) :
    mode = some reported := by
  induction h with
  | nil => cases hmem
  | @cons request answer requests answers hto _ ih =>
    rcases List.mem_cons.mp hmem with rfl | hmem
    · cases request with
      | init attempts sources => exact hto
      | random buf => cases hto
    · exact ih hmem

/-- What holds after any number of calls. -/
structure Kept (platform : Platform) (devices : Devices) (requests : List (Request Error))
    (answers : List (Answer Error)) (entropy : Entropy Rng) : Prop where
  answered : List.Forall₂ (Answer.To entropy.ENTROPY_MODE) requests answers
  stage : Stage platform devices requests answers entropy

theorem Kept.boot (platform : Platform) (devices : Devices) :
    Kept platform devices ([] : List (Request Error)) [] (.boot devices : Entropy Rng) :=
  ⟨.nil, .fresh 0 rfl rfl rfl rfl rfl⟩

theorem Kept.perform (h : Kept platform devices requests answers self) (request : Request Error) :
    ∃ answer next, perform platform self request = ok (answer, next) ∧
      Kept platform devices (requests ++ [request]) (answers ++ [answer]) next := by
  cases request with
  | random buf =>
    obtain ⟨written, next, hcall, hlen, hmode, hstage⟩ := h.stage.random buf
    refine ⟨.random (.ok buf.length) written, next, ?_, ⟨List.rel_append (hmode ▸ h.answered) ?_, hstage⟩⟩
    · simp only [Entropy.perform, hcall, bind_tc_ok, pure_eq_ok]
    · exact .cons ⟨rfl, hlen⟩ .nil
  | init attempts sources =>
    obtain ⟨mode, hset, hreport⟩ := @init_entropy_mode Rng Error _ platform self attempts sources
    refine ⟨.mode (self.init_entropy platform attempts sources).1,
      (self.init_entropy platform attempts sources).2, rfl, ⟨List.rel_append ?_ (.cons ?_ .nil),
      h.stage.init h.answered.length_eq.symm attempts sources⟩⟩
    · refine h.answered.imp fun _ _ hto => hto.mono fun m hm => ?_
      rw [hset, hm, Option.getD_some]
    · exact hset.trans (congrArg some hreport.symm)

/-- A draw never fails. -/
theorem Kept.from_rand (T : Type) [FromRand T] (h : Kept platform devices requests answers self) :
    ∃ value next requests' answers', self.from_rand platform T = ok ((.ok value : Except Error T), next) ∧
      Kept platform devices (requests ++ requests') (answers ++ answers') next := by
  obtain ⟨written, next, hcall, hlen, hmode, hstage⟩ := h.stage.random (List.replicate (FromRand.SIZE_BYTES T) 0)
  refine ⟨FromRand.from_ne_bytes written, next, [.random _], [.random _ written], ?_,
    ⟨List.rel_append (hmode ▸ h.answered) (.cons ⟨rfl, hlen⟩ .nil), hstage⟩⟩
  simp only [Entropy.from_rand, hcall, bind_tc_ok, pure_eq_ok]

/-- The mode is that of the first call of `init_entropy`. -/
theorem Stage.mode (h : Stage platform devices requests answers self) :
    self.entropy_mode = (firstFound platform devices requests).join.elim .Insecure Prod.snd := by
  cases h with
  | fresh n hdevices hnone hmode hfallback hfirst =>
    rw [entropy_mode, hmode, hfirst]
    rfl
  | insecure n hnone hmode hfirst hfallback =>
    rw [entropy_mode, hmode, hfirst]
    rfl
  | @seeded before attempts sources seed mode hseeded hmode hbefore hfound =>
    obtain ⟨after, _, _, _, _, rfl, _⟩ := hseeded
    have hfirst : firstFound platform devices (.init attempts sources :: after) = some (some (seed, mode)) :=
      congrArg some hfound
    rw [entropy_mode, hmode, firstFound_append, hbefore, Option.none_or, hfirst]
    rfl
  | late hseeded hmode hfirst =>
    rw [entropy_mode, hmode, hfirst]
    rfl

theorem execute_kept (Rng : Type) [ChaCha20 Rng] (platform : Platform) (devices : Devices)
    (requests : List (Request Error)) :
    ∃ answers final, execute (perform platform) (.boot devices : Entropy Rng) requests = ok (answers, final) ∧
      Kept platform devices requests answers final :=
  execute_total (Kept platform devices)
    (fun _ _ _ request h => h.perform request) requests (.boot platform devices)

/-- Every call returns, and every byte that was asked for is written. The mode is that
of the first call of `init_entropy`, and if it says that the generator is
cryptographic, then the sources it names delivered the seed, and every byte since was
taken from the key stream of that seed. -/
theorem entropy_honest (Rng : Type) [ChaCha20 Rng] (platform : Platform) (devices : Devices)
    (requests : List (Request Error)) :
    ∃ answers final, execute (perform platform) (.boot devices : Entropy Rng) requests = ok (answers, final) ∧
      List.Forall₂ (Answer.To final.ENTROPY_MODE) requests answers ∧
      final.entropy_mode = (firstFound platform devices requests).join.elim .Insecure Prod.snd ∧
      (final.entropy_is_cryptographic = true → ∃ before attempts sources after seed earlier reported since,
        requests = before ++ .init attempts sources :: after ∧
        final.entropy_mode.Names (virtio_bytes ((init_virtio_rng platform.virtio_drivers platform.functions
          attempts devices).2.drivers .rng) sources) (rdrand_bytes platform.has_rdrand sources) seed ∧
        answers = earlier ++ .mode reported :: since ∧ earlier.length = before.length ∧
        (since.filterMap Answer.written?).flatten =
          (List.range (after.filterMap Request.buf?).flatten.length).map (keyStream Rng platform.reseeds seed)) := by
  obtain ⟨answers, final, hrun, hkept⟩ := execute_kept Rng platform devices requests
  refine ⟨answers, final, hrun, hkept.answered, hkept.stage.mode, fun hcryptographic => ?_⟩
  have hsecure : final.entropy_mode ≠ .Insecure := of_decide_eq_true hcryptographic
  cases hkept.stage with
  | fresh n hdevices hnone hmode hfallback hfirst =>
    rw [entropy_mode, hmode] at hsecure
    exact absurd rfl hsecure
  | insecure n hnone hmode hfirst hfallback =>
    rw [entropy_mode, hmode] at hsecure
    exact absurd rfl hsecure
  | late hseeded hmode hfirst =>
    rw [entropy_mode, hmode] at hsecure
    exact absurd rfl hsecure
  | @seeded before attempts sources seed mode hseeded hmode hbefore hfound =>
    obtain ⟨after, earlier, reported, since, state, hrequests, hanswers, hlen, _, hserved⟩ := hseeded
    refine ⟨before, attempts, sources, after, seed, earlier, reported, since, hrequests, ?_, hanswers, hlen,
      hserved.bytes⟩
    rw [entropy_mode, hmode, Option.getD_some]
    exact gather_seed_names hfound

/-- With RDRAND at work every call of `init_entropy` gathers a seed. -/
theorem found_isSome (hrdrand : platform.has_rdrand = true) (hworks : Works sources.rdrand) (devices : Devices)
    (attempts : DeviceFunction → Attempt) :
    ∃ seed mode, found platform devices attempts sources = some (seed, mode) ∧ mode ≠ .Insecure := by
  obtain ⟨bytes, hbytes⟩ := hworks.rdrand_chunks 4 0
  have hsome : rdrand_bytes platform.has_rdrand sources = some bytes := by
    rw [rdrand_bytes, if_neg (not_not.mpr hrdrand)]
    exact hbytes
  rw [found, gather, hsome]
  cases virtio_bytes
    ((init_virtio_rng platform.virtio_drivers platform.functions attempts devices).2.drivers .rng)
    sources with
  | none => exact ⟨_, _, rfl, by decide⟩
  | some other => exact ⟨_, _, rfl, by decide⟩

/-- On a machine whose RDRAND never fails ten times in a row, the entropy is
cryptographic from the first call of `init_entropy` on. -/
theorem entropy_available (Rng : Type) [ChaCha20 Rng] (platform : Platform) (devices : Devices)
    (requests : List (Request Error)) (hrdrand : platform.has_rdrand = true)
    (hworks : ∀ attempts sources, Request.init attempts sources ∈ requests → Works sources.rdrand)
    (hinit : ∃ attempts sources, Request.init attempts sources ∈ requests) :
    ∃ answers final, execute (perform platform) (.boot devices : Entropy Rng) requests = ok (answers, final) ∧
      final.entropy_is_cryptographic = true ∧ ∀ mode, Answer.mode mode ∈ answers → mode ≠ .Insecure := by
  obtain ⟨answers, final, hrun, hkept⟩ := execute_kept Rng platform devices requests
  obtain ⟨call, hcall⟩ : ∃ call, requests.findSome? Request.init? = some call := by
    obtain ⟨attempts, sources, hmem⟩ := hinit
    rw [← Option.isSome_iff_exists, List.findSome?_isSome_iff]
    exact ⟨_, hmem, rfl⟩
  obtain ⟨request, hmem, hrequest⟩ := List.exists_of_findSome?_eq_some hcall
  obtain ⟨attempts, sources⟩ := call
  obtain rfl : request = .init attempts sources := by
    cases request with
    | init attempts' sources' =>
      cases hrequest
      rfl
    | random buf => cases hrequest
  obtain ⟨seed, mode, hfound, hsecure⟩ := found_isSome hrdrand (hworks attempts sources hmem) devices attempts
  have hmode : final.entropy_mode = mode := by
    rw [hkept.stage.mode, firstFound, hcall, Option.map_some, hfound]
    rfl
  refine ⟨answers, final, hrun, decide_eq_true (hmode ▸ hsecure), fun reported hreported => ?_⟩
  have hset := Answer.To.reported hkept.answered hreported
  rw [entropy_mode, hset, Option.getD_some] at hmode
  exact hmode ▸ hsecure

/-- A cipher whose block is its seed, twice. -/
instance instChaCha20Bytes : ChaCha20 (Bytes 32) where
  from_seed := id
  fill_bytes := fun rng => (⟨rng.val ++ rng.val, by rw [List.length_append, rng.property]⟩, rng)

/-- RDRAND that fails every other time. -/
def sampleSources : Sources Unit := ⟨(.error (), .zeros 32), fun n => if n % 2 = 0 then none else some 7⟩

def samplePlatform : Platform :=
  ⟨⟨UInt8, id, fun _ => none⟩, fun _ => 0xFFFFFFFF, true, fun _ => 0, fun _ => (none, none)⟩

theorem entropy_available_retries : ∃ answers final, execute (perform samplePlatform)
    (.boot (.boot 0) : Entropy (Bytes 32))
      [.random [0, 0], .init (fun _ => ⟨[], .error .VirtioError⟩) sampleSources] = ok (answers, final) ∧
      final.entropy_is_cryptographic = true := by
  have hworks : Works sampleSources.rdrand := by
    intro start
    refine ⟨1 - start % 2, by omega, ?_⟩
    have hodd : ¬ (start + (1 - start % 2)) % 2 = 0 := by omega
    simp [sampleSources, hodd]
  obtain ⟨answers, final, hrun, hcryptographic, _⟩ := entropy_available (Bytes 32) samplePlatform (.boot 0)
    [.random [0, 0], .init (fun _ => ⟨[], .error .VirtioError⟩) sampleSources] rfl (by
      intro attempts sources hmem
      simp only [List.mem_cons, reduceCtorEq, Request.init.injEq, List.not_mem_nil, or_false, false_or] at hmem
      rw [hmem.2]
      exact hworks) ⟨_, _, List.mem_cons_of_mem _ (List.mem_singleton.mpr rfl)⟩
  exact ⟨answers, final, hrun, hcryptographic⟩

end Entropy

end conc_os.rng
