import ConcOs.Rust.Run
import ConcOs.Rust.Bytes

open rust Result

namespace conc_os.rng

/-- Which hardware sources seeded the generator. -/
inductive EntropyMode where
  | VirtioAndRdrand
  | Virtio
  | Rdrand
  | Insecure
deriving DecidableEq

/-- Blocks handed out before fresh hardware entropy is stirred back into the
key. -/
def RESEED_INTERVAL : UInt32 := 1024

/-- Collects seed material, given what `virtio_bytes` and `rdrand_bytes`
returned. -/
def gather_seed (virtio rdrand : Option (Bytes 32)) : Option (Bytes 32 × EntropyMode) := do
  let mode ←
    match virtio.isSome, rdrand.isSome with
    | true, true => some EntropyMode.VirtioAndRdrand
    | true, false => some EntropyMode.Virtio
    | false, true => some EntropyMode.Rdrand
    | false, false => none
  -- `[virtio, rdrand].into_iter().flatten()`
  let sources := [virtio, rdrand].filterMap id
  some (sources.foldl Bytes.xor (Bytes.zeros 32), mode)

/-- The generator of `rand_chacha`, as far as it is used. -/
class ChaCha20 (Rng : Type) where
  from_seed : Bytes 32 → Rng
  fill_bytes : Rng → Bytes 64 × Rng

theorem first_half_le : 0 + 32 ≤ 64 := by decide

theorem second_half_le : 32 + 32 ≤ 64 := by decide

structure Csprng (Rng : Type) where
  inner : Rng
  buf : Bytes 32
  buf_pos : Nat
  blocks : UInt32

namespace Csprng

variable {Rng : Type} [ChaCha20 Rng]

def new (seed : Bytes 32) : Csprng Rng where
  inner := ChaCha20.from_seed seed
  buf := Bytes.zeros 32
  buf_pos := 32
  blocks := 0

/-- What `virtio_bytes` and `rdrand_bytes` return in each call of `gather_seed`
in turn. -/
abbrev Hardware := Nat → Option (Bytes 32) × Option (Bytes 32)

variable (hardware : Hardware)

/-- Also counts the calls of `gather_seed`. -/
def refill (self : Csprng Rng) (calls : Nat) : Csprng Rng × Nat :=
  let block := (ChaCha20.fill_bytes self.inner).1
  let next_seed := block.extract 0 32 first_half_le
  let buf := block.extract 32 32 second_half_le
  -- `wrapping_add`
  let blocks := self.blocks + 1
  if RESEED_INTERVAL ≤ blocks then
    let next_seed :=
      match gather_seed (hardware calls).1 (hardware calls).2 with
      | some (fresh, _) => next_seed.xor fresh
      | none => next_seed
    ({ inner := ChaCha20.from_seed next_seed, buf, buf_pos := 0, blocks := 0 }, calls + 1)
  else ({ inner := ChaCha20.from_seed next_seed, buf, buf_pos := 0, blocks }, calls)

/-- Returns the bytes written over `buf`. -/
def fill (self : Csprng Rng) (calls : Nat) : List UInt8 → Result (List UInt8 × Csprng Rng × Nat)
  | [] => ok ([], self, calls)
  | _ :: rest => do
    let (self, calls) := if self.buf_pos = self.buf.val.length then self.refill hardware calls else (self, calls)
    let byte ← self.buf.index self.buf_pos
    let buf_pos ← Usize.add self.buf_pos 1
    let (written, self, calls) ← fill { self with buf_pos } calls rest
    ok (byte :: written, self, calls)

/-- Any number of requests one after the other. -/
def fills (self : Csprng Rng) (requests : List (List UInt8)) :
    Result (List (List UInt8) × Csprng Rng × Nat) :=
  execute (fun state buf => fill hardware state.1 state.2 buf) (self, 0) requests

end Csprng

/-- The generator for hosts without a source of entropy. -/
structure Xorshift64 where
  state : UInt64

/-- What the reads of the time stamp counter return, in turn. -/
abbrev Tsc := Nat → UInt64

namespace Xorshift64

def new : Xorshift64 := ⟨0⟩

/-- The three assignments to `x` in `next`. -/
def xorshift (x : UInt64) : UInt64 :=
  let x := x ^^^ (x <<< 13)
  let x := x ^^^ (x >>> 7)
  x ^^^ (x <<< 17)

/-- Also counts the reads of the time stamp counter. -/
def next (tsc : Tsc) (self : Xorshift64) (reads : Nat) : UInt64 × Xorshift64 × Nat :=
  let (state, reads) := if self.state = 0 then (tsc reads ||| 1, reads + 1) else (self.state, reads)
  let x := xorshift state
  (x, ⟨x⟩, reads)

/-- The lengths of the chunks of `buf.chunks_mut(8)`. -/
def chunk_lens (len : Nat) : List Nat := List.replicate (len / 8) 8 ++ if len % 8 = 0 then [] else [len % 8]

/-- One iteration of the loop of `get_random`, on the bytes written so far. -/
def fill_chunk (tsc : Tsc) (state : List UInt8 × Xorshift64 × Nat) (chunk_len : Nat) :
    List UInt8 × Xorshift64 × Nat :=
  let (written, self, reads) := state
  let (x, self, reads) := self.next tsc reads
  (written ++ (U64.to_ne_bytes x).take chunk_len, self, reads)

/-- What `get_random` does when there is no seeded generator; returns the bytes
written over `buf`. -/
def fill (tsc : Tsc) (self : Xorshift64) (reads : Nat) (buf : List UInt8) : List UInt8 × Xorshift64 × Nat :=
  (chunk_lens buf.length).foldl (fill_chunk tsc) ([], self, reads)

end Xorshift64

end conc_os.rng
