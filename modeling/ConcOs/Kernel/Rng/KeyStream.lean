import ConcOs.Kernel.Rng
import ConcOs.Rust.BlockStream

open rust Result

namespace conc_os.rng

section keyStream

variable (Rng : Type) [ChaCha20 Rng]

/-- The first 64 bytes the cipher produces from a seed. -/
def chacha (seed : Bytes 32) : Bytes 64 := (ChaCha20.fill_bytes (ChaCha20.from_seed seed : Rng)).1

/-- The half of a block that is handed out. -/
def out (seed : Bytes 32) : Bytes 32 := (chacha Rng seed).extract 32 32 second_half_le

/-- The seed of each block. Every 1024th is mixed with fresh entropy, if there
is any. -/
def keySeed (hardware : Csprng.Hardware) (seed : Bytes 32) : Nat → Bytes 32
  | 0 => seed
  | i + 1 =>
    let next := (chacha Rng (keySeed hardware seed i)).extract 0 32 first_half_le
    if (i + 1) % 1024 = 0 then
      let call := (i + 1) / 1024 - 1
      match gather_seed (hardware call).1 (hardware call).2 with
      | some (fresh, _) => next.xor fresh
      | none => next
    else next

/-- The bytes that are handed out, in order. -/
def keyStream (hardware : Csprng.Hardware) (seed : Bytes 32) : Nat → UInt8 :=
  blockStream 32 fun i => (out Rng (keySeed Rng hardware seed i)).val

end keyStream

namespace Csprng

variable {Rng : Type} [ChaCha20 Rng] {hardware : Hardware} {seed : Bytes 32}

/-- The generator has handed out `n` bytes, from `count` blocks, and `calls`
times asked for entropy. -/
structure Serves (hardware : Hardware) (seed : Bytes 32) (n count : Nat) (rng : Csprng Rng) (calls : Nat) :
    Prop where
  position : n + 32 = 32 * count + rng.buf_pos
  buf_pos_le : rng.buf_pos ≤ 32
  inner : rng.inner = ChaCha20.from_seed (keySeed Rng hardware seed count)
  buf : ∀ i, count = i + 1 → rng.buf = out Rng (keySeed Rng hardware seed i)
  blocks : rng.blocks.toNat = count % 1024
  calls : calls = count / 1024

theorem Serves.new : Serves hardware seed 0 0 (Csprng.new seed : Csprng Rng) 0 where
  position := rfl
  buf_pos_le := le_rfl
  inner := rfl
  buf := by
    intro i hcount
    omega
  blocks := rfl
  calls := rfl

/-- A refill takes the next block, and asks for entropy after every 1024
blocks. -/
theorem Serves.refill_eq {n count calls : Nat} {self : Csprng Rng}
    (h : Serves hardware seed n count self calls) :
    ∃ blocks : UInt32, blocks.toNat = (count + 1) % 1024 ∧ self.refill hardware calls =
      ({ inner := ChaCha20.from_seed (keySeed Rng hardware seed (count + 1)),
         buf := out Rng (keySeed Rng hardware seed count), buf_pos := 0, blocks }, (count + 1) / 1024) := by
  have hblocks : (self.blocks + 1).toNat = count % 1024 + 1 := by
    rw [UInt32.toNat_add, h.blocks, UInt32.toNat_one]
    omega
  have hinterval : RESEED_INTERVAL ≤ self.blocks + 1 ↔ (count + 1) % 1024 = 0 := by
    rw [UInt32.le_iff_toNat_le, hblocks]
    change 1024 ≤ count % 1024 + 1 ↔ _
    omega
  have hblock : (ChaCha20.fill_bytes self.inner).1 = chacha Rng (keySeed Rng hardware seed count) := by
    rw [h.inner, chacha]
  have hcalls := h.calls
  by_cases hreseed : (count + 1) % 1024 = 0
  · have hcall : (count + 1) / 1024 - 1 = calls := by omega
    have hnext : (count + 1) / 1024 = calls + 1 := by omega
    refine ⟨0, hreseed.symm, ?_⟩
    rw [refill, if_pos (hinterval.mpr hreseed), hblock, keySeed, if_pos hreseed, hcall, hnext]
    rfl
  · have hnext : (count + 1) / 1024 = calls := by omega
    refine ⟨self.blocks + 1, by omega, ?_⟩
    rw [refill, if_neg (hreseed ∘ hinterval.mp), hblock, keySeed, if_neg hreseed, hnext]
    rfl

/-- With bytes left in the buffer, the next one is the next of the stream. -/
theorem Serves.byte {n count calls : Nat} {self : Csprng Rng} (h : Serves hardware seed n count self calls)
    (hleft : self.buf_pos < 32) :
    self.buf.index self.buf_pos = ok (keyStream Rng hardware seed n) ∧
      Serves hardware seed (n + 1) count { self with buf_pos := self.buf_pos + 1 } calls := by
  have hposition := h.position
  -- a buffer that is not used up belongs to a block
  obtain ⟨i, rfl⟩ : ∃ i, count = i + 1 := ⟨count - 1, by omega⟩
  have hn : n = 32 * i + self.buf_pos := by omega
  refine ⟨?_, ⟨by simp only; omega, by simp only; omega, h.inner, h.buf, h.blocks, h.calls⟩⟩
  rw [Bytes.index_eq hleft, h.buf i rfl, hn, keyStream, blockStream_offset _ i hleft]
  rfl

/-- The buffer is refilled when it is used up. -/
theorem Serves.ready {n count calls : Nat} {self : Csprng Rng} (h : Serves hardware seed n count self calls) :
    ∃ next calls' count', (if self.buf_pos = self.buf.val.length then self.refill hardware calls
        else (self, calls)) = (next, calls') ∧
      Serves hardware seed n count' next calls' ∧ next.buf_pos < 32 := by
  have hposition := h.position
  have hle := h.buf_pos_le
  rw [self.buf.property]
  by_cases hempty : self.buf_pos = 32
  · obtain ⟨blocks, hblocks, hrefill⟩ := h.refill_eq
    rw [if_pos hempty, hrefill]
    refine ⟨_, _, count + 1, rfl, ⟨?_, Nat.zero_le 32, rfl, ?_, hblocks, rfl⟩, Nat.zero_lt_succ 31⟩
    · change n + 32 = 32 * (count + 1)
      omega
    · rintro i ⟨⟩
      rfl
  · exact ⟨self, calls, count, if_neg hempty, h, by omega⟩

/-- A request is served with the next bytes of the stream. -/
theorem Serves.fill {n count calls : Nat} {self : Csprng Rng} (h : Serves hardware seed n count self calls)
    (buf : List UInt8) :
    ∃ next calls' count', self.fill hardware calls buf =
        ok ((List.range' n buf.length).map (keyStream Rng hardware seed), next, calls') ∧
      Serves hardware seed (n + buf.length) count' next calls' := by
  induction buf generalizing n count calls self with
  | nil => exact ⟨self, calls, count, rfl, h⟩
  | cons first rest ih =>
    obtain ⟨ready, calls₁, count₁, hready, hserves, hleft⟩ := h.ready
    obtain ⟨hbyte, hread⟩ := hserves.byte hleft
    have hadd : Usize.add ready.buf_pos 1 = ok (ready.buf_pos + 1) :=
      Usize.add_eq (by simp only [usizeMax]; omega)
    obtain ⟨next, calls', count', hrest, hnext⟩ := ih hread
    refine ⟨next, calls', count', ?_, ?_⟩
    · rw [Csprng.fill, hready]
      simp only [hbyte, hadd, hrest, bind_tc_ok, List.length_cons, List.range'_succ, List.map_cons]
    · rwa [List.length_cons, Nat.add_comm rest.length 1, ← Nat.add_assoc]

/-- What was written in answer to requests. -/
structure Served (hardware : Hardware) (seed : Bytes 32) (requests written : List (List UInt8))
    (state : Csprng Rng × Nat) : Prop where
  lengths : written.map List.length = requests.map List.length
  bytes : written.flatten = (List.range requests.flatten.length).map (keyStream Rng hardware seed)
  serves : ∃ count, Serves hardware seed requests.flatten.length count state.1 state.2

theorem Served.fill {requests written : List (List UInt8)} {state : Csprng Rng × Nat}
    (h : Served hardware seed requests written state) (buf : List UInt8) :
    ∃ bytes next, state.1.fill hardware state.2 buf = ok (bytes, next) ∧
      Served hardware seed (requests ++ [buf]) (written ++ [bytes]) next := by
  obtain ⟨count, hserves⟩ := h.serves
  obtain ⟨next, calls, count', hfill, hnext⟩ := hserves.fill buf
  have htotal : (requests ++ [buf]).flatten.length = requests.flatten.length + buf.length := by simp
  refine ⟨_, (next, calls), hfill, ⟨?_, ?_, count', ?_⟩⟩
  · simp [h.lengths]
  · rw [List.flatten_append, List.flatten_singleton, h.bytes, htotal, List.range_add, List.map_append,
      List.range'_eq_map_range]
  · rwa [htotal]

/-- Requests are served from the stream one after the other. -/
theorem fills_served (Rng : Type) [ChaCha20 Rng] (hardware : Hardware) (seed : Bytes 32)
    (requests : List (List UInt8)) :
    ∃ written state, (Csprng.new seed : Csprng Rng).fills hardware requests = ok (written, state) ∧
      Served hardware seed requests written state := by
  have hnew : Served hardware seed [] [] ((Csprng.new seed : Csprng Rng), 0) := ⟨rfl, rfl, 0, Serves.new⟩
  exact execute_total (Served hardware seed) (fun _ _ _ buf h => h.fill buf) requests hnew

/-- Whatever is requested in whatever pieces, the bytes handed out are the
second halves of the blocks in order, none twice and none left out. The first
half of each block is the seed of the next one, mixed with fresh entropy after
every 1024 blocks if there is any. -/
theorem fills_key_stream (hardware : Hardware) (seed : Bytes 32) (requests : List (List UInt8)) :
    ∃ written self calls, (Csprng.new seed : Csprng Rng).fills hardware requests = ok (written, self, calls) ∧
      written.map List.length = requests.map List.length ∧
      (∀ count, requests.flatten.length ≤ 32 * count → written.flatten =
        ((List.range count).flatMap fun i => (out Rng (keySeed Rng hardware seed i)).val).take
          requests.flatten.length) ∧
      self.buf_pos ≤ 32 ∧ self.blocks.toNat ≤ 1023 ∧
      ∀ requests' : List (List UInt8), requests'.flatten.length = requests.flatten.length →
        ∃ written' state', (Csprng.new seed : Csprng Rng).fills hardware requests' = ok (written', state') ∧
          written'.flatten = written.flatten := by
  obtain ⟨written, ⟨self, calls⟩, hrun, hserved⟩ := fills_served Rng hardware seed requests
  obtain ⟨count, hserves⟩ := hserved.serves
  have hblocks : self.blocks.toNat ≤ 1023 := by
    rw [hserves.blocks]
    omega
  refine ⟨written, self, calls, hrun, hserved.lengths, fun total htotal => ?_, hserves.buf_pos_le, hblocks, ?_⟩
  · have hblocks : ∀ i, (out Rng (keySeed Rng hardware seed i)).val.length = 32 := fun i => Bytes.property _
    rw [hserved.bytes, keyStream, map_blockStream hblocks htotal]
  · intro requests' hsame
    obtain ⟨written', state', hrun', hserved'⟩ := fills_served Rng hardware seed requests'
    exact ⟨written', state', hrun', by rw [hserved'.bytes, hserved.bytes, hsame]⟩

end Csprng

end conc_os.rng
