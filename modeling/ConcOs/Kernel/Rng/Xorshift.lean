import ConcOs.Kernel.Rng
import ConcOs.Rust.BlockStream
import ConcOs.Rust.ShiftXor
import Mathlib.Data.FinEnum

open rust Result

namespace conc_os.rng

namespace Xorshift64

/-- Each of the three assignments can be undone. -/
theorem xorshift_injective : Function.Injective xorshift := by
  intro x y hxy
  have hleft : ∀ {a b : UInt64}, a ^^^ (a <<< 13) = b ^^^ (b <<< 13) → a = b := fun h =>
    UInt64.toBitVec_inj.mp (xor_shiftLeft_injective (show 0 < 13 by decide) (congrArg UInt64.toBitVec h))
  have hright : ∀ {a b : UInt64}, a ^^^ (a >>> 7) = b ^^^ (b >>> 7) → a = b := fun h =>
    UInt64.toBitVec_inj.mp (xor_ushiftRight_injective (show 0 < 7 by decide) (congrArg UInt64.toBitVec h))
  have hlast : ∀ {a b : UInt64}, a ^^^ (a <<< 17) = b ^^^ (b <<< 17) → a = b := fun h =>
    UInt64.toBitVec_inj.mp (xor_shiftLeft_injective (show 0 < 17 by decide) (congrArg UInt64.toBitVec h))
  exact hleft (hright (hlast hxy))

theorem xorshift_bijective : Function.Bijective xorshift := Finite.injective_iff_bijective.mp xorshift_injective

theorem xorshift_zero : xorshift 0 = 0 := by decide

theorem xorshift_ne_zero {x : UInt64} (hx : x ≠ 0) : xorshift x ≠ 0 := by
  intro hzero
  exact hx (xorshift_injective (hzero.trans xorshift_zero.symm))

theorem or_one_ne_zero (x : UInt64) : x ||| 1 ≠ 0 := by
  intro hzero
  have hbit := congrArg (fun y : UInt64 => y.toNat.testBit 0) hzero
  simp at hbit

/-- The generator and the number of reads of the counter after `n` calls of
`next`. -/
def calls (tsc : Tsc) : Nat → Xorshift64 × Nat
  | 0 => (new, 0)
  | n + 1 => ((calls tsc n).1.next tsc (calls tsc n).2).2

/-- What call number `n` of `next` returns. -/
def output (tsc : Tsc) (n : Nat) : UInt64 := ((calls tsc n).1.next tsc (calls tsc n).2).1

/-- A generator that has been seeded does not look at the counter. -/
theorem next_seeded (tsc : Tsc) {state : UInt64} (hstate : state ≠ 0) (reads : Nat) :
    (⟨state⟩ : Xorshift64).next tsc reads = (xorshift state, ⟨xorshift state⟩, reads) := by
  rw [next, if_neg hstate]

theorem iterate_ne_zero {x : UInt64} (hx : x ≠ 0) (n : Nat) : xorshift^[n] x ≠ 0 := by
  induction n with
  | zero => exact hx
  | succ n ih =>
    rw [Function.iterate_succ_apply']
    exact xorshift_ne_zero ih

/-- After the first call, the state is the orbit of the seed. -/
theorem calls_succ (tsc : Tsc) (n : Nat) : calls tsc (n + 1) = (⟨xorshift^[n + 1] (tsc 0 ||| 1)⟩, 1) := by
  induction n with
  | zero => rfl
  | succ n ih =>
    have hseeded := iterate_ne_zero (or_one_ne_zero (tsc 0)) (n + 1)
    rw [calls, ih, next_seeded tsc hseeded, Function.iterate_succ_apply' xorshift (n + 1)]

theorem output_eq (tsc : Tsc) (n : Nat) : output tsc n = xorshift^[n] (xorshift (tsc 0 ||| 1)) := by
  rw [← Function.iterate_succ_apply]
  cases n with
  | zero => rfl
  | succ n =>
    have hseeded := iterate_ne_zero (or_one_ne_zero (tsc 0)) (n + 1)
    rw [output, calls_succ, next_seeded tsc hseeded, Function.iterate_succ_apply' xorshift (n + 1)]

/-- The step of the generator is a bijection that keeps zero apart. So the
counter is read at the first call only, no call returns zero, and the outputs
are distinct until the first of them recurs, from where they repeat. -/
theorem next_periodic :
    Function.Bijective xorshift ∧ (∀ x, x ≠ 0 → xorshift x ≠ 0) ∧
    ∀ tsc : Tsc,
      (∀ n, (calls tsc (n + 1)).2 = 1) ∧
      (∀ n, output tsc n ≠ 0) ∧
      ∃ p > 0, (∀ n, output tsc (n + p) = output tsc n) ∧
        ∀ i j, i < j → j < p → output tsc i ≠ output tsc j := by
  refine ⟨xorshift_bijective, fun x => xorshift_ne_zero, fun tsc => ⟨fun n => ?_, fun n => ?_, ?_⟩⟩
  · rw [calls_succ]
  · rw [output_eq]
    exact iterate_ne_zero (xorshift_ne_zero (or_one_ne_zero _)) n
  · simp only [output_eq]
    exact orbit_periodic xorshift_injective _

/-- The bytes of the outputs from call number `n` on. -/
def outputBytes (tsc : Tsc) (n k : Nat) : List UInt8 := U64.to_ne_bytes (output tsc (n + k))

theorem fill_chunk_calls (tsc : Tsc) (written : List UInt8) (n chunk_len : Nat) :
    fill_chunk tsc (written, calls tsc n) chunk_len =
      (written ++ (outputBytes tsc n 0).take chunk_len, calls tsc (n + 1)) := rfl

/-- Every whole chunk takes the bytes of one output. -/
theorem fill_whole_chunks (tsc : Tsc) (n count : Nat) :
    (List.replicate count 8).foldl (fill_chunk tsc) ([], calls tsc n) =
      ((List.range count).flatMap (outputBytes tsc n), calls tsc (n + count)) := by
  induction count with
  | zero => rfl
  | succ count ih =>
    have hlen : (outputBytes tsc (n + count) 0).length ≤ 8 := (U64.length_to_ne_bytes _).le
    rw [List.replicate_succ', List.foldl_append, ih, List.foldl_cons, List.foldl_nil, fill_chunk_calls,
      List.take_of_length_le hlen, List.range_succ, List.flatMap_append, List.flatMap_singleton]
    rfl

/-- Without a seeded generator, a request of any length is filled with the bytes
of the next outputs; what is left of the last one is not used again. -/
theorem fill_eq (tsc : Tsc) (n : Nat) (buf : List UInt8) :
    (calls tsc n).1.fill tsc (calls tsc n).2 buf =
      ((List.range buf.length).map (blockStream 8 (outputBytes tsc n)),
        calls tsc (n + (buf.length + 7) / 8)) := by
  have hblock : ∀ k, (outputBytes tsc n k).length = 8 := fun k => U64.length_to_ne_bytes _
  have hwhole : ((List.range (buf.length / 8)).flatMap (outputBytes tsc n)).length = 8 * (buf.length / 8) := by
    simp [List.length_flatMap, hblock, Nat.mul_comm]
  rw [map_blockStream hblock (show buf.length ≤ 8 * ((buf.length + 7) / 8) by omega), fill, chunk_lens,
    List.foldl_append, fill_whole_chunks]
  by_cases hrest : buf.length % 8 = 0
  · have hcount : (buf.length + 7) / 8 = buf.length / 8 := by omega
    rw [if_pos hrest, List.foldl_nil, hcount, List.take_of_length_le (by omega)]
  · have hcount : (buf.length + 7) / 8 = buf.length / 8 + 1 := by omega
    have hlast : buf.length - 8 * (buf.length / 8) = buf.length % 8 := by omega
    rw [if_neg hrest, List.foldl_cons, List.foldl_nil, fill_chunk_calls, hcount, List.range_succ,
      List.flatMap_append, List.flatMap_singleton, List.take_append, hwhole, hlast,
      List.take_of_length_le (show _ ≤ buf.length by omega)]
    rfl

end Xorshift64

end conc_os.rng
