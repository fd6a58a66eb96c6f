import Mathlib.Data.List.GetD
import Mathlib.Data.List.Range

namespace rust

variable {α : Type} [Inhabited α]

/-- The values of a sequence of blocks, `size` in each, one after the other. -/
def blockStream (size : Nat) (block : Nat → List α) (n : Nat) : α := (block (n / size)).getD (n % size) default

theorem blockStream_offset {size : Nat} (block : Nat → List α) (i : Nat) {j : Nat} (h : j < size) :
    blockStream size block (size * i + j) = (block i).getD j default := by
  rw [blockStream, Nat.mul_add_div (by omega), Nat.div_eq_of_lt h, Nat.add_zero, Nat.mul_add_mod,
    Nat.mod_eq_of_lt h]

/-- Whole blocks of the stream are the blocks. -/
theorem map_blockStream_mul {size : Nat} {block : Nat → List α} (hblock : ∀ i, (block i).length = size)
    (count : Nat) :
    (List.range (size * count)).map (blockStream size block) = (List.range count).flatMap block := by
  induction count with
  | zero => simp
  | succ count ih =>
    have hlast : (List.range size).map (fun j => blockStream size block (size * count + j)) = block count := by
      refine List.ext_getElem (by simp [hblock]) fun j hj hj' => ?_
      have hlt : j < size := by simpa using hj
      rw [List.getElem_map, List.getElem_range, blockStream_offset block count hlt, List.getD_eq_getElem _ _ hj']
    rw [Nat.mul_succ, List.range_add, List.map_append, ih, List.map_map, List.range_succ, List.flatMap_append,
      List.flatMap_singleton]
    exact congrArg _ hlast

/-- The first values of the stream are those of as many blocks as hold them. -/
theorem map_blockStream {size : Nat} {block : Nat → List α} (hblock : ∀ i, (block i).length = size)
    {total count : Nat} (h : total ≤ size * count) :
    (List.range total).map (blockStream size block) = ((List.range count).flatMap block).take total := by
  rw [← map_blockStream_mul hblock, ← List.map_take, List.take_range, Nat.min_eq_left h]

end rust
