import Mathlib.Data.BitVec
import Mathlib.Dynamics.PeriodicPts.Lemmas
import Mathlib.Tactic

namespace rust

/-- A word xored with its own left shift determines the word: its low bits are
unchanged, and each higher bit is read off once the bits below it are known. -/
theorem xor_shiftLeft_injective {w k : Nat} (hk : 0 < k) :
    Function.Injective fun x : BitVec w => x ^^^ (x <<< k) := by
  intro x y hxy
  have hbit : ∀ i, i < w → x.getLsbD i = y.getLsbD i := by
    intro i
    induction i using Nat.strong_induction_on with
    | h i ih =>
      intro hi
      have h := congrArg (BitVec.getLsbD · i) hxy
      simp only [BitVec.getLsbD_xor, BitVec.getLsbD_shiftLeft, hi, decide_true, Bool.true_and] at h
      by_cases hlow : i < k
      · simpa [hlow] using h
      · rw [ih (i - k) (by omega) (by omega)] at h
        exact Bool.xor_left_inj.mp h
  exact BitVec.eq_of_getLsbD_eq fun i hi => hbit i hi

/-- The same for the right shift, from the high bits down. -/
theorem xor_ushiftRight_injective {w k : Nat} (hk : 0 < k) :
    Function.Injective fun x : BitVec w => x ^^^ (x >>> k) := by
  intro x y hxy
  have hbit : ∀ gap i, w ≤ i + gap → x.getLsbD i = y.getLsbD i := by
    intro gap
    induction gap with
    | zero =>
      intro i hi
      rw [BitVec.getLsbD_of_ge x i (by omega), BitVec.getLsbD_of_ge y i (by omega)]
    | succ gap ih =>
      intro i hi
      have h := congrArg (BitVec.getLsbD · i) hxy
      simp only [BitVec.getLsbD_xor, BitVec.getLsbD_ushiftRight] at h
      rw [ih (k + i) (by omega)] at h
      exact Bool.xor_left_inj.mp h
  exact BitVec.eq_of_getLsbD_eq fun i hi => hbit w i (by omega)

section orbit

variable {α : Type*} [Finite α] {f : α → α}

/-- The orbit of an injective map on a finite type returns to where it began,
and all it passes before is distinct. -/
theorem orbit_periodic (hf : Function.Injective f) (x : α) :
    ∃ p > 0, (∀ i, f^[i + p] x = f^[i] x) ∧ ∀ i j, i < j → j < p → f^[i] x ≠ f^[j] x := by
  refine ⟨Function.minimalPeriod f x, ?_, ?_, ?_⟩
  · exact Function.minimalPeriod_pos_of_mem_periodicPts (hf.mem_periodicPts x)
  · intro i
    exact Function.iterate_add_minimalPeriod_eq
  · intro i j hij hj heq
    have hinj := Function.iterate_injOn_Iio_minimalPeriod (f := f) (x := x)
    exact absurd (hinj (hij.trans hj) hj heq) (by omega)

end orbit

end rust
