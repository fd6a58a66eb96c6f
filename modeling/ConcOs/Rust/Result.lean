import Mathlib.Tactic
import Mathlib.Data.List.GetD
import Mathlib.Data.Vector.Basic

namespace rust

/-- Why an execution stops without returning. A failing `unwrap` or `expect`
keeps its message; the overflow case is the arithmetic check of a debug build. -/
inductive Panic where
  | indexOutOfRange
  | lengthMismatch
  | expect (message : String)
  | overflow
  | capacityOverflow
deriving DecidableEq, Repr

/-- The outcome of running a piece of Rust: a value, a panic, or a loop that
was not seen to finish. Rust's own `Result` is `Except` throughout. -/
inductive Result (α : Type) where
  | ok (value : α)
  | fail (panic : Panic)
  | div
deriving DecidableEq, Repr

namespace Result

protected def bind {α β : Type} (x : Result α) (f : α → Result β) : Result β :=
  match x with
  | ok value => f value
  | fail panic => fail panic
  | div => div

instance : Monad Result where
  pure := ok
  bind := Result.bind

@[simp] theorem pure_eq_ok {α : Type} (value : α) : (pure value : Result α) = ok value := rfl

@[simp] theorem bind_tc_ok {α β : Type} (value : α) (f : α → Result β) :
    (ok value >>= f) = f value := rfl

@[simp] theorem bind_tc_fail {α β : Type} (panic : Panic) (f : α → Result β) :
    (fail panic >>= f) = fail panic := rfl

@[simp] theorem bind_tc_div {α β : Type} (f : α → Result β) : (div >>= f) = div := rfl

instance : LawfulMonad Result :=
  LawfulMonad.mk'
    Result
    (by intro _ x; cases x <;> rfl)
    (by intros; rfl)
    (by intro _ _ _ x f g; cases x <;> rfl)

/-- A sequence of two computations returns exactly when both parts do. -/
theorem bind_eq_ok_iff {α β : Type} {x : Result α} {f : α → Result β} {y : β} :
    (x >>= f) = ok y ↔ ∃ a, x = ok a ∧ f a = ok y := by
  cases x <;> simp

/-- Two computations that begin alike are equal if they go on alike from every
value the common beginning can return. -/
theorem bind_congr_ok {α β : Type} {x : Result α} {f g : α → Result β} (h : ∀ a, x = ok a → f a = g a) :
    (x >>= f) = (x >>= g) := by
  cases x with
  | ok value => exact h value rfl
  | fail panic => rfl
  | div => rfl

/-- An `Option` that the source unwraps. -/
def unwrap {α : Type} (message : String) : Option α → Result α
  | some value => ok value
  | none => fail (.expect message)

@[simp] theorem unwrap_some {α : Type} (message : String) (value : α) :
    unwrap message (some value) = ok value := rfl

theorem unwrap_eq_ok {α : Type} {message : String} {option : Option α} {value : α}
    (h : unwrap message option = ok value) : option = some value := by
  cases option with
  | none => cases h
  | some other => rw [ok.inj h]

end Result

open Result

/-- What one iteration of a loop decides. -/
inductive ControlFlow (σ β : Type) where
  | cont (state : σ)
  | done (result : β)

/-- A `while` loop given as its body. The fuel bounds the number of iterations;
running out of it is `div`, so a statement that a loop returns includes that it
terminates. -/
def loop {σ β : Type} (body : σ → Result (ControlFlow σ β)) : Nat → σ → Result β
  | 0, _ => div
  | fuel + 1, state => do
    match ← body state with
    | .cont next => loop body fuel next
    | .done result => ok result

theorem loop_cont {σ β : Type} {body : σ → Result (ControlFlow σ β)} {fuel : Nat} {state next : σ}
    (hbody : body state = ok (.cont next)) : loop body (fuel + 1) state = loop body fuel next := by
  simp [loop, hbody]

theorem loop_done {σ β : Type} {body : σ → Result (ControlFlow σ β)} {fuel : Nat} {state : σ}
    {result : β} (hbody : body state = ok (.done result)) :
    loop body (fuel + 1) state = ok result := by
  simp [loop, hbody]

/-- The rule of total correctness for loops: an invariant, a measure that every
continuing iteration decreases, and a postcondition every finishing iteration
establishes. -/
theorem loop_spec {σ β : Type} {body : σ → Result (ControlFlow σ β)} (inv : σ → Prop)
    (post : β → Prop) (measure : σ → Nat)
    (hbody : ∀ state, inv state →
      (∃ next, body state = ok (.cont next) ∧ inv next ∧ measure next < measure state) ∨
        ∃ result, body state = ok (.done result) ∧ post result) :
    ∀ fuel state, inv state → measure state < fuel →
      ∃ result, loop body fuel state = ok result ∧ post result := by
  intro fuel
  induction fuel with
  | zero =>
    intro state _ hfuel
    omega
  | succ fuel ih =>
    intro state hinv hfuel
    rcases hbody state hinv with ⟨next, hnext, hkeep, hless⟩ | ⟨result, hdone, hpost⟩
    · rw [loop_cont hnext]
      exact ih next hkeep (by omega)
    · exact ⟨result, loop_done hdone, hpost⟩

end rust
