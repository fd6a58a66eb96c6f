import Mathlib.Data.List.Basic

namespace rust

/-- `crossbeam_queue::ArrayQueue`: a queue of bounded length. -/
@[ext] structure ArrayQueue (α : Type) (capacity : Nat) where
  items : List α
  length_le : items.length ≤ capacity

namespace ArrayQueue

variable {α : Type} {capacity : Nat}

def new (α : Type) (capacity : Nat) : ArrayQueue α capacity := ⟨[], Nat.zero_le _⟩

@[simp] theorem items_new : (new α capacity).items = [] := rfl

/-- `push`, which gives the value back when the queue is full. -/
def push (self : ArrayQueue α capacity) (value : α) : Except α (ArrayQueue α capacity) :=
  if h : self.items.length < capacity then
    .ok ⟨self.items ++ [value], by rw [List.length_append]; exact h⟩
  else .error value

def pop (self : ArrayQueue α capacity) : Option α × ArrayQueue α capacity :=
  match self with
  | ⟨[], h⟩ => (none, ⟨[], h⟩)
  | ⟨value :: rest, h⟩ => (some value, ⟨rest, Nat.le_of_succ_le h⟩)

def is_empty (self : ArrayQueue α capacity) : Bool := self.items.isEmpty

theorem push_eq_ok_iff {self after : ArrayQueue α capacity} {value : α} :
    self.push value = .ok after ↔ self.items.length < capacity ∧ after.items = self.items ++ [value] := by
  unfold push
  split
  case isTrue h =>
    rw [Except.ok.injEq, ArrayQueue.ext_iff, eq_comm]
    exact (and_iff_right h).symm
  case isFalse h => simp [h]

theorem push_eq_error_iff {self : ArrayQueue α capacity} {value back : α} :
    self.push value = .error back ↔ self.items.length = capacity ∧ back = value := by
  have hle := self.length_le
  unfold push
  split
  case isTrue h => simp [Nat.ne_of_lt h]
  case isFalse h =>
    rw [Except.error.injEq, eq_comm]
    exact (and_iff_right (by omega)).symm

theorem pop_eq_none_iff {self after : ArrayQueue α capacity} :
    self.pop = (none, after) ↔ self.items = [] ∧ after = self := by
  obtain ⟨_ | ⟨value, rest⟩, h⟩ := self <;> simp [pop, eq_comm]

theorem pop_eq_some_iff {self after : ArrayQueue α capacity} {value : α} :
    self.pop = (some value, after) ↔ self.items = value :: after.items := by
  obtain ⟨_ | ⟨first, rest⟩, h⟩ := self <;> simp [pop, ArrayQueue.ext_iff]

end ArrayQueue

end rust
