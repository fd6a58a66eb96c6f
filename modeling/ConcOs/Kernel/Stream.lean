import ConcOs.Rust.Result
import ConcOs.Rust.ArrayQueue

open rust Result

namespace conc_os.task.stream

/-- The statics of an interrupt-to-task stream: the queue, in a `OnceCell`, and
the `AtomicWaker`. -/
structure Channel (α Waker : Type) where
  queue : Option (ArrayQueue α 100)
  waker : Option Waker

/-- What became of an item given to a stream. -/
inductive Added where
  | accepted
  | dropped
  | uninitialized
deriving DecidableEq

namespace Channel

variable {α Waker : Type}

def uninit : Channel α Waker := ⟨none, none⟩

/-- The constructor of the stream. -/
def init (self : Channel α Waker) : Result (Channel α Waker) :=
  match self.queue with
  | none => ok { self with queue := some (ArrayQueue.new α 100) }
  | some _ => fail (.expect "ScancodeStream::new should only be called once")

/-- The producer, called from interrupt handlers, with the waker it wakes. -/
def add (self : Channel α Waker) (item : α) : Added × Option Waker × Channel α Waker :=
  match self.queue with
  | none => (.uninitialized, none, self)
  | some queue =>
    match queue.push item with
    | .error _ => (.dropped, none, self)
    | .ok queue => (.accepted, self.waker, ⟨some queue, none⟩)

/-- A `pop` of `poll_next`, which gets the queue at its start. -/
def pop (self : Channel α Waker) : Result (Option α × Channel α Waker) :=
  match self.queue with
  | none => fail (.expect "not initialized")
  | some queue => ok (queue.pop.1, { self with queue := some queue.pop.2 })

/-- `AtomicWaker::register`. -/
def register (self : Channel α Waker) (waker : Waker) : Channel α Waker := { self with waker := some waker }

/-- `AtomicWaker::take`; the waker is thrown away. -/
def take (self : Channel α Waker) : Channel α Waker := { self with waker := none }

/-- `poll_next` from its second `pop` on, with no interrupt before the `take`;
`none` is `Pending`. -/
def second_pop (self : Channel α Waker) : Result (Option α × Channel α Waker) := do
  let (item, channel) ← self.pop
  return (item, if item.isSome then channel.take else channel)

/-- The items that have not been delivered. -/
def items (self : Channel α Waker) : List α :=
  match self.queue with
  | none => []
  | some queue => queue.items

/-- The channel of a stream that has been constructed. -/
def Ready (self : Channel α Waker) : Prop := self.queue.isSome = true

end Channel

end conc_os.task.stream

namespace conc_os.task.network

open conc_os.task.stream

inductive NetworkEvent where
  | Queue
  | ConfigChange
deriving DecidableEq

/-- `NET_EVENTS` and `NET_WAKER`. -/
abbrev NetworkStream (Waker : Type) := Channel NetworkEvent Waker

def add_event {Waker : Type} (self : NetworkStream Waker) (evt : NetworkEvent) :
    Added × Option Waker × NetworkStream Waker := self.add evt

end conc_os.task.network

namespace conc_os.task.serial

open conc_os.task.stream

/-- `SERIAL_QUEUE` and `WAKER`. -/
abbrev SerialStream (Waker : Type) := Channel UInt8 Waker

def add_byte {Waker : Type} (self : SerialStream Waker) (byte : UInt8) :
    Added × Option Waker × SerialStream Waker := self.add byte

end conc_os.task.serial

namespace conc_os.task.stream

namespace Channel

variable {α Waker : Type}

/-- What the producer may do to an initialised stream. -/
inductive AddOutcome (self : Channel α Waker) (item : α) : Added × Option Waker × Channel α Waker → Prop where
  | accepted {after : Channel α Waker} (hroom : self.items.length < 100) (hready : after.Ready)
      (hitems : after.items = self.items ++ [item]) (hwaker : after.waker = none) :
      AddOutcome self item (.accepted, self.waker, after)
  | dropped (hfull : self.items.length = 100) : AddOutcome self item (.dropped, none, self)

theorem add_spec {self : Channel α Waker} (h : self.Ready) (item : α) :
    AddOutcome self item (self.add item) := by
  obtain ⟨_ | queue, waker⟩ := self
  · cases h
  · unfold add
    dsimp only
    split
    case h_1 hpush => exact .dropped (ArrayQueue.push_eq_error_iff.mp hpush).1
    case h_2 hpush =>
      obtain ⟨hroom, hitems⟩ := ArrayQueue.push_eq_ok_iff.mp hpush
      exact .accepted hroom rfl hitems rfl

/-- What a `pop` takes from the undelivered items. -/
def Takes (self : Channel α Waker) (item : Option α) (after : Channel α Waker) : Prop :=
  after.Ready ∧ self.items = item.toList ++ after.items ∧ (item = none → self.items = [])

theorem pop_spec {self : Channel α Waker} (h : self.Ready) :
    ∃ item after, self.pop = ok (item, after) ∧ self.Takes item after ∧ after.waker = self.waker := by
  obtain ⟨_ | ⟨_ | ⟨item, rest⟩, hle⟩, waker⟩ := self
  · cases h
  · exact ⟨none, _, rfl, ⟨rfl, rfl, fun _ => rfl⟩, rfl⟩
  · exact ⟨some item, _, rfl, ⟨rfl, rfl, by simp⟩, rfl⟩

/-- The second `pop` of `poll_next` takes the waker back when it finds an item. -/
theorem second_pop_spec {self : Channel α Waker} (h : self.Ready) :
    ∃ item after, self.second_pop = ok (item, after) ∧ self.Takes item after ∧
      after.waker = if item.isSome then none else self.waker := by
  obtain ⟨item, after, hpop, htakes, hwaker⟩ := pop_spec h
  rw [second_pop, hpop, bind_tc_ok]
  cases item with
  | none => exact ⟨none, after, rfl, htakes, hwaker⟩
  | some item => exact ⟨some item, after.take, rfl, htakes, rfl⟩

/-- The producer wakes the registered waker or leaves it. -/
theorem add_waker (self : Channel α Waker) (item : α) :
    (self.add item).2.1.toList.length + (self.add item).2.2.waker.toList.length = self.waker.toList.length := by
  unfold add
  split
  case h_1 => simp
  case h_2 =>
    split
    case h_1 => simp
    case h_2 => simp

theorem add_take (self : Channel α Waker) (item : α) : (self.take.add item).2.2 = (self.add item).2.2.take := by
  unfold add take
  dsimp only
  split
  case h_1 => rfl
  case h_2 => split <;> rfl

theorem init_waker {self after : Channel α Waker} (h : self.init = ok after) : after.waker = self.waker := by
  unfold init at h
  split at h
  case h_1 => rw [← ok.inj h]
  case h_2 => cases h

theorem pop_waker {self after : Channel α Waker} {item : Option α}
    (h : self.pop = ok (item, after)) : after.waker = self.waker := by
  obtain ⟨_ | queue, waker⟩ := self
  · cases h
  · obtain ⟨_, rfl⟩ := Prod.mk.inj (ok.inj h)
    rfl

end Channel

end conc_os.task.stream
