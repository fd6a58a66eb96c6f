import ConcOs.Kernel.Time
import ConcOs.Kernel.Executor
import ConcOs.Kernel.Stream

open rust Result
open conc_os.time conc_os.task conc_os.task.executor conc_os.task.network conc_os.task.serial conc_os.task.time
open conc_os.task.stream (Channel Added)

namespace conc_os.main

/-- The tasks that `kernel_main` spawns. -/
def kernel_main : Result Executor := do
  let (handle_serial, next_id) := Task.new 0
  let executor ← Executor.new.spawn handle_serial
  let (network_task, next_id) := Task.new next_id
  let executor ← executor.spawn network_task
  let (time_task, _) := Task.new next_id
  executor.spawn time_task

/-- The streams that interrupts feed. -/
inductive Source where
  | serial
  | network
deriving DecidableEq

/-- What a stream yields. -/
abbrev Source.Item : Source → Type
  | .serial => UInt8
  | .network => NetworkEvent

/-- What a task loops on. -/
inductive Role where
  | stream (source : Source)
  | time
deriving DecidableEq

def role (id : TaskId) : Role :=
  if id = 0 then .stream .serial else if id = 1 then .stream .network else .time

inductive Interrupt where
  | serial (byte : UInt8)
  | network (evt : NetworkEvent)
  | timer
deriving DecidableEq

def Interrupt.source : Interrupt → Option Source
  | serial _ => some .serial
  | network _ => some .network
  | timer => none

/-- Where a task is that is being polled. -/
inductive Phase where
  /-- before the next call of `poll_next`, or of `TimeTask::poll` -/
  | next
  /-- after a first `pop` that found nothing -/
  | missed
  /-- after `register` -/
  | registered
  /-- with an item of the second `pop`, before `take` -/
  | taking
  /-- with a call that returned `Pending` -/
  | pended
deriving DecidableEq

/-- Where the executor is. -/
inductive Control where
  | ready
  | popped (id : TaskId)
  | polling (id : TaskId) (waker : TaskWaker) (phase : Phase)
  | idle
  | checking
  | halting
  | resuming
  | halted
deriving DecidableEq

/-- The executor, the statics that interrupt handlers share with its tasks, and
the future that `time_task` is waiting for. -/
structure Kernel where
  exec : Executor
  serial : SerialStream TaskWaker
  net : NetworkStream TaskWaker
  ticks : UInt64
  next_id : UInt64
  timers : Timers TaskWaker
  sleeper : Option TimeTask
  control : Control
  interrupts : Bool

namespace Kernel

/-- The kernel when `kernel_main` calls `run`. -/
def boot (exec : Executor) : Kernel := ⟨exec, .uninit, .uninit, 0, 0, ∅, none, .ready, true⟩

/-- The statics of a stream. -/
def channel (self : Kernel) : (source : Source) → Channel source.Item TaskWaker
  | .serial => self.serial
  | .network => self.net

/-- An operation on the statics of one of the streams. -/
def onStream {β : Type} (self : Kernel) (source : Source)
    (op : {α : Type} → Channel α TaskWaker → Result (β × Channel α TaskWaker)) : Result (β × Kernel) :=
  match source with
  | .serial => do
    let (result, serial) ← op self.serial
    return (result, { self with serial := serial })
  | .network => do
    let (result, net) ← op self.net
    return (result, { self with net := net })

/-- `SerialStream::new` or `NetworkStream::new`. -/
def init (self : Kernel) (source : Source) : Result (Unit × Kernel) :=
  self.onStream source fun channel => do return ((), ← channel.init)

/-- A `pop` of `poll_next`, and whether it found an item. -/
def pop (self : Kernel) (source : Source) : Result (Bool × Kernel) :=
  self.onStream source fun channel => do
    let (item, channel) ← channel.pop
    return (item.isSome, channel)

def register (self : Kernel) (source : Source) (waker : TaskWaker) : Result (Unit × Kernel) :=
  self.onStream source fun channel => ok ((), channel.register waker)

def take (self : Kernel) (source : Source) : Result (Unit × Kernel) :=
  self.onStream source fun channel => ok ((), channel.take)

/-- The wakes of an interrupt handler. -/
def wake_all (self : Kernel) (wakers : List TaskWaker) : Result Kernel := do
  let exec ← self.exec.wake_all (wakers.map TaskWaker.task_id)
  return { self with exec := exec }

/-- The part of an interrupt handler that the tasks see: `add_byte`, `add_event`
or `tick`. -/
def handle (overflow_checks : Bool) (self : Kernel) : Interrupt → Result Kernel
  | .serial byte =>
    let (_, woken, serial) := add_byte self.serial byte
    { self with serial := serial }.wake_all woken.toList
  | .network evt =>
    let (_, woken, net) := add_event self.net evt
    { self with net := net }.wake_all woken.toList
  | .timer => do
    let (woken, ticks, timers) ← tick overflow_checks self.ticks self.timers
    { self with ticks := ticks, timers := timers }.wake_all (woken.map Prod.snd)

end Kernel

/-- The steps of the kernel. None of the tasks ever returns. A task that reads
a stream constructs it when it is first polled, and calls `poll_next` until it
returns `Pending`; `time_task` makes a new future whenever the last one is
ready. -/
inductive Step (overflow_checks : Bool) : Kernel → Option Interrupt → Kernel → Prop where
  | pop {k : Kernel} {id : TaskId} {exec : Executor} (hcontrol : k.control = .ready)
      (hcall : k.exec.pop = (some id, exec)) :
      Step overflow_checks k none { k with exec := exec, control := .popped id }
  | drain {k : Kernel} {exec : Executor} (hcontrol : k.control = .ready) (hcall : k.exec.pop = (none, exec)) :
      Step overflow_checks k none { k with exec := exec, control := .idle }
  | discard {k : Kernel} {id : TaskId} (hcontrol : k.control = .popped id)
      (hcall : k.exec.begin_poll id = none) : Step overflow_checks k none { k with control := .ready }
  | beginPoll {k : Kernel} {id : TaskId} {waker : TaskWaker} {exec : Executor}
      (hcontrol : k.control = .popped id) (hcall : k.exec.begin_poll id = some (waker, exec)) :
      Step overflow_checks k none { k with exec := exec, control := .polling id waker .next }
  | construct {k k' : Kernel} {id : TaskId} {waker : TaskWaker} {source : Source}
      (hcontrol : k.control = .polling id waker .next) (hrole : role id = .stream source)
      (hcall : k.init source = ok ((), k')) : Step overflow_checks k none k'
  | firstPop {k k' : Kernel} {id : TaskId} {waker : TaskWaker} {source : Source} {found : Bool}
      (hcontrol : k.control = .polling id waker .next) (hrole : role id = .stream source)
      (hcall : k.pop source = ok (found, k')) :
      Step overflow_checks k none { k' with control := .polling id waker (if found then .next else .missed) }
  | register {k k' : Kernel} {id : TaskId} {waker : TaskWaker} {source : Source}
      (hcontrol : k.control = .polling id waker .missed) (hrole : role id = .stream source)
      (hcall : k.register source waker = ok ((), k')) :
      Step overflow_checks k none { k' with control := .polling id waker .registered }
  | secondPop {k k' : Kernel} {id : TaskId} {waker : TaskWaker} {source : Source} {found : Bool}
      (hcontrol : k.control = .polling id waker .registered) (hrole : role id = .stream source)
      (hcall : k.pop source = ok (found, k')) :
      Step overflow_checks k none { k' with control := .polling id waker (if found then .taking else .pended) }
  | take {k k' : Kernel} {id : TaskId} {waker : TaskWaker} {source : Source}
      (hcontrol : k.control = .polling id waker .taking) (hrole : role id = .stream source)
      (hcall : k.take source = ok ((), k')) :
      Step overflow_checks k none { k' with control := .polling id waker .next }
  | newSleeper {k : Kernel} {id : TaskId} {waker : TaskWaker} {task : TimeTask} {next_id : UInt64}
      (hcontrol : k.control = .polling id waker .next) (hrole : role id = .time) (hnone : k.sleeper = none)
      (hcall : TimeTask.new overflow_checks k.ticks k.next_id 1000 = ok (task, next_id)) :
      Step overflow_checks k none { k with sleeper := some task, next_id := next_id }
  | sleeperReady {k : Kernel} {id : TaskId} {waker : TaskWaker} {task : TimeTask} {timers : Timers TaskWaker}
      (hcontrol : k.control = .polling id waker .next) (hrole : role id = .time) (hsome : k.sleeper = some task)
      (hcall : task.poll overflow_checks k.ticks k.timers waker = ok (.Ready, timers)) :
      Step overflow_checks k none { k with sleeper := none, timers := task.drop timers }
  | sleeperPending {k : Kernel} {id : TaskId} {waker : TaskWaker} {task : TimeTask} {timers : Timers TaskWaker}
      (hcontrol : k.control = .polling id waker .next) (hrole : role id = .time) (hsome : k.sleeper = some task)
      (hcall : task.poll overflow_checks k.ticks k.timers waker = ok (.Pending, timers)) :
      Step overflow_checks k none { k with timers := timers, control := .polling id waker .pended }
  | suspend {k : Kernel} {id : TaskId} {waker : TaskWaker} (hcontrol : k.control = .polling id waker .pended) :
      Step overflow_checks k none { k with control := .ready }
  | disable {k : Kernel} (hcontrol : k.control = .idle) :
      Step overflow_checks k none { k with control := .checking, interrupts := false }
  | check {k : Kernel} (hcontrol : k.control = .checking) :
      Step overflow_checks k none
        { k with control := if k.exec.task_queue.is_empty then .halting else .resuming }
  | halt {k : Kernel} (hcontrol : k.control = .halting) :
      Step overflow_checks k none { k with control := .halted, interrupts := true }
  | enable {k : Kernel} (hcontrol : k.control = .resuming) :
      Step overflow_checks k none { k with control := .ready, interrupts := true }
  | interrupt {k k' : Kernel} (i : Interrupt) (hinterrupts : k.interrupts = true)
      (hcall : k.handle overflow_checks i = ok k') :
      Step overflow_checks k (some i) { k' with control := if k.control = .halted then .ready else k.control }

namespace Kernel

/-- The waker that is registered with a stream. -/
def slot (self : Kernel) (source : Source) : Option TaskWaker := (self.channel source).waker

/-- An operation on one stream, which leaves the rest of the kernel alone. -/
structure Touches (k : Kernel) (source : Source) (k' : Kernel) : Prop where
  exec : k'.exec = k.exec
  ticks : k'.ticks = k.ticks
  timers : k'.timers = k.timers
  sleeper : k'.sleeper = k.sleeper
  control : k'.control = k.control
  interrupts : k'.interrupts = k.interrupts
  other : ∀ s, s ≠ source → k'.channel s = k.channel s

theorem Touches.slot {k k' : Kernel} {source s : Source} (h : k.Touches source k') (hs : s ≠ source) :
    k'.slot s = k.slot s := congrArg Channel.waker (h.other s hs)

theorem onStream_inv {β : Type} {k k' : Kernel} {source : Source} {result : β}
    {op : {α : Type} → Channel α TaskWaker → Result (β × Channel α TaskWaker)}
    (h : k.onStream source op = ok (result, k')) :
    op (k.channel source) = ok (result, k'.channel source) ∧ k.Touches source k' := by
  cases source with
  | serial =>
    rw [onStream, bind_eq_ok_iff] at h
    obtain ⟨⟨result', serial⟩, hcall, h⟩ := h
    obtain ⟨rfl, rfl⟩ := Prod.mk.inj (ok.inj h)
    refine ⟨hcall, rfl, rfl, rfl, rfl, rfl, rfl, fun s hs => ?_⟩
    cases s with
    | serial => exact absurd rfl hs
    | network => rfl
  | network =>
    rw [onStream, bind_eq_ok_iff] at h
    obtain ⟨⟨result', net⟩, hcall, h⟩ := h
    obtain ⟨rfl, rfl⟩ := Prod.mk.inj (ok.inj h)
    refine ⟨hcall, rfl, rfl, rfl, rfl, rfl, rfl, fun s hs => ?_⟩
    cases s with
    | serial => rfl
    | network => exact absurd rfl hs

theorem init_inv {k k' : Kernel} {source : Source} (h : k.init source = ok ((), k')) :
    (k.channel source).init = ok (k'.channel source) ∧ k.Touches source k' := by
  obtain ⟨hcall, htouches⟩ := onStream_inv h
  obtain ⟨channel, hinit, hafter⟩ := bind_eq_ok_iff.mp hcall
  obtain ⟨_, rfl⟩ := Prod.mk.inj (ok.inj hafter)
  exact ⟨hinit, htouches⟩

theorem pop_inv {k k' : Kernel} {source : Source} {found : Bool} (h : k.pop source = ok (found, k')) :
    (∃ item, (k.channel source).pop = ok (item, k'.channel source) ∧ item.isSome = found) ∧
      k.Touches source k' := by
  obtain ⟨hcall, htouches⟩ := onStream_inv h
  obtain ⟨⟨item, channel⟩, hpop, hafter⟩ := bind_eq_ok_iff.mp hcall
  obtain ⟨hfound, rfl⟩ := Prod.mk.inj (ok.inj hafter)
  exact ⟨⟨item, hpop, hfound⟩, htouches⟩

theorem pop_slot {k k' : Kernel} {source : Source} {found : Bool} (h : k.pop source = ok (found, k')) :
    k'.slot source = k.slot source := by
  obtain ⟨⟨item, hpop, _⟩, _⟩ := pop_inv h
  exact Channel.pop_waker hpop

theorem register_inv {k k' : Kernel} {source : Source} {waker : TaskWaker}
    (h : k.register source waker = ok ((), k')) :
    k'.channel source = (k.channel source).register waker ∧ k.Touches source k' := by
  obtain ⟨hcall, htouches⟩ := onStream_inv h
  exact ⟨(Prod.mk.inj (ok.inj hcall)).2.symm, htouches⟩

theorem register_slot {k k' : Kernel} {source : Source} {waker : TaskWaker}
    (h : k.register source waker = ok ((), k')) : k'.slot source = some waker :=
  congrArg Channel.waker (register_inv h).1

theorem take_inv {k k' : Kernel} {source : Source} (h : k.take source = ok ((), k')) :
    k'.channel source = (k.channel source).take ∧ k.Touches source k' := by
  obtain ⟨hcall, htouches⟩ := onStream_inv h
  exact ⟨(Prod.mk.inj (ok.inj hcall)).2.symm, htouches⟩

theorem take_slot {k k' : Kernel} {source : Source} (h : k.take source = ok ((), k')) :
    k'.slot source = none := congrArg Channel.waker (take_inv h).1

theorem wake_all_eq {k k' : Kernel} {wakers : List TaskWaker} (h : k.wake_all wakers = ok k') :
    ∃ exec, k.exec.wake_all (wakers.map TaskWaker.task_id) = ok exec ∧ k' = { k with exec := exec } := by
  rw [wake_all, bind_eq_ok_iff] at h
  obtain ⟨exec, hexec, h⟩ := h
  exact ⟨exec, hexec, (ok.inj h).symm⟩

end Kernel

end conc_os.main
