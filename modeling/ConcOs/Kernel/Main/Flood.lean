import ConcOs.Rust.Run
import ConcOs.Kernel.Main

open rust Result
open conc_os.time conc_os.task conc_os.task.executor conc_os.task.network conc_os.task.serial conc_os.task.time
open conc_os.task.stream (Channel Added)

namespace conc_os.main

def Source.other : Source → Source
  | .serial => .network
  | .network => .serial

/-- A task that is about to be polled, or is being polled and has not
registered its waker. -/
def Control.unregistered : Control → Nat
  | .popped _ | .polling _ _ .next | .polling _ _ .missed => 1
  | _ => 0

/-- Where a task has registered its waker although it is still running. -/
def Phase.exposed : Phase → Bool
  | .registered | .taking => true
  | _ => false

namespace Kernel

/-- The number of wakers that interrupts can wake. -/
def registered (self : Kernel) : Nat :=
  (self.slot .serial).toList.length + (self.slot .network).toList.length + self.timers.size

/-- The ids in the queue and those that interrupts can add to it. -/
def demand (self : Kernel) : Nat := self.exec.task_queue.items.length + self.registered

def load (self : Kernel) : Nat := self.demand + self.control.unregistered

theorem registered_eq (self : Kernel) (source : Source) :
    self.registered = (self.slot source).toList.length + (self.slot source.other).toList.length +
      self.timers.size := by
  cases source with
  | serial => rfl
  | network => rw [registered, Source.other, Nat.add_comm (self.slot .serial).toList.length]

end Kernel

namespace Kernel

theorem Touches.demand_eq {k k' : Kernel} {source : Source} (h : k.Touches source k') :
    k'.demand + (k.slot source).toList.length = k.demand + (k'.slot source).toList.length := by
  have hother : k'.slot source.other = k.slot source.other := h.slot (by cases source <;> simp [Source.other])
  rw [demand, demand, k.registered_eq source, k'.registered_eq source, h.exec, h.timers, hother]
  omega

/-- An operation that leaves the waker alone. -/
theorem Touches.demand_le {k k' : Kernel} {source : Source} (h : k.Touches source k')
    (hslot : k'.slot source = k.slot source) : k'.demand ≤ k.demand := by
  have hdemand := h.demand_eq
  rw [hslot] at hdemand
  omega

theorem add_byte_touches (k : Kernel) (byte : UInt8) :
    k.Touches .serial { k with serial := (add_byte k.serial byte).2.2 } := by
  refine ⟨rfl, rfl, rfl, rfl, rfl, rfl, fun s hs => ?_⟩
  cases s with
  | serial => exact absurd rfl hs
  | network => rfl

theorem add_event_touches (k : Kernel) (evt : NetworkEvent) :
    k.Touches .network { k with net := (add_event k.net evt).2.2 } := by
  refine ⟨rfl, rfl, rfl, rfl, rfl, rfl, fun s hs => ?_⟩
  cases s with
  | serial => rfl
  | network => exact absurd rfl hs

theorem wake_all_inv {k k' : Kernel} {wakers : List TaskWaker} (h : k.wake_all wakers = ok k') :
    k' = { k with exec := k'.exec } ∧
      k'.exec.task_queue.items.length = k.exec.task_queue.items.length + wakers.length := by
  obtain ⟨exec, hwake, rfl⟩ := wake_all_eq h
  refine ⟨rfl, ?_⟩
  change exec.task_queue.items.length = _
  rw [(Executor.wake_all_inv hwake).2.2, List.length_append, List.length_map]

theorem wake_all_returns {k : Kernel} {wakers : List TaskWaker}
    (h : k.exec.task_queue.items.length + wakers.length ≤ 100) : ∃ k', k.wake_all wakers = ok k' := by
  rw [← List.length_map TaskWaker.task_id] at h
  obtain ⟨exec, hwake⟩ := Executor.wake_all_returns h
  exact ⟨_, by rw [wake_all, hwake, bind_tc_ok, pure_eq_ok]⟩

/-- A handler moves wakers from where they are registered to the queue. -/
structure Handled (k : Kernel) (i : Interrupt) (k' : Kernel) : Prop where
  control : k'.control = k.control
  demand : k'.demand = k.demand
  slot : ∀ source, i.source ≠ some source → k'.slot source = k.slot source

theorem Handled.of_wake {k added k' : Kernel} {i : Interrupt} {wakers : List TaskWaker}
    (hwake : added.wake_all wakers = ok k') (hcontrol : added.control = k.control)
    (hdemand : added.demand + wakers.length = k.demand)
    (hslot : ∀ source, i.source ≠ some source → added.slot source = k.slot source) : Handled k i k' := by
  obtain ⟨hk', hlength⟩ := wake_all_inv hwake
  rw [hk']
  refine ⟨hcontrol, ?_, hslot⟩
  have hwoken : { added with exec := k'.exec }.demand = k'.exec.task_queue.items.length + added.registered := rfl
  rw [hwoken, hlength, ← hdemand, Kernel.demand]
  omega

theorem add_byte_demand (k : Kernel) (byte : UInt8) :
    { k with serial := (add_byte k.serial byte).2.2 }.demand +
      (add_byte k.serial byte).2.1.toList.length = k.demand := by
  have hwaker := Channel.add_waker k.serial byte
  have hdemand := (k.add_byte_touches byte).demand_eq
  simp only [slot, channel] at hdemand
  rw [add_byte] at hdemand ⊢
  omega

theorem add_event_demand (k : Kernel) (evt : NetworkEvent) :
    { k with net := (add_event k.net evt).2.2 }.demand + (add_event k.net evt).2.1.toList.length = k.demand := by
  have hwaker := Channel.add_waker k.net evt
  have hdemand := (k.add_event_touches evt).demand_eq
  simp only [slot, channel] at hdemand
  rw [add_event] at hdemand ⊢
  omega

theorem expire_demand {overflow_checks : Bool} {k : Kernel} {woken : List (Key × TaskWaker)} {ticks : UInt64}
    {timers : Timers TaskWaker} (h : tick overflow_checks k.ticks k.timers = ok (woken, ticks, timers)) :
    { k with ticks := ticks, timers := timers }.demand + (woken.map Prod.snd).length = k.demand := by
  obtain ⟨_, now, _, hexpired⟩ := tick_inv h
  have hsize := hexpired.size
  simp only [demand, registered, slot, channel, List.length_map] at hsize ⊢
  omega

theorem handle_inv {overflow_checks : Bool} {k k' : Kernel} {i : Interrupt}
    (h : k.handle overflow_checks i = ok k') : Handled k i k' := by
  cases i with
  | serial byte =>
    have hwake : { k with serial := (add_byte k.serial byte).2.2 }.wake_all _ = ok k' := h
    refine .of_wake hwake rfl (k.add_byte_demand byte) fun source hsource => ?_
    exact (k.add_byte_touches byte).slot fun heq => hsource (by rw [heq]; rfl)
  | network evt =>
    have hwake : { k with net := (add_event k.net evt).2.2 }.wake_all _ = ok k' := h
    refine .of_wake hwake rfl (k.add_event_demand evt) fun source hsource => ?_
    exact (k.add_event_touches evt).slot fun heq => hsource (by rw [heq]; rfl)
  | timer =>
    rw [handle, bind_eq_ok_iff] at h
    obtain ⟨⟨woken, ticks, timers⟩, htick, hwake⟩ := h
    refine .of_wake hwake rfl (expire_demand htick) fun source _ => ?_
    cases source <;> rfl

/-- A handler finds room in the queue for everything that is registered. -/
theorem handle_not_full {overflow_checks : Bool} {k : Kernel} (h : k.demand ≤ 100) (i : Interrupt) :
    k.handle overflow_checks i ≠ fail (.expect "task_queue full") := by
  have hroom : ∀ {added : Kernel} {wakers : List TaskWaker}, added.demand + wakers.length = k.demand →
      added.wake_all wakers ≠ fail (.expect "task_queue full") := by
    intro added wakers hdemand hfail
    rw [demand] at hdemand
    obtain ⟨k', hwake⟩ :=
      wake_all_returns (show added.exec.task_queue.items.length + wakers.length ≤ 100 by omega)
    cases hwake.symm.trans hfail
  cases i with
  | serial byte => exact hroom (k.add_byte_demand byte)
  | network evt => exact hroom (k.add_event_demand evt)
  | timer =>
    intro hfail
    rw [handle] at hfail
    rcases tick_outcome overflow_checks k.ticks k.timers with ⟨result, htick⟩ | htick
    · rw [htick, bind_tc_ok] at hfail
      exact hroom (expire_demand htick) hfail
    · rw [htick] at hfail
      cases hfail

end Kernel

/-- The task of a stream is between `register` and the end of a `poll_next`. -/
def Kernel.Exposed (self : Kernel) (source : Source) : Prop :=
  ∃ id waker phase, self.control = .polling id waker phase ∧ phase.exposed = true ∧ role id = .stream source

/-- The queue has room for every waker that is registered, and for that of the
task being polled. When that task has been woken since it registered its waker,
there is room for one more. -/
structure Bounded (k : Kernel) : Prop where
  load_le : k.load ≤ 100
  window : ∀ source, k.Exposed source → k.slot source = none → k.load ≤ 99

/-- What the queue needs of an interrupt that would wake the task being polled:
between `register` and the second `pop` of its `poll_next`, or the `take` after a
second `pop` that has found an item. -/
def Paced (k : Kernel) (i : Interrupt) : Prop :=
  ∀ source, k.Exposed source → i.source = some source → k.slot source ≠ none → k.demand ≤ 99

/-- A step of the kernel at which an interrupt, if it is one, is paced. -/
def PacedStep (overflow_checks : Bool) (k k' : Kernel) : Prop :=
  ∃ label, Step overflow_checks k label k' ∧ ∀ i, label = some i → Paced k i

theorem Bounded.of_le {k k' : Kernel} (h : Bounded k) (hload : k'.load ≤ k.load)
    (hcontrol : ∀ id waker phase, k'.control = .polling id waker phase → phase.exposed = false) :
    Bounded k' := by
  refine ⟨hload.trans h.load_le, ?_⟩
  rintro _ ⟨id, waker, phase, hpolling, hexposed, _⟩
  cases hexposed.symm.trans (hcontrol id waker phase hpolling)

/-- A step that only moves the program counter. -/
theorem Bounded.move {k : Kernel} (h : Bounded k) {control : Control} {interrupts : Bool}
    (hunregistered : control.unregistered ≤ k.control.unregistered)
    (hcontrol : ∀ id waker phase, control ≠ .polling id waker phase) :
    Bounded { k with control := control, interrupts := interrupts } :=
  h.of_le (Nat.add_le_add_left hunregistered k.demand) fun id waker phase hpolling =>
    absurd hpolling (hcontrol id waker phase)

/-- A step of `poll_next` outside of the window. -/
theorem Bounded.poll {k k' : Kernel} (h : Bounded k) {id : TaskId} {waker : TaskWaker} {phase : Phase}
    (hexposed : phase.exposed = false)
    (hload : k'.demand + (Control.polling id waker phase).unregistered ≤ k.load) :
    Bounded { k' with control := .polling id waker phase } := by
  refine h.of_le hload fun id' waker' phase' hpolling => ?_
  obtain ⟨_, _, rfl⟩ := Control.polling.inj hpolling
  exact hexposed

theorem Bounded.register {k k' : Kernel} (h : Bounded k) {id : TaskId} {waker : TaskWaker} {source : Source}
    (hcontrol : k.control = .polling id waker .missed) (hrole : role id = .stream source)
    (hcall : k.register source waker = ok ((), k')) :
    Bounded { k' with control := .polling id waker .registered } := by
  have hslot := Kernel.register_slot hcall
  have hdemand := (Kernel.register_inv hcall).2.demand_eq
  have hload := h.load_le
  rw [hslot, Option.toList_some, List.length_singleton] at hdemand
  rw [Kernel.load, hcontrol] at hload
  refine ⟨?_, ?_⟩
  · change k'.demand + 0 ≤ 100
    change k.demand + 1 ≤ 100 at hload
    omega
  · rintro other ⟨_, _, _, hpolling, _, hother⟩ hnone
    obtain ⟨rfl, _⟩ := Control.polling.inj hpolling
    obtain rfl := Role.stream.inj (hrole.symm.trans hother)
    cases hslot.symm.trans hnone

/-- The second `pop` leaves the waker alone; the window closes if it finds
nothing. -/
theorem Bounded.secondPop {k k' : Kernel} (h : Bounded k) {id : TaskId} {waker : TaskWaker} {source : Source}
    {found : Bool} (hcontrol : k.control = .polling id waker .registered) (hrole : role id = .stream source)
    (hcall : k.pop source = ok (found, k')) :
    Bounded { k' with control := .polling id waker (if found then .taking else .pended) } := by
  have hslot := Kernel.pop_slot hcall
  have hdemand := (Kernel.pop_inv hcall).2.demand_le hslot
  have hload : k.load = k.demand := by rw [Kernel.load, hcontrol]; rfl
  cases found with
  | false => exact h.poll rfl (hdemand.trans_eq hload.symm)
  | true =>
    refine ⟨(hdemand.trans_eq hload.symm).trans h.load_le, ?_⟩
    rintro other ⟨_, _, _, hpolling, _, hother⟩ hnone
    obtain ⟨rfl, _⟩ := Control.polling.inj hpolling
    obtain rfl := Role.stream.inj (hrole.symm.trans hother)
    have hwindow := h.window source ⟨_, _, _, hcontrol, rfl, hrole⟩ (hslot.symm.trans hnone)
    exact (hdemand.trans_eq hload.symm).trans hwindow

/-- `take` gives up the place of the waker for that of the task, which goes on. -/
theorem Bounded.take {k k' : Kernel} (h : Bounded k) {id : TaskId} {waker : TaskWaker} {source : Source}
    (hcontrol : k.control = .polling id waker .taking) (hrole : role id = .stream source)
    (hcall : k.take source = ok ((), k')) : Bounded { k' with control := .polling id waker .next } := by
  have hdemand := (Kernel.take_inv hcall).2.demand_eq
  have hload := h.load_le
  have hwindow := h.window source ⟨_, _, _, hcontrol, rfl, hrole⟩
  rw [Kernel.take_slot hcall, Option.toList_none, List.length_nil] at hdemand
  rw [Kernel.load, hcontrol] at hload hwindow
  change k.demand + 0 ≤ 100 at hload
  refine ⟨?_, ?_⟩
  · change k'.demand + 1 ≤ 100
    cases hwaker : k.slot source with
    | none =>
      have hroom : k.demand + 0 ≤ 99 := hwindow hwaker
      omega
    | some registered =>
      rw [hwaker, Option.toList_some, List.length_singleton] at hdemand
      omega
  · rintro _ ⟨_, _, _, hpolling, hexposed, _⟩
    obtain ⟨_, _, rfl⟩ := Control.polling.inj hpolling
    cases hexposed

theorem Bounded.interrupt {overflow_checks : Bool} {k k' : Kernel} (h : Bounded k) {i : Interrupt}
    (hpaced : Paced k i) (hcall : k.handle overflow_checks i = ok k') :
    Bounded { k' with control := if k.control = .halted then .ready else k.control } := by
  have hhandled := Kernel.handle_inv hcall
  have hload :
      Kernel.load { k' with control := if k.control = .halted then .ready else k.control } = k.load := by
    change k'.demand + Control.unregistered _ = _
    rw [hhandled.demand, Kernel.load]
    split
    case isTrue hhalted => rw [hhalted]; rfl
    case isFalse => rfl
  refine ⟨hload.trans_le h.load_le, ?_⟩
  rintro source ⟨id, waker, phase, hcontrol, hexposed, hrole⟩ hnone
  have hpolling : k.control = .polling id waker phase := by
    change (if k.control = .halted then Control.ready else k.control) = _ at hcontrol
    split at hcontrol
    case isTrue => cases hcontrol
    case isFalse => exact hcontrol
  have hwindow : k.Exposed source := ⟨id, waker, phase, hpolling, hexposed, hrole⟩
  rw [hload]
  by_cases hempty : k.slot source = none
  · exact h.window source hwindow hempty
  · by_cases hsource : i.source = some source
    · have hdemand := hpaced source hwindow hsource hempty
      have hzero : k.load = k.demand := by
        rw [Kernel.load, hpolling]
        cases phase <;> first | rfl | cases hexposed
      omega
    · exact absurd ((hhandled.slot source hsource).symm.trans hnone) hempty

theorem Bounded.step {overflow_checks : Bool} {k k' : Kernel} (h : Bounded k)
    (hstep : PacedStep overflow_checks k k') : Bounded k' := by
  obtain ⟨label, hstep, hpaced⟩ := hstep
  cases hstep with
  | @pop id exec hcontrol hcall =>
    refine h.of_le ?_ (by simp)
    obtain ⟨_, _, hitems⟩ := Executor.pop_some_inv hcall
    simp only [Kernel.load, Kernel.demand, Kernel.registered, Kernel.slot, Kernel.channel, hcontrol,
      Control.unregistered, hitems, List.length_cons]
    omega
  | drain hcontrol hcall =>
    obtain ⟨rfl, _⟩ := Executor.pop_none_inv hcall
    exact h.move (by simp [Control.unregistered]) (by simp)
  | discard hcontrol hcall => exact h.move (by simp [Control.unregistered]) (by simp)
  | beginPoll hcontrol hcall =>
    refine @Bounded.poll k { k with exec := _ } h _ _ _ rfl ?_
    obtain ⟨_, _, hqueue, _⟩ := Executor.begin_poll_inv hcall
    simp only [Kernel.load, Kernel.demand, Kernel.registered, Kernel.slot, Kernel.channel, hcontrol,
      Control.unregistered, hqueue]
    omega
  | construct hcontrol hrole hcall =>
    obtain ⟨hinit, htouches⟩ := Kernel.init_inv hcall
    have hdemand := htouches.demand_le (Channel.init_waker hinit)
    refine h.of_le ?_ ?_
    · rw [Kernel.load, Kernel.load, htouches.control]
      omega
    · rw [htouches.control, hcontrol]
      rintro _ _ _ ⟨⟩
      rfl
  | @firstPop popped id waker source found hcontrol hrole hcall =>
    have hdemand := (Kernel.pop_inv hcall).2.demand_le (Kernel.pop_slot hcall)
    have hload : k.load = k.demand + 1 := by rw [Kernel.load, hcontrol]; rfl
    cases found with
    | false => exact h.poll rfl (hload ▸ Nat.add_le_add_right hdemand 1)
    | true => exact h.poll rfl (hload ▸ Nat.add_le_add_right hdemand 1)
  | register hcontrol hrole hcall => exact h.register hcontrol hrole hcall
  | secondPop hcontrol hrole hcall => exact h.secondPop hcontrol hrole hcall
  | take hcontrol hrole hcall => exact h.take hcontrol hrole hcall
  | newSleeper hcontrol hrole hnone hcall =>
    refine h.of_le (Nat.le_refl _) ?_
    rw [hcontrol]
    rintro _ _ _ ⟨⟩
    rfl
  | @sleeperReady _ _ task timers hcontrol hrole hsome hcall =>
    refine h.of_le ?_ (by rw [hcontrol]; rintro _ _ _ ⟨⟩; rfl)
    obtain ⟨_, _, ⟨_, _, rfl⟩ | ⟨hpending, _⟩⟩ := poll_inv hcall
    · have hsize : (task.drop (k.timers.erase task.key)).size ≤ k.timers.size :=
        Std.TreeMap.size_erase_le.trans Std.TreeMap.size_erase_le
      simp only [Kernel.load, Kernel.demand, Kernel.registered, Kernel.slot, Kernel.channel]
      omega
    · cases hpending
  | @sleeperPending _ waker task timers hcontrol hrole hsome hcall =>
    refine @Bounded.poll k { k with timers := timers } h _ _ _ rfl ?_
    obtain ⟨_, _, ⟨hready, _⟩ | ⟨_, _, rfl⟩⟩ := poll_inv hcall
    · cases hready
    · have hsize : (k.timers.insert task.key waker).size ≤ k.timers.size + 1 := Std.TreeMap.size_insert_le
      simp only [Kernel.load, Kernel.demand, Kernel.registered, Kernel.slot, Kernel.channel, hcontrol,
        Control.unregistered]
      omega
  | suspend hcontrol => exact h.move (by simp [Control.unregistered]) (by simp)
  | disable hcontrol => exact h.move (by simp [Control.unregistered]) (by simp)
  | check hcontrol =>
    refine h.move ?_ ?_
    · split <;> simp [Control.unregistered]
    · split <;> simp
  | halt hcontrol => exact h.move (by simp [Control.unregistered]) (by simp)
  | enable hcontrol => exact h.move (by simp [Control.unregistered]) (by simp)
  | interrupt i hinterrupts hcall => exact h.interrupt (hpaced i rfl) hcall

theorem kernel_main_queue {exec : Executor} (h : kernel_main = ok exec) : exec.task_queue.items = [0, 1, 2] := by
  rw [kernel_main, bind_eq_ok_iff] at h
  obtain ⟨first, hfirst, h⟩ := h
  rw [bind_eq_ok_iff] at h
  obtain ⟨second, hsecond, hthird⟩ := h
  rw [(Executor.spawn_inv hthird).2.2, (Executor.spawn_inv hsecond).2.2, (Executor.spawn_inv hfirst).2.2]
  rfl

theorem Bounded.boot {exec : Executor} (h : kernel_main = ok exec) : Bounded (.boot exec) := by
  refine ⟨?_, by simp [Kernel.boot, Kernel.Exposed]⟩
  change exec.task_queue.items.length + 0 + 0 ≤ 100
  rw [kernel_main_queue h]
  decide

theorem Step.paced {overflow_checks : Bool} {k k' : Kernel} (h : Step overflow_checks k none k') :
    PacedStep overflow_checks k k' := ⟨none, h, by simp⟩

/-- The serial task in a poll, with the executor and the stream as given. -/
def Kernel.reading (exec : Executor) (serial : SerialStream TaskWaker) (phase : Phase) : Kernel :=
  { Kernel.boot exec with serial := serial, control := .polling 0 ⟨0⟩ phase }

/-- The serial stream with no byte queued. -/
def quiet (waker : Option TaskWaker) : SerialStream TaskWaker := ⟨some (ArrayQueue.new UInt8 100), waker⟩

/-- The serial task finds no byte and registers its waker. -/
theorem reaches_registered (overflow_checks : Bool) (exec : Executor) :
    Relation.ReflTransGen (PacedStep overflow_checks) (.reading exec (quiet none) .next)
      (.reading exec (quiet (some ⟨0⟩)) .registered) := by
  have hpop : (Kernel.reading exec (quiet none) .next).pop .serial =
      ok (false, .reading exec (quiet none) .next) := rfl
  have hregister : (Kernel.reading exec (quiet none) .missed).register .serial ⟨0⟩ =
      ok ((), .reading exec (quiet (some ⟨0⟩)) .missed) := rfl
  have hmissed : Step overflow_checks (.reading exec (quiet none) .next) none _ := .firstPop rfl rfl hpop
  have hregistered : Step overflow_checks (.reading exec (quiet none) .missed) none _ :=
    .register rfl rfl hregister
  exact (Relation.ReflTransGen.single hmissed.paced).tail hregistered.paced

/-- The serial stream with one byte queued. -/
def oneByte (waker : Option TaskWaker) : SerialStream TaskWaker := ⟨some ⟨[97], by decide⟩, waker⟩

/-- A byte that arrives now wakes the serial task. -/
theorem handle_registered (overflow_checks : Bool) (exec : Executor) :
    (Kernel.reading exec (quiet (some ⟨0⟩)) .registered).handle overflow_checks (.serial 97) =
      exec.wake_all [0] >>= fun exec => ok (.reading exec (oneByte none) .registered) := rfl

/-- The executor that `kernel_main` runs. -/
def spawned : Executor where
  tasks := (((∅ : Std.TreeMap TaskId Task).insert 0 ⟨0⟩).insert 1 ⟨1⟩).insert 2 ⟨2⟩
  task_queue := ⟨[0, 1, 2], by decide⟩
  waker_cache := ∅

theorem kernel_main_eq : kernel_main = ok spawned := rfl

/-- The executor when it polls the serial task for the first time. -/
def serving : Executor where
  tasks := spawned.tasks
  task_queue := ⟨[1, 2], by decide⟩
  waker_cache := (∅ : Std.TreeMap TaskId TaskWaker).insert 0 ⟨0⟩

theorem reaches_reading (overflow_checks : Bool) :
    Relation.ReflTransGen (PacedStep overflow_checks) (.boot spawned) (.reading serving (quiet none) .next) := by
  let popped : Executor := ⟨spawned.tasks, ⟨[1, 2], by decide⟩, ∅⟩
  have hbegin : popped.begin_poll 0 = some (⟨0⟩, serving) := rfl
  have hinit : (Kernel.reading serving .uninit .next).init .serial =
      ok ((), .reading serving (quiet none) .next) := rfl
  have hpop : Step overflow_checks (.boot spawned) none _ := .pop rfl rfl
  have hbegun : Step overflow_checks { Kernel.boot popped with control := .popped 0 } none _ :=
    .beginPoll rfl hbegin
  have hconstructed : Step overflow_checks (.reading serving .uninit .next) none _ := .construct rfl rfl hinit
  exact ((Relation.ReflTransGen.single hpop.paced).tail hbegun.paced).tail hconstructed.paced

/-- As long as the interrupts are paced, no handler finds the queue full. -/
theorem task_queue_not_full {overflow_checks : Bool} {exec : Executor} (hmain : kernel_main = ok exec)
    {k : Kernel} (hrun : Relation.ReflTransGen (PacedStep overflow_checks) (.boot exec) k) (i : Interrupt) :
    k.handle overflow_checks i ≠ fail (.expect "task_queue full") := by
  have hbounded := reaches_invariant Bounded (fun _ _ => Bounded.step) hrun (.boot hmain)
  exact Kernel.handle_not_full ((Nat.le_add_right _ _).trans hbounded.load_le) i

/-- The executor after a byte has woken the serial task in its first poll. -/
def woken : Executor := { serving with task_queue := ⟨[1, 2, 0], by decide⟩ }

/-- Two bytes arrive in the first poll of the serial task: one before it
registers its waker, and one, which wakes it, between its second `pop` and `take`.
No interrupt then finds the queue full. -/
theorem task_queue_not_full_woken :
    ∃ k : Kernel, Relation.ReflTransGen (PacedStep true) (.boot spawned) k ∧
      k.control = .polling 0 ⟨0⟩ .taking ∧ k.exec.task_queue.items = [1, 2, 0] ∧
      ∀ i, k.handle true i ≠ fail (.expect "task_queue full") := by
  have hmissed : Step true (.reading serving (quiet none) .next) none (.reading serving (quiet none) .missed) :=
    .firstPop rfl rfl (show (Kernel.reading serving (quiet none) .next).pop .serial =
      ok (false, .reading serving (quiet none) .next) from rfl)
  have hadded : (Kernel.reading serving (quiet none) .missed).handle true (.serial 97) =
      ok (.reading serving (oneByte none) .missed) := rfl
  have hfirst : PacedStep true (.reading serving (quiet none) .missed) _ :=
    ⟨_, .interrupt (.serial 97) rfl hadded, fun _ _ _ _ _ _ => by decide⟩
  have hregistered : Step true (.reading serving (oneByte none) .missed) none
      (.reading serving (oneByte (some ⟨0⟩)) .registered) :=
    .register rfl rfl (show (Kernel.reading serving (oneByte none) .missed).register .serial ⟨0⟩ =
      ok ((), .reading serving (oneByte (some ⟨0⟩)) .missed) from rfl)
  have hfound : Step true (.reading serving (oneByte (some ⟨0⟩)) .registered) none
      (.reading serving (quiet (some ⟨0⟩)) .taking) :=
    .secondPop rfl rfl (show (Kernel.reading serving (oneByte (some ⟨0⟩)) .registered).pop .serial =
      ok (true, .reading serving (quiet (some ⟨0⟩)) .registered) from rfl)
  have hwoken : (Kernel.reading serving (quiet (some ⟨0⟩)) .taking).handle true (.serial 97) =
      ok (.reading woken (oneByte none) .taking) := rfl
  have hsecond : PacedStep true (.reading serving (quiet (some ⟨0⟩)) .taking) _ :=
    ⟨_, .interrupt (.serial 97) rfl hwoken, fun _ _ _ _ _ _ => by decide⟩
  have hrun := (((((reaches_reading true).tail hmissed.paced).tail hfirst).tail hregistered.paced).tail
    hfound.paced).tail hsecond
  exact ⟨_, hrun, rfl, rfl, task_queue_not_full kernel_main_eq hrun⟩

/-- Any step of the kernel. -/
def AnyStep (overflow_checks : Bool) (k k' : Kernel) : Prop := ∃ label, Step overflow_checks k label k'

theorem PacedStep.any {overflow_checks : Bool} {k k' : Kernel} (h : PacedStep overflow_checks k k') :
    AnyStep overflow_checks k k' := by
  obtain ⟨label, hstep, _⟩ := h
  exact ⟨label, hstep⟩

/-- It then goes on to read the byte: its id is queued although it is being
polled. -/
theorem reaches_requeued (overflow_checks : Bool) {exec : Executor}
    (hroom : exec.task_queue.items.length < 100) :
    ∃ exec', exec'.task_queue.items.length = exec.task_queue.items.length + 1 ∧
      Relation.ReflTransGen (AnyStep overflow_checks) (.reading exec (quiet none) .next)
        (.reading exec' (quiet none) .next) := by
  have hlength : exec.task_queue.items.length + [(0 : TaskId)].length ≤ 100 := hroom
  obtain ⟨exec', hwake⟩ := Executor.wake_all_returns hlength
  have hhandle := handle_registered overflow_checks exec
  rw [hwake, bind_tc_ok] at hhandle
  have hpop : (Kernel.reading exec' (oneByte none) .registered).pop .serial =
      ok (true, .reading exec' (quiet none) .registered) := rfl
  have htake : (Kernel.reading exec' (quiet none) .taking).take .serial =
      ok ((), .reading exec' (quiet none) .taking) := rfl
  have hinterrupt : Step overflow_checks (.reading exec (quiet (some ⟨0⟩)) .registered) _ _ :=
    .interrupt (.serial 97) rfl hhandle
  have hread : Step overflow_checks (.reading exec' (oneByte none) .registered) none _ := .secondPop rfl rfl hpop
  have htaken : Step overflow_checks (.reading exec' (quiet none) .taking) none _ := .take rfl rfl htake
  have hregistered := Relation.ReflTransGen.mono (fun _ _ => PacedStep.any) _ _
    (reaches_registered overflow_checks exec)
  refine ⟨exec', ?_, ((hregistered.tail ⟨_, hinterrupt⟩).tail ⟨none, hread⟩).tail ⟨none, htaken⟩⟩
  rw [(Executor.wake_all_inv hwake).2.2, List.length_append, List.length_singleton]

theorem reaches_flooded (overflow_checks : Bool) {exec : Executor} (n : Nat)
    (hroom : exec.task_queue.items.length + n ≤ 100) :
    ∃ exec', exec'.task_queue.items.length = exec.task_queue.items.length + n ∧
      Relation.ReflTransGen (AnyStep overflow_checks) (.reading exec (quiet none) .next)
        (.reading exec' (quiet none) .next) := by
  induction n with
  | zero => exact ⟨exec, rfl, .refl⟩
  | succ n ih =>
    obtain ⟨before, hlength, hrun⟩ := ih (by omega)
    obtain ⟨after, hone, hnext⟩ := reaches_requeued overflow_checks
      (show before.task_queue.items.length < 100 by omega)
    exact ⟨after, by omega, hrun.trans hnext⟩

/-- Bytes that arrive just after the serial task has registered its waker fill
the queue with its id, and the next one is a panic in the handler. -/
theorem serial_bytes_flood_task_queue :
    ∃ exec k, kernel_main = ok exec ∧ Relation.ReflTransGen (AnyStep true) (.boot exec) k ∧ k.interrupts = true ∧
      k.handle true (.serial 97) = fail (.expect "task_queue full") := by
  obtain ⟨exec, hlength, hflood⟩ :=
    reaches_flooded true 98 (show serving.task_queue.items.length + 98 ≤ 100 by decide)
  have hstart := Relation.ReflTransGen.mono (fun _ _ => PacedStep.any) _ _ (reaches_reading true)
  have hregistered := Relation.ReflTransGen.mono (fun _ _ => PacedStep.any) _ _ (reaches_registered true exec)
  have hrun := (hstart.trans hflood).trans hregistered
  refine ⟨spawned, _, kernel_main_eq, hrun, rfl, ?_⟩
  rw [handle_registered, Executor.wake_all_full hlength]
  rfl

end conc_os.main
