import ConcOs.Kernel.Executor.Wakeup
import ConcOs.Kernel.Stream.Delivery
import ConcOs.Kernel.Main.Flood

open rust Result
open conc_os.time conc_os.task conc_os.task.executor conc_os.task.network conc_os.task.serial conc_os.task.time
open conc_os.task.stream (Channel Added Session)

namespace conc_os.main

/-- The executor's program counter, without that of the task it polls. -/
def Control.erase : Control → task.executor.Control
  | .ready => .ready
  | .popped id => .popped id
  | .polling id _ _ => .polling id
  | .idle => .idle
  | .checking => .checking
  | .halting => .halting
  | .resuming => .resuming
  | .halted => .halted

/-- A stream as its task sees it in a phase of `poll_next`. The call is over when it
has found an item, and the waker is then as good as taken back. -/
def Phase.session {α : Type} (channel : Channel α TaskWaker) (waker : TaskWaker) :
    Phase → Session α TaskWaker
  | .missed => ⟨channel, .missed waker⟩
  | .registered => ⟨channel, .registered waker⟩
  | .taking => ⟨channel.take, .idle⟩
  | .next | .pended => ⟨channel, .idle⟩

namespace Kernel

/-- The executor of the kernel. -/
def machine (self : Kernel) : Machine := ⟨self.exec, self.control.erase, self.interrupts⟩

/-- A stream of the kernel. -/
def session (self : Kernel) (source : Source) : Session source.Item TaskWaker :=
  match self.control with
  | .polling id waker phase =>
    if role id = .stream source then phase.session (self.channel source) waker
    else ⟨self.channel source, .idle⟩
  | _ => ⟨self.channel source, .idle⟩

theorem session_polling {k : Kernel} {id : TaskId} {waker : TaskWaker} {phase : Phase} {source : Source}
    (hcontrol : k.control = .polling id waker phase) (hrole : role id = .stream source) :
    k.session source = phase.session (k.channel source) waker := by
  simp only [session, hcontrol, if_pos hrole]

/-- The task of a stream is not in a call of `poll_next`. -/
def Rests (self : Kernel) (source : Source) : Prop :=
  ∀ id waker phase, self.control = .polling id waker phase → role id = .stream source →
    phase = .next ∨ phase = .pended

theorem Rests.session {k : Kernel} {source : Source} (h : k.Rests source) :
    k.session source = ⟨k.channel source, .idle⟩ := by
  unfold Kernel.session
  split
  case h_1 id waker phase hcontrol =>
    by_cases hrole : role id = .stream source
    · rw [if_pos hrole]
      rcases h id waker phase hcontrol hrole with rfl | rfl <;> rfl
    · rw [if_neg hrole]
  case h_2 => rfl

theorem handle_exec {overflow_checks : Bool} {k k' : Kernel} {i : Interrupt}
    (h : k.handle overflow_checks i = ok k') :
    (∃ ids, k.exec.wake_all ids = ok k'.exec) ∧ k'.control = k.control ∧ k'.interrupts = k.interrupts := by
  cases i with
  | serial byte | network evt =>
    obtain ⟨exec, hexec, rfl⟩ := wake_all_eq h
    exact ⟨⟨_, hexec⟩, rfl, rfl⟩
  | timer =>
    obtain ⟨_, _, hcall⟩ := bind_eq_ok_iff.mp h
    obtain ⟨exec, hexec, rfl⟩ := wake_all_eq hcall
    exact ⟨⟨_, hexec⟩, rfl, rfl⟩

/-- A handler produces an item of a stream, or leaves the stream alone. -/
theorem handle_channel {overflow_checks : Bool} {k k' : Kernel} {i : Interrupt}
    (h : k.handle overflow_checks i = ok k') (source : Source) :
    k'.channel source = k.channel source ∨ ∃ item, k'.channel source = ((k.channel source).add item).2.2 := by
  cases i with
  | serial byte =>
    obtain ⟨exec, _, rfl⟩ := wake_all_eq h
    cases source with
    | serial => exact Or.inr ⟨byte, rfl⟩
    | network => exact Or.inl rfl
  | network evt =>
    obtain ⟨exec, _, rfl⟩ := wake_all_eq h
    cases source with
    | serial => exact Or.inl rfl
    | network => exact Or.inr ⟨evt, rfl⟩
  | timer =>
    obtain ⟨_, _, hcall⟩ := bind_eq_ok_iff.mp h
    obtain ⟨exec, _, rfl⟩ := wake_all_eq hcall
    cases source <;> exact Or.inl rfl

end Kernel

/-- Every step of the kernel is one of its executor, or is taken by the task that
is being polled. -/
theorem Step.executor {overflow_checks : Bool} {k k' : Kernel} {label : Option Interrupt}
    (h : Step overflow_checks k label k') :
    k'.machine = k.machine ∨ ∃ action, task.executor.Step k.machine action k'.machine := by
  -- a step of `poll_next`
  have hpolling : ∀ {source id waker phase phase'} {after : Kernel}, k.Touches source after →
      k.control = .polling id waker phase →
      Kernel.machine { after with control := .polling id waker phase' } = k.machine := by
    intro source id waker phase phase' after htouches hcontrol
    simp only [Kernel.machine, htouches.exec, htouches.interrupts, hcontrol, Control.erase]
  cases h with
  | pop hcontrol hcall => exact Or.inr ⟨_, .pop (congrArg Control.erase hcontrol) hcall⟩
  | drain hcontrol hcall => exact Or.inr ⟨_, .drain (congrArg Control.erase hcontrol) hcall⟩
  | discard hcontrol hcall => exact Or.inr ⟨_, .discard (congrArg Control.erase hcontrol) hcall⟩
  | beginPoll hcontrol hcall => exact Or.inr ⟨_, .beginPoll (congrArg Control.erase hcontrol) hcall⟩
  | construct hcontrol hrole hcall =>
    have htouches := (Kernel.init_inv hcall).2
    exact Or.inl (by rw [Kernel.machine, Kernel.machine, htouches.exec, htouches.interrupts, htouches.control])
  | firstPop hcontrol hrole hcall | secondPop hcontrol hrole hcall =>
    exact Or.inl (hpolling (Kernel.pop_inv hcall).2 hcontrol)
  | register hcontrol hrole hcall => exact Or.inl (hpolling (Kernel.register_inv hcall).2 hcontrol)
  | take hcontrol hrole hcall => exact Or.inl (hpolling (Kernel.take_inv hcall).2 hcontrol)
  | newSleeper hcontrol | sleeperReady hcontrol => exact Or.inl rfl
  | sleeperPending hcontrol => exact Or.inl (by rw [Kernel.machine, Kernel.machine, hcontrol]; rfl)
  | suspend hcontrol => exact Or.inr ⟨_, .pollPending (congrArg Control.erase hcontrol)⟩
  | disable hcontrol => exact Or.inr ⟨_, .disable (congrArg Control.erase hcontrol)⟩
  | check hcontrol =>
    refine Or.inr ⟨.checked k.exec.task_queue.is_empty, ?_⟩
    simp only [Kernel.machine, apply_ite Control.erase]
    exact .check (congrArg Control.erase hcontrol)
  | halt hcontrol => exact Or.inr ⟨_, .halt (congrArg Control.erase hcontrol)⟩
  | enable hcontrol => exact Or.inr ⟨_, .enable (congrArg Control.erase hcontrol)⟩
  | interrupt i hinterrupts hcall =>
    obtain ⟨⟨ids, hwake⟩, hcontrol, hsame⟩ := Kernel.handle_exec hcall
    have hhalted : k.control.erase = .halted ↔ k.control = .halted := by
      cases k.control <;> simp [Control.erase]
    refine Or.inr ⟨.interrupted ids, ?_⟩
    simp only [Kernel.machine, apply_ite Control.erase, hsame, ← hhalted]
    exact .interrupt hinterrupts hwake

/-- A step between two calls of `poll_next`. -/
theorem Kernel.Rests.unchanged {k k' : Kernel} {source : Source} (h : k.Rests source) (hafter : k'.Rests source)
    (hchannel : k'.channel source = k.channel source) : k'.session source = k.session source := by
  rw [h.session, hafter.session, hchannel]

/-- A step of `poll_next` of the task of another stream. -/
theorem Kernel.session_other {k k' : Kernel} {id : TaskId} {waker : TaskWaker} {phase phase' : Phase}
    {source other : Source} (htouches : k.Touches other k') (hcontrol : k.control = .polling id waker phase)
    (hrole : role id = .stream other) (hother : other ≠ source) :
    Kernel.session { k' with control := .polling id waker phase' } source = k.session source := by
  have hnot : role id ≠ .stream source := fun heq => hother (Role.stream.inj (hrole.symm.trans heq))
  refine Rests.unchanged (fun _ _ _ hpolling hsource => ?_) (fun _ _ _ hpolling hsource => ?_)
    (htouches.other source hother.symm)
  · obtain ⟨rfl, _⟩ := Control.polling.inj (hcontrol.symm.trans hpolling)
    exact absurd hsource hnot
  · obtain ⟨rfl, _⟩ := Control.polling.inj hpolling
    exact absurd hsource hnot

/-- A producer that comes between two steps of the task. -/
theorem Phase.session_add {α : Type} (channel : Channel α TaskWaker) (waker : TaskWaker) (phase : Phase)
    (item : α) :
    ∃ action, task.stream.Step (phase.session channel waker) action
      (phase.session (channel.add item).2.2 waker) := by
  cases phase with
  | taking =>
    refine ⟨.produced item (channel.take.add item).1 (channel.take.add item).2.1, ?_⟩
    simp only [session, ← Channel.add_take]
    exact .add rfl
  | _ => exact ⟨_, .add (s := ⟨channel, _⟩) rfl⟩

/-- A step of `poll_next` of a stream is one of that stream, and none of another. -/
theorem Kernel.session_poll {k k' : Kernel} {id : TaskId} {waker : TaskWaker} {phase phase' : Phase}
    {other : Source} (htouches : k.Touches other k') (hcontrol : k.control = .polling id waker phase)
    (hrole : role id = .stream other)
    (hown : phase'.session (k'.channel other) waker = phase.session (k.channel other) waker ∨
      ∃ action, task.stream.Step (phase.session (k.channel other) waker) action
        (phase'.session (k'.channel other) waker)) (source : Source) :
    Kernel.session { k' with control := .polling id waker phase' } source = k.session source ∨
      ∃ action, task.stream.Step (k.session source) action
        (Kernel.session { k' with control := .polling id waker phase' } source) := by
  by_cases hother : other = source
  · subst hother
    rw [session_polling hcontrol hrole, session_polling rfl hrole]
    exact hown
  · exact Or.inl (session_other htouches hcontrol hrole hother)

/-- An interrupt is a step of the producer of a stream, or none of the stream. -/
theorem Kernel.session_interrupt {overflow_checks : Bool} {k handled : Kernel} {i : Interrupt}
    (hcall : k.handle overflow_checks i = ok handled) (source : Source) :
    Kernel.session { handled with control := if k.control = .halted then .ready else k.control } source =
        k.session source ∨
      ∃ action, task.stream.Step (k.session source) action (Kernel.session
        { handled with control := if k.control = .halted then .ready else k.control } source) := by
  have hchannel := handle_channel hcall source
  by_cases hpolled : ∃ id waker phase, k.control = .polling id waker phase ∧ role id = .stream source
  · obtain ⟨id, waker, phase, hcontrol, hrole⟩ := hpolled
    have hafter : Kernel.session { handled with control := k.control } source =
        phase.session (handled.channel source) waker := session_polling hcontrol hrole
    rw [if_neg (by simp [hcontrol]), session_polling hcontrol hrole, hafter]
    rcases hchannel with hsame | ⟨item, hadded⟩
    · exact Or.inl (congrArg (fun channel => phase.session channel waker) hsame)
    · obtain ⟨action, hstep⟩ := Phase.session_add (k.channel source) waker phase item
      rw [← hadded] at hstep
      exact Or.inr ⟨action, hstep⟩
  · have hbefore : k.Rests source := fun id waker phase hcontrol hrole =>
      absurd ⟨id, waker, phase, hcontrol, hrole⟩ hpolled
    have hafter : Rests
        { handled with control := if k.control = .halted then .ready else k.control } source := by
      intro id waker phase hcontrol hrole
      change (if k.control = .halted then Control.ready else k.control) = _ at hcontrol
      split at hcontrol
      case isTrue => cases hcontrol
      case isFalse => exact absurd ⟨id, waker, phase, hcontrol, hrole⟩ hpolled
    rcases hchannel with hsame | ⟨item, hadded⟩
    · exact Or.inl (hbefore.unchanged hafter hsame)
    · obtain ⟨action, hstep⟩ := Phase.session_add (k.channel source) ⟨0⟩ .next item
      rw [← hadded] at hstep
      rw [hbefore.session, hafter.session]
      exact Or.inr ⟨action, hstep⟩

/-- Every step of the kernel is one of a stream, leaves it alone, or constructs it. -/
theorem Step.stream {overflow_checks : Bool} {k k' : Kernel} {label : Option Interrupt}
    (h : Step overflow_checks k label k') (source : Source) :
    k'.session source = k.session source ∨
      (∃ action, task.stream.Step (k.session source) action (k'.session source)) ∨
      k.session source = ⟨k.channel source, .idle⟩ ∧ k'.session source = ⟨k'.channel source, .idle⟩ ∧
        (k.channel source).init = ok (k'.channel source) := by
  cases h with
  | pop hcontrol | drain hcontrol | discard hcontrol | beginPoll hcontrol | newSleeper hcontrol
  | sleeperReady hcontrol | sleeperPending hcontrol | suspend hcontrol | disable hcontrol | halt hcontrol
  | enable hcontrol =>
    have hbefore : k.Rests source := by simp [Kernel.Rests, hcontrol]
    exact Or.inl (hbefore.unchanged (by simp [Kernel.Rests, hcontrol]) rfl)
  | check hcontrol =>
    refine Or.inl (Kernel.Rests.unchanged (by simp [Kernel.Rests, hcontrol]) ?_ rfl)
    simp only [Kernel.Rests]
    split <;> simp
  | @construct _ id waker other hcontrol hrole hcall =>
    obtain ⟨hinit, htouches⟩ := Kernel.init_inv hcall
    have hbefore : k.Rests source := by simp [Kernel.Rests, hcontrol]
    have hafter : k'.Rests source := by simp [Kernel.Rests, htouches.control, hcontrol]
    by_cases hother : other = source
    · subst hother
      exact Or.inr (Or.inr ⟨hbefore.session, hafter.session, hinit⟩)
    · exact Or.inl (hbefore.unchanged hafter (htouches.other source (Ne.symm hother)))
  | @firstPop popped id waker other found hcontrol hrole hcall =>
    obtain ⟨⟨item, hpop, rfl⟩, htouches⟩ := Kernel.pop_inv hcall
    refine (Kernel.session_poll htouches hcontrol hrole (Or.inr ?_) source).imp_right Or.inl
    cases item with
    | some item => exact ⟨_, .hit waker rfl hpop⟩
    | none => exact ⟨_, .miss waker rfl hpop⟩
  | @register registered id waker other hcontrol hrole hcall =>
    obtain ⟨hchannel, htouches⟩ := Kernel.register_inv hcall
    refine (Kernel.session_poll htouches hcontrol hrole (Or.inr ?_) source).imp_right Or.inl
    rw [hchannel]
    exact ⟨_, .register rfl⟩
  | @secondPop popped id waker other found hcontrol hrole hcall =>
    obtain ⟨⟨item, hpop, rfl⟩, htouches⟩ := Kernel.pop_inv hcall
    refine (Kernel.session_poll htouches hcontrol hrole (Or.inr ?_) source).imp_right Or.inl
    have hsecond : (k.channel other).second_pop =
        ok (item, if item.isSome then (popped.channel other).take else popped.channel other) := by
      rw [Channel.second_pop, hpop, bind_tc_ok]
      rfl
    cases item with
    | some item => exact ⟨_, .late rfl hsecond⟩
    | none => exact ⟨_, .pend rfl hsecond⟩
  | @take taken id waker other hcontrol hrole hcall =>
    obtain ⟨hchannel, htouches⟩ := Kernel.take_inv hcall
    -- the stream by itself has taken the waker back in the step before
    refine (Kernel.session_poll htouches hcontrol hrole (Or.inl ?_) source).imp_right Or.inl
    exact congrArg (fun channel => Session.mk channel _) hchannel
  | interrupt i hinterrupts hcall => exact (Kernel.session_interrupt hcall source).imp_right Or.inl

/-- The executor of the kernel runs as the executor does by itself. -/
theorem kernel_refines_executor {overflow_checks : Bool} {exec : Executor} (hmain : kernel_main = ok exec)
    {k : Kernel} (hrun : Relation.ReflTransGen (AnyStep overflow_checks) (.boot exec) k) :
    ∃ trace, Run task.executor.Step .boot trace k.machine := by
  refine reaches_invariant (fun k => ∃ trace, Run task.executor.Step .boot trace k.machine) ?_ hrun ?_
  · rintro k k' ⟨trace, htrace⟩ ⟨label, hstep⟩
    rcases hstep.executor with hsame | ⟨action, haction⟩
    · exact ⟨trace, hsame ▸ htrace⟩
    · exact ⟨_, htrace.snoc haction⟩
  · -- `kernel_main` spawns its tasks and starts the executor
    obtain ⟨first, hfirst, h⟩ := bind_eq_ok_iff.mp hmain
    obtain ⟨second, hsecond, hthird⟩ := bind_eq_ok_iff.mp h
    have hspawned : Run task.executor.Step .boot _ ⟨exec, .starting, true⟩ :=
      ((Run.nil.snoc (.spawn rfl hfirst)).snoc (.spawn rfl hsecond)).snoc (.spawn rfl hthird)
    exact ⟨_, hspawned.snoc (.run rfl)⟩

/-- A stream of the kernel, once its task has constructed it, runs as the stream
does by itself; an interrupt between the second `pop` and `take` only wakes the task
once more. -/
theorem kernel_refines_stream {overflow_checks : Bool} {exec : Executor} {k : Kernel}
    (hrun : Relation.ReflTransGen (AnyStep overflow_checks) (.boot exec) k) (source : Source) :
    k.session source = ⟨.uninit, .idle⟩ ∨ ∃ trace, Run task.stream.Step .new trace (k.session source) := by
  refine reaches_invariant (fun k => k.session source = ⟨.uninit, .idle⟩ ∨
    ∃ trace, Run task.stream.Step .new trace (k.session source)) ?_ hrun ?_
  · rintro k k' h ⟨label, hstep⟩
    rcases hstep.stream source with hsame | ⟨action, haction⟩ | ⟨hbefore, hafter, hinit⟩
    · rwa [hsame]
    · rcases h with huninit | ⟨trace, htrace⟩
      · -- only a producer can come before the stream is constructed
        rw [huninit] at haction
        generalize k'.session source = after at haction ⊢
        cases haction with
        | add hcall => exact Or.inl (by rw [← (Prod.mk.inj (Prod.mk.inj hcall).2).2])
        | hit _ _ hcall | miss _ _ hcall => cases hcall
        | register hcontrol | late hcontrol | pend hcontrol => cases hcontrol
      · exact Or.inr ⟨_, htrace.snoc haction⟩
    · rcases h with huninit | ⟨trace, htrace⟩
      · have hchannel : k.channel source = .uninit := congrArg Session.channel (hbefore.symm.trans huninit)
        rw [hchannel] at hinit
        right
        rw [hafter, ← ok.inj hinit]
        exact ⟨[], .nil⟩
      · have hready := (task.stream.run_consistent htrace).ready
        rw [hbefore] at hready
        obtain ⟨queue, hqueue⟩ := Option.isSome_iff_exists.mp hready
        rw [Channel.init, hqueue] at hinit
        cases hinit
  · left
    cases source <;> rfl

end conc_os.main
