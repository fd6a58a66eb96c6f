import ConcOs.Kernel.Main.Flood

open rust Result
open conc_os.time conc_os.task conc_os.task.executor conc_os.task.network conc_os.task.serial conc_os.task.time
open conc_os.task.stream (Channel Added)

namespace conc_os.main

/-- The task that has this role. -/
def Role.task : Role → TaskId
  | .stream .serial => 0
  | .stream .network => 1
  | .time => 2

@[simp] theorem role_task (self : Role) : role self.task = self := by
  rcases self with (_ | _) | _ <;> rfl

theorem spawned_live {exec : Executor} (htasks : exec.tasks = spawned.tasks) (id : TaskId) :
    exec.Live id ↔ id = (role id).task := by
  rw [Executor.Live, htasks, spawned, BTreeMap.getElem?_insert, BTreeMap.getElem?_insert,
    BTreeMap.getElem?_insert, role]
  grind [Role.task]

/-- What the tasks can tell of a stream: whether it has been constructed, how many
items are queued, and which waker is registered. -/
structure View where
  ready : Bool
  backlog : Nat
  waker : Option TaskWaker

def view {α : Type} (channel : Channel α TaskWaker) : View :=
  ⟨channel.queue.isSome, channel.items.length, channel.waker⟩

/-- The executor is about to poll a task, or polls it and the poll has not ended. -/
def Control.Serves (id : TaskId) : Control → Prop
  | .popped other => other = id
  | .polling other _ phase => other = id ∧ phase ≠ .pended
  | _ => False

namespace Kernel

def stream (self : Kernel) (source : Source) : View := view (self.channel source)

/-- The executor is going to poll a task, or polls it and the poll has not ended. -/
def Due (self : Kernel) (id : TaskId) : Prop :=
  id ∈ self.exec.task_queue.items ∨ self.control.Serves id

/-- Nothing is queued in a stream, and the next item will wake its task. -/
def Waits (self : Kernel) (source : Source) : Prop :=
  self.stream source = ⟨true, 0, some ⟨(Role.stream source).task⟩⟩

/-- The clock has not reached a deadline. -/
def Later (self : Kernel) (overflow_checks : Bool) (deadline_ms : UInt64) : Prop :=
  ∀ now, now_ms overflow_checks self.ticks = ok now → now < deadline_ms

/-- There is something for a task to do. -/
def Needs (self : Kernel) (overflow_checks : Bool) : Role → Prop
  | .stream source => (self.stream source).backlog ≠ 0
  | .time => ∃ task, self.sleeper = some task ∧ ¬ self.Later overflow_checks task.deadline_ms

/-- A `pop` that finds nothing leaves the stream empty. -/
theorem pop_missed {k k' : Kernel} {source : Source} (h : k.pop source = ok (false, k')) :
    k'.stream source = ⟨true, 0, k.slot source⟩ := by
  obtain ⟨⟨item, hpop, hnone⟩, _⟩ := pop_inv h
  obtain rfl : item = none := by simpa using hnone
  cases hqueue : (k.channel source).queue with
  | none => simp [Channel.pop, hqueue] at hpop
  | some queue =>
    have hready : (k.channel source).Ready := by rw [Channel.Ready, hqueue, Option.isSome_some]
    obtain ⟨item, after, hcall, htakes, hwaker⟩ := Channel.pop_spec hready
    obtain ⟨rfl, rfl⟩ := Prod.mk.inj (ok.inj (hcall.symm.trans hpop))
    have hempty : (k'.channel source).items = [] := by simpa [htakes.2.2 rfl] using htakes.2.1.symm
    have hready' : (k'.channel source).queue.isSome = true := htakes.1
    rw [stream, view, hempty, hwaker, hready']
    rfl

/-- What a handler does: it queues the ids of the wakers that it takes away. -/
structure Wakes (overflow_checks : Bool) (k : Kernel) (ids : List TaskId) (k' : Kernel) : Prop where
  tasks : k'.exec.tasks = k.exec.tasks
  cache : k'.exec.waker_cache = k.exec.waker_cache
  queue : k'.exec.task_queue.items = k.exec.task_queue.items ++ ids
  owners : ∀ id ∈ ids, ∃ waker : TaskWaker, waker.task_id = id ∧
    ((∃ s, k.slot s = some waker) ∨ ∃ key : Key, k.timers[key]? = some waker)
  control : k'.control = k.control
  sleeper : k'.sleeper = k.sleeper
  streams : ∀ s, k'.stream s = k.stream s ∨
    k'.slot s = none ∧ ∀ waker, k.slot s = some waker → waker.task_id ∈ ids
  kept : ∀ (key : Key) (waker : TaskWaker), k'.timers[key]? = some waker →
    k.timers[key]? = some waker ∧ (k.Later overflow_checks key.1 → k'.Later overflow_checks key.1)
  woken : ∀ (key : Key) (waker : TaskWaker), k.timers[key]? = some waker →
    k'.timers[key]? = some waker ∨ waker.task_id ∈ ids

theorem add_woken {α : Type} {channel : Channel α TaskWaker} {item : α} {waker : TaskWaker}
    (h : (channel.add item).2.1 = some waker) : channel.waker = some waker := by
  unfold Channel.add at h
  split at h
  case h_1 => cases h
  case h_2 =>
    split at h
    case h_1 => cases h
    case h_2 => exact h

/-- The producer takes the waker away, or does nothing. -/
theorem add_view {α : Type} (channel : Channel α TaskWaker) (item : α) :
    view (channel.add item).2.2 = view channel ∨
      (channel.add item).2.2.waker = none ∧ (channel.add item).2.1 = channel.waker := by
  unfold Channel.add
  split
  case h_1 => exact Or.inl rfl
  case h_2 =>
    split
    case h_1 => exact Or.inl rfl
    case h_2 => exact Or.inr ⟨rfl, rfl⟩

theorem handle_wakes {overflow_checks : Bool} {k k' : Kernel} {i : Interrupt}
    (h : k.handle overflow_checks i = ok k') : ∃ ids, Wakes overflow_checks k ids k' := by
  cases i with
  | serial byte =>
    have hcall : { k with serial := (add_byte k.serial byte).2.2 }.wake_all
        (add_byte k.serial byte).2.1.toList = ok k' := h
    obtain ⟨exec, hexec, rfl⟩ := wake_all_eq hcall
    obtain ⟨htasks, hcache, hqueue⟩ := Executor.wake_all_inv hexec
    refine ⟨_, htasks, hcache, hqueue, fun id hid => ?_, rfl, rfl, fun s => ?_,
      fun key waker hkey => ⟨hkey, id⟩, fun key waker hkey => Or.inl hkey⟩
    · obtain ⟨waker, hwaker, rfl⟩ := List.mem_map.mp hid
      exact ⟨waker, rfl, Or.inl ⟨.serial, add_woken (Option.mem_toList.mp hwaker)⟩⟩
    cases s with
    | serial =>
      refine (add_view k.serial byte).imp_right fun ⟨hnone, hwoken⟩ => ⟨hnone, fun waker hslot => ?_⟩
      have hadded : (add_byte k.serial byte).2.1 = some waker := hwoken.trans hslot
      simp [hadded]
    | network => exact Or.inl rfl
  | network evt =>
    have hcall : { k with net := (add_event k.net evt).2.2 }.wake_all
        (add_event k.net evt).2.1.toList = ok k' := h
    obtain ⟨exec, hexec, rfl⟩ := wake_all_eq hcall
    obtain ⟨htasks, hcache, hqueue⟩ := Executor.wake_all_inv hexec
    refine ⟨_, htasks, hcache, hqueue, fun id hid => ?_, rfl, rfl, fun s => ?_,
      fun key waker hkey => ⟨hkey, id⟩, fun key waker hkey => Or.inl hkey⟩
    · obtain ⟨waker, hwaker, rfl⟩ := List.mem_map.mp hid
      exact ⟨waker, rfl, Or.inl ⟨.network, add_woken (Option.mem_toList.mp hwaker)⟩⟩
    cases s with
    | serial => exact Or.inl rfl
    | network =>
      refine (add_view k.net evt).imp_right fun ⟨hnone, hwoken⟩ => ⟨hnone, fun waker hslot => ?_⟩
      have hadded : (add_event k.net evt).2.1 = some waker := hwoken.trans hslot
      simp [hadded]
  | timer =>
    rw [handle, bind_eq_ok_iff] at h
    obtain ⟨⟨woken, ticks, timers⟩, htick, hcall⟩ := h
    obtain ⟨exec, hexec, rfl⟩ := wake_all_eq hcall
    obtain ⟨htasks, hcache, hqueue⟩ := Executor.wake_all_inv hexec
    obtain ⟨_, now, hnow, hexpired⟩ := tick_inv htick
    refine ⟨_, htasks, hcache, hqueue, fun id hid => ?_, rfl, rfl, fun s => Or.inl rfl, fun key waker hkey => ?_,
      fun key waker hkey => ?_⟩
    · obtain ⟨waker, hwaker, rfl⟩ := List.mem_map.mp hid
      obtain ⟨⟨key, _⟩, hentry, rfl⟩ := List.mem_map.mp hwaker
      exact ⟨_, rfl, Or.inr ⟨key, ((hexpired.woken key _).mp hentry).1⟩⟩
    · have hkept := hexpired.kept key
      rw [show timers[key]? = some waker from hkey] at hkept
      split at hkept
      case isTrue => cases hkept
      case isFalse hlate =>
        refine ⟨hkept.symm, fun _ now' hnow' => ?_⟩
        obtain rfl := ok.inj (hnow.symm.trans hnow')
        exact UInt64.not_le.mp hlate
    · by_cases hdue : key.1 ≤ now
      · have hwoken : (key, waker) ∈ woken := (hexpired.woken key waker).mpr ⟨hkey, hdue⟩
        exact Or.inr (List.mem_map_of_mem (List.mem_map_of_mem hwoken))
      · refine Or.inl ((hexpired.kept key).trans ?_)
        rw [if_neg hdue]
        exact hkey

end Kernel

/-- Wakers wake the task that they belong to, and every task is due or waits for
something that will wake it. -/
structure Awake (overflow_checks : Bool) (k : Kernel) : Prop where
  tasks : k.exec.tasks = spawned.tasks
  cached : ∀ (id : TaskId) (waker : TaskWaker), k.exec.waker_cache[id]? = some waker → waker = ⟨id⟩
  polled : ∀ id waker phase, k.control = .polling id waker phase → waker = ⟨id⟩ ∧ id = (role id).task
  slots : ∀ s waker, k.slot s = some waker → waker = ⟨(Role.stream s).task⟩
  timers : ∀ (key : Key) (waker : TaskWaker), k.timers[key]? = some waker →
    waker = ⟨Role.time.task⟩ ∧ k.Later overflow_checks key.1
  known : ∀ id, id ∈ k.exec.task_queue.items ∨ k.control = .popped id → id = (role id).task
  streams : ∀ s, k.Due (Role.stream s).task ∨ k.Waits s
  armed : ∀ s waker, k.control = .polling (Role.stream s).task waker .registered →
    k.slot s ≠ none ∨ (Role.stream s).task ∈ k.exec.task_queue.items
  sleeping : k.Due Role.time.task ∨
    ∃ task, k.sleeper = some task ∧ k.timers[task.key]? = some ⟨Role.time.task⟩
  masked : k.control = .checking ∨ k.control = .halting ∨ k.control = .resuming → k.interrupts = false
  empty : k.control = .halting ∨ k.control = .halted → k.exec.task_queue.items = []

theorem Awake.boot {overflow_checks : Bool} {exec : Executor} (h : kernel_main = ok exec) :
    Awake overflow_checks (.boot exec) := by
  obtain rfl := ok.inj (h.symm.trans kernel_main_eq)
  have hdue : ∀ role : Role, (Kernel.boot spawned).Due role.task := by
    intro role
    left
    rcases role with (_ | _) | _ <;> simp [Kernel.boot, spawned, Role.task]
  refine ⟨rfl, ?_, by simp [Kernel.boot], ?_, ?_, ?_, fun s => Or.inl (hdue _), by simp [Kernel.boot],
    Or.inl (hdue _), by simp [Kernel.boot], by simp [Kernel.boot]⟩
  · intro id waker hcached
    simp [Kernel.boot, spawned] at hcached
  · intro s waker hslot
    cases s <;> cases hslot
  · intro key waker hkey
    simp [Kernel.boot] at hkey
  · intro id hid
    have hmem : id ∈ [0, 1, 2] := hid.resolve_right (by simp [Kernel.boot])
    simp only [List.mem_cons, List.not_mem_nil, or_false] at hmem
    rcases hmem with rfl | rfl | rfl <;> rfl

/-- A step that only moves the program counter, when no task was being served. -/
theorem Awake.move {overflow_checks : Bool} {k : Kernel} (h : Awake overflow_checks k) {control : Control}
    {interrupts : Bool} (hserves : ∀ role : Role, ¬ k.control.Serves role.task)
    (hcontrol : ∀ id waker phase, control ≠ .polling id waker phase) (hpopped : ∀ id, control ≠ .popped id)
    (hmasked : control = .checking ∨ control = .halting ∨ control = .resuming → interrupts = false)
    (hempty : control = .halting ∨ control = .halted → k.exec.task_queue.items = []) :
    Awake overflow_checks { k with control := control, interrupts := interrupts } where
  tasks := h.tasks
  cached := h.cached
  polled := fun id waker phase hpolling => absurd hpolling (hcontrol id waker phase)
  slots := h.slots
  timers := h.timers
  known := fun id hid => h.known id (Or.inl (hid.resolve_right (hpopped id)))
  streams := fun s => (h.streams s).imp_left fun hdue => Or.inl (hdue.resolve_right (hserves _))
  armed := fun _ waker hpolling => absurd hpolling (hcontrol _ waker _)
  sleeping := h.sleeping.imp_left fun hdue => Or.inl (hdue.resolve_right (hserves _))
  masked := hmasked
  empty := hempty

/-- While a task is being polled, another one that is due is in the queue. -/
theorem Kernel.Due.queued {k : Kernel} {id : TaskId} {waker : TaskWaker} {phase : Phase} {other : Role}
    (h : k.Due other.task) (hcontrol : k.control = .polling id waker phase) (hother : role id ≠ other) :
    other.task ∈ k.exec.task_queue.items := by
  refine h.resolve_right fun hserves => hother ?_
  rw [hcontrol] at hserves
  rw [hserves.1, role_task]

/-- A step of `poll_next`. -/
theorem Awake.touch {overflow_checks : Bool} {k k' : Kernel} (h : Awake overflow_checks k) {id : TaskId}
    {waker : TaskWaker} {phase phase' : Phase} {source : Source} (hcontrol : k.control = .polling id waker phase)
    (hrole : role id = .stream source) (htouches : k.Touches source k')
    (hslot : ∀ w, k'.slot source = some w → w = ⟨(Role.stream source).task⟩)
    (hpended : phase' = .pended → (Role.stream source).task ∈ k.exec.task_queue.items ∨ k'.Waits source)
    (hregistered : phase' = .registered → k'.slot source ≠ none) :
    Awake overflow_checks { k' with control := .polling id waker phase' } := by
  obtain ⟨hwaker, hid⟩ := h.polled id waker phase hcontrol
  rw [hrole] at hid
  refine ⟨?_, ?_, ?_, fun s w hs => ?_, ?_, ?_, fun s => ?_, fun s w hs => ?_, ?_, by simp, by simp⟩
  · rw [htouches.exec]
    exact h.tasks
  · rw [htouches.exec]
    exact h.cached
  · intro id' waker' phase' hpolling
    obtain ⟨rfl, rfl, _⟩ := Control.polling.inj hpolling
    exact ⟨hwaker, by rw [hrole, ← hid]⟩
  · by_cases hsource : s = source
    · subst hsource
      exact hslot w hs
    · exact h.slots s w ((htouches.slot hsource).symm.trans hs)
  · intro key w hkey
    rw [htouches.timers] at hkey
    have hlater := h.timers key w hkey
    rw [Kernel.Later] at hlater ⊢
    rwa [htouches.ticks]
  · intro id' hid'
    rw [htouches.exec] at hid'
    exact h.known id' (Or.inl (hid'.resolve_right (by simp)))
  · by_cases hsource : s = source
    · subst hsource
      by_cases hphase : phase' = .pended
      · refine (hpended hphase).imp_left fun hqueued => Or.inl ?_
        rwa [htouches.exec]
      · exact Or.inl (Or.inr ⟨hid, hphase⟩)
    · refine (h.streams s).imp (fun hdue => Or.inl ?_) fun hwaits => ?_
      · rw [htouches.exec]
        exact hdue.queued hcontrol (by simpa [hrole] using Ne.symm hsource)
      · exact (congrArg view (htouches.other s hsource)).trans hwaits
  · obtain ⟨hsame, _, hphase⟩ := Control.polling.inj hs
    obtain rfl : s = source := by
      have hrole' := congrArg role (hsame.symm.trans hid)
      rwa [role_task, role_task, Role.stream.injEq] at hrole'
    exact Or.inl (hregistered hphase)
  · rw [htouches.sleeper, htouches.timers]
    refine h.sleeping.imp_left fun hdue => Or.inl ?_
    rw [htouches.exec]
    exact hdue.queued hcontrol (by simp [hrole])

theorem Awake.interrupt {overflow_checks : Bool} {k k' : Kernel} (h : Awake overflow_checks k) {i : Interrupt}
    (hinterrupts : k.interrupts = true) (hcall : k.handle overflow_checks i = ok k') :
    Awake overflow_checks { k' with control := if k.control = .halted then .ready else k.control } := by
  obtain ⟨ids, hwakes⟩ := Kernel.handle_wakes hcall
  have hunmasked : ¬ (k.control = .checking ∨ k.control = .halting ∨ k.control = .resuming) := by
    intro hmasked
    cases hinterrupts.symm.trans (h.masked hmasked)
  -- the halt ends, and otherwise the interrupted program goes on
  have hcontrol : ∀ {control : Control}, control ≠ .ready →
      (if k.control = .halted then .ready else k.control) = control → k.control = control ∧
        control ≠ .halted := by
    intro control hready hafter
    split at hafter
    case isTrue => exact absurd hafter.symm hready
    case isFalse hhalted => exact ⟨hafter, hafter ▸ hhalted⟩
  have hdue : ∀ id, k.Due id →
      Kernel.Due { k' with control := if k.control = .halted then .ready else k.control } id := by
    rintro id (hqueued | hserves)
    · left
      rw [hwakes.queue]
      exact List.mem_append_left _ hqueued
    · right
      rw [if_neg (fun hhalted => by rw [hhalted] at hserves; exact hserves)]
      exact hserves
  have hwoken : ∀ id ∈ ids, id ∈ k'.exec.task_queue.items := fun id hid => by
    rw [hwakes.queue]
    exact List.mem_append_right _ hid
  refine ⟨hwakes.tasks.trans h.tasks, ?_, fun id waker phase hpolling => ?_, fun s waker hslot => ?_,
    fun key waker hkey => ?_, fun id hid => ?_, fun s => ?_, fun s waker hpolling => ?_, ?_, fun hmasked => ?_,
    fun hhalt => ?_⟩
  · rw [hwakes.cache]
    exact h.cached
  · exact h.polled id waker phase (hcontrol (by simp) hpolling).1
  · rcases hwakes.streams s with hsame | ⟨hnone, _⟩
    · exact h.slots s waker ((congrArg View.waker hsame).symm.trans hslot)
    · cases hnone.symm.trans hslot
  · obtain ⟨hkept, hlater⟩ := hwakes.kept key waker hkey
    obtain ⟨hwaker, hbefore⟩ := h.timers key waker hkept
    exact ⟨hwaker, hlater hbefore⟩
  · rcases hid with hqueued | hpopped
    · rw [hwakes.queue] at hqueued
      rcases List.mem_append.mp hqueued with hold | hnew
      · exact h.known id (Or.inl hold)
      · obtain ⟨waker, rfl, ⟨s, hs⟩ | ⟨key, hkey⟩⟩ := hwakes.owners id hnew
        · rw [h.slots s waker hs, role_task]
        · rw [(h.timers key waker hkey).1, role_task]
    · exact h.known id (Or.inr (hcontrol (by simp) hpopped).1)
  · rcases h.streams s with hbefore | hwaits
    · exact Or.inl (hdue _ hbefore)
    · rcases hwakes.streams s with hsame | ⟨_, htaken⟩
      · exact Or.inr (hsame.trans hwaits)
      · have hslot : k.slot s = some ⟨(Role.stream s).task⟩ := congrArg View.waker hwaits
        exact Or.inl (Or.inl (hwoken _ (htaken _ hslot)))
  · rcases h.armed s waker (hcontrol (by simp) hpolling).1 with hslot | hqueued
    · rcases hwakes.streams s with hsame | ⟨_, htaken⟩
      · left
        have hsame : k'.slot s = k.slot s := congrArg View.waker hsame
        change k'.slot s ≠ none
        rwa [hsame]
      · obtain ⟨w, hw⟩ := Option.ne_none_iff_exists'.mp hslot
        have htask := htaken w hw
        rw [h.slots s w hw] at htask
        exact Or.inr (hwoken _ htask)
    · right
      rw [hwakes.queue]
      exact List.mem_append_left _ hqueued
  · rcases h.sleeping with hbefore | ⟨task, hsleeper, hentry⟩
    · exact Or.inl (hdue _ hbefore)
    · rcases hwakes.woken _ _ hentry with hkept | htaken
      · exact Or.inr ⟨task, hwakes.sleeper.trans hsleeper, hkept⟩
      · exact Or.inl (Or.inl (hwoken _ htaken))
  · exact absurd (hmasked.imp (fun hafter => (hcontrol (by simp) hafter).1)
      (Or.imp (fun hafter => (hcontrol (by simp) hafter).1) fun hafter => (hcontrol (by simp) hafter).1)) hunmasked
  · rcases hhalt with hafter | hafter
    · exact absurd (Or.inr (Or.inl (hcontrol (by simp) hafter).1)) hunmasked
    · exact absurd rfl (hcontrol (by simp) hafter).2

/-- A step of `time_task`, which is being polled. -/
theorem Awake.doze {overflow_checks : Bool} {k : Kernel} (h : Awake overflow_checks k) {id : TaskId}
    {waker : TaskWaker} {phase : Phase} {sleeper : Option TimeTask} {timers : Timers TaskWaker}
    {next_id : UInt64}
    (hcontrol : k.control = .polling id waker .next) (hrole : role id = .time) (hphase : phase ≠ .registered)
    (htimers : ∀ (key : Key) (w : TaskWaker), timers[key]? = some w →
      k.timers[key]? = some w ∨ w = waker ∧ k.Later overflow_checks key.1)
    (hpended : phase = .pended → ∃ task, sleeper = some task ∧ timers[task.key]? = some waker) :
    Awake overflow_checks { k with
      sleeper := sleeper, timers := timers, next_id := next_id, control := .polling id waker phase } := by
  obtain ⟨hwaker, hid⟩ := h.polled id waker .next hcontrol
  have htask : waker = ⟨Role.time.task⟩ := by rw [hwaker, hid, hrole]
  refine ⟨h.tasks, h.cached, ?_, h.slots, fun key w hkey => ?_, fun id' hid' => ?_, fun s => ?_, fun s w hs => ?_,
    ?_, by simp, by simp⟩
  · intro id' waker' phase' hpolling
    obtain ⟨rfl, rfl, _⟩ := Control.polling.inj hpolling
    exact ⟨hwaker, hid⟩
  · rcases htimers key w hkey with hbefore | ⟨rfl, hlater⟩
    · exact h.timers key w hbefore
    · exact ⟨htask, hlater⟩
  · exact h.known id' (Or.inl (hid'.resolve_right (by simp)))
  · refine (h.streams s).imp_left fun hdue => Or.inl ?_
    exact hdue.queued hcontrol (by simp [hrole])
  · obtain ⟨_, _, hregistered⟩ := Control.polling.inj hs
    exact absurd hregistered hphase
  · by_cases hlast : phase = .pended
    · rw [← htask]
      exact Or.inr (hpended hlast)
    · refine Or.inl (Or.inr ⟨?_, hlast⟩)
      rw [hid, hrole]

theorem Awake.step {overflow_checks : Bool} {k k' : Kernel} (h : Awake overflow_checks k)
    (hstep : AnyStep overflow_checks k k') : Awake overflow_checks k' := by
  obtain ⟨label, hstep⟩ := hstep
  cases hstep with
  | @pop id exec hcontrol hcall =>
    obtain ⟨htasks, hcache, hqueue⟩ := Executor.pop_some_inv hcall
    have hdue : ∀ other, k.Due other → Kernel.Due { k with exec := exec, control := .popped id } other := by
      rintro other (hqueued | hserves)
      · rw [hqueue] at hqueued
        exact (List.mem_cons.mp hqueued).symm.imp_right Eq.symm
      · rw [hcontrol] at hserves
        exact hserves.elim
    refine ⟨htasks.trans h.tasks, by rw [hcache]; exact h.cached, by simp, h.slots, h.timers, fun other hother => ?_,
      fun s => (h.streams s).imp_left (hdue _), by simp, h.sleeping.imp_left (hdue _), by simp, by simp⟩
    refine h.known other (Or.inl ?_)
    rw [hqueue]
    rcases hother with hqueued | hpopped
    · exact List.mem_cons_of_mem id hqueued
    · rw [Control.popped.inj hpopped]
      exact List.mem_cons_self
  | drain hcontrol hcall =>
    obtain ⟨rfl, _⟩ := Executor.pop_none_inv hcall
    exact h.move (by simp [hcontrol, Control.Serves]) (by simp) (by simp) (by simp) (by simp)
  | @discard id hcontrol hcall =>
    refine h.move (fun other hserves => ?_) (by simp) (by simp) (by simp) (by simp)
    rw [hcontrol] at hserves
    have hlive : k.exec.Live id := by
      rw [spawned_live h.tasks, show id = other.task from hserves, role_task]
    exact Executor.begin_poll_eq_none_iff.mp hcall hlive
  | @beginPoll id waker exec hcontrol hcall =>
    obtain ⟨hlive, htasks, hqueue, hcache⟩ := Executor.begin_poll_inv hcall
    have hwaker : waker = ⟨id⟩ := (Executor.begin_poll_waker hcall).elim (fun hnew => hnew) (h.cached id waker)
    have hdue : ∀ other, k.Due other →
        Kernel.Due { k with exec := exec, control := .polling id waker .next } other := by
      rintro other (hqueued | hserves)
      · left
        rwa [hqueue]
      · rw [hcontrol] at hserves
        exact Or.inr ⟨hserves, by simp⟩
    refine ⟨htasks.trans h.tasks, fun other cached hcached => ?_, fun id' waker' phase hpolling => ?_, h.slots,
      h.timers, fun other hother => ?_, fun s => (h.streams s).imp_left (hdue _), by simp,
      h.sleeping.imp_left (hdue _), by simp, by simp⟩
    · rcases hcache other cached hcached with hold | ⟨rfl, hnew⟩
      · exact h.cached other cached hold
      · exact hnew
    · obtain ⟨rfl, rfl, _⟩ := Control.polling.inj hpolling
      exact ⟨hwaker, (spawned_live h.tasks _).mp hlive⟩
    · rw [hqueue] at hother
      exact h.known other (Or.inl (hother.resolve_right (by simp)))
  | @construct _ id waker source hcontrol hrole hcall =>
    obtain ⟨hinit, htouches⟩ := Kernel.init_inv hcall
    have hslot : k'.slot source = k.slot source := Channel.init_waker hinit
    have hafter : Awake overflow_checks { k' with control := .polling id waker .next } :=
      h.touch hcontrol hrole htouches (fun w hw => h.slots source w (hslot ▸ hw)) (by simp) (by simp)
    rwa [← hcontrol, ← htouches.control] at hafter
  | @firstPop popped id waker source found hcontrol hrole hcall =>
    have hslot := Kernel.pop_slot hcall
    exact h.touch hcontrol hrole (Kernel.pop_inv hcall).2 (fun w hw => h.slots source w (hslot ▸ hw))
      (by cases found <;> simp) (by cases found <;> simp)
  | @register registered id waker source hcontrol hrole hcall =>
    have hslot := Kernel.register_slot hcall
    obtain ⟨hwaker, hid⟩ := h.polled id waker .missed hcontrol
    refine h.touch hcontrol hrole (Kernel.register_inv hcall).2 (fun w hw => ?_) (by simp) (by simp [hslot])
    obtain rfl := Option.some.inj (hslot.symm.trans hw)
    rw [hwaker, hid, hrole]
  | @secondPop popped id waker source found hcontrol hrole hcall =>
    obtain ⟨_, hid⟩ := h.polled id waker .registered hcontrol
    rw [hrole] at hid
    have hslot := Kernel.pop_slot hcall
    refine h.touch hcontrol hrole (Kernel.pop_inv hcall).2 (fun w hw => h.slots source w (hslot ▸ hw))
      (fun hpended => ?_) (by cases found <;> simp)
    cases found with
    | true => cases hpended
    | false =>
      -- its waker is still registered, or it has been woken since it was
      rcases h.armed source waker (hid ▸ hcontrol) with harmed | hqueued
      · obtain ⟨w, hw⟩ := Option.ne_none_iff_exists'.mp harmed
        right
        rw [Kernel.Waits, Kernel.pop_missed hcall, hw, h.slots source w hw]
      · exact Or.inl hqueued
  | @take taken id waker source hcontrol hrole hcall =>
    refine h.touch hcontrol hrole (Kernel.take_inv hcall).2 (fun w hw => ?_) (by simp) (by simp)
    cases (Kernel.take_slot hcall).symm.trans hw
  | @newSleeper id waker task next_id hcontrol hrole hnone hcall =>
    have hafter : Awake overflow_checks
        { k with sleeper := some task, next_id := next_id, control := .polling id waker .next } :=
      h.doze hcontrol hrole (by simp) (fun key w hkey => Or.inl hkey) (by simp)
    rwa [← hcontrol] at hafter
  | @sleeperReady id waker task timers hcontrol hrole hsome hcall =>
    obtain ⟨_, _, ⟨_, _, rfl⟩ | ⟨hpending, _⟩⟩ := poll_inv hcall
    · have hafter : Awake overflow_checks { k with
          sleeper := none, timers := task.drop (k.timers.erase task.key),
          control := .polling id waker .next } := by
        refine h.doze hcontrol hrole (by simp) (fun key w hkey => Or.inl ?_) (by simp)
        rw [TimeTask.drop, BTreeMap.getElem?_erase, BTreeMap.getElem?_erase] at hkey
        grind
      rwa [← hcontrol] at hafter
    · cases hpending
  | @sleeperPending id waker task timers hcontrol hrole hsome hcall =>
    obtain ⟨now, hnow, ⟨hready, _⟩ | ⟨_, hlate, rfl⟩⟩ := poll_inv hcall
    · cases hready
    · refine h.doze hcontrol hrole (by simp) (fun key w hkey => ?_) fun _ => ⟨task, hsome, ?_⟩
      · rw [BTreeMap.getElem?_insert] at hkey
        split at hkey
        case isTrue heq =>
          refine Or.inr ⟨(Option.some.inj hkey).symm, fun now' hnow' => ?_⟩
          obtain rfl := ok.inj (hnow.symm.trans hnow')
          rwa [← heq]
        case isFalse => exact Or.inl hkey
      · rw [BTreeMap.getElem?_insert, if_pos rfl]
  | suspend hcontrol => exact h.move (by simp [hcontrol, Control.Serves]) (by simp) (by simp) (by simp) (by simp)
  | disable hcontrol => exact h.move (by simp [hcontrol, Control.Serves]) (by simp) (by simp) (by simp) (by simp)
  | check hcontrol =>
    have hmasked := h.masked (Or.inl hcontrol)
    have hserves : ∀ role : Role, ¬ k.control.Serves role.task := by simp [hcontrol, Control.Serves]
    split
    case isTrue hempty =>
      exact h.move hserves (by simp) (by simp) (fun _ => hmasked) fun _ => List.isEmpty_iff.mp hempty
    case isFalse => exact h.move hserves (by simp) (by simp) (fun _ => hmasked) (by simp)
  | halt hcontrol =>
    exact h.move (by simp [hcontrol, Control.Serves]) (by simp) (by simp) (by simp) fun _ =>
      h.empty (Or.inl hcontrol)
  | enable hcontrol => exact h.move (by simp [hcontrol, Control.Serves]) (by simp) (by simp) (by simp) (by simp)
  | interrupt i hinterrupts hcall => exact h.interrupt hinterrupts hcall

theorem reaches_awake {overflow_checks : Bool} {exec : Executor} (hmain : kernel_main = ok exec) {k : Kernel}
    (hrun : Relation.ReflTransGen (AnyStep overflow_checks) (.boot exec) k) : Awake overflow_checks k :=
  reaches_invariant (Awake overflow_checks) (fun _ _ => Awake.step) hrun (.boot hmain)

theorem Awake.due {overflow_checks : Bool} {k : Kernel} (h : Awake overflow_checks k) {role : Role}
    (hneeds : k.Needs overflow_checks role) : k.Due role.task := by
  cases role with
  | stream source =>
    refine (h.streams source).resolve_right fun hwaits => hneeds ?_
    rw [show k.stream source = _ from hwaits]
  | time =>
    obtain ⟨task, hsleeper, hdue⟩ := hneeds
    refine h.sleeping.resolve_right fun ⟨task', hsleeper', hentry⟩ => hdue ?_
    obtain rfl := Option.some.inj (hsleeper.symm.trans hsleeper')
    exact (h.timers _ _ hentry).2

/-- In every interleaving of the tasks with the interrupts: a task that has
something to do is queued or being polled, and the processor is halted only when
no task has, and whatever happens next wakes the task that it concerns. -/
theorem kernel_awake {overflow_checks : Bool} {exec : Executor} (hmain : kernel_main = ok exec) {k : Kernel}
    (hrun : Relation.ReflTransGen (AnyStep overflow_checks) (.boot exec) k) :
    (∀ role, k.Needs overflow_checks role → k.Due role.task) ∧
    (k.control = .halted → k.exec.task_queue.items = [] ∧ (∀ source, k.Waits source) ∧
      ∃ task, k.sleeper = some task ∧ k.timers[task.key]? = some ⟨Role.time.task⟩ ∧
        k.Later overflow_checks task.deadline_ms) := by
  have h := reaches_awake hmain hrun
  refine ⟨fun _ => h.due, fun hhalted => ?_⟩
  have hempty := h.empty (Or.inr hhalted)
  have hidle : ∀ role : Role, ¬ k.Due role.task := by
    rintro role (hqueued | hserves)
    · rw [hempty] at hqueued
      cases hqueued
    · rw [hhalted] at hserves
      exact hserves
  obtain ⟨task, hsleeper, hentry⟩ := h.sleeping.resolve_left (hidle _)
  exact ⟨hempty, fun source => (h.streams source).resolve_left (hidle _), task, hsleeper, hentry,
    (h.timers _ _ hentry).2⟩

theorem reaches_woken :
    Relation.ReflTransGen (AnyStep true) (.boot spawned) (.reading woken (oneByte none) .registered) := by
  have hhandle : (Kernel.reading serving (quiet (some ⟨0⟩)) .registered).handle true (.serial 97) =
      ok (.reading woken (oneByte none) .registered) := rfl
  have hstep : AnyStep true (.reading serving (quiet (some ⟨0⟩)) .registered) _ :=
    ⟨_, .interrupt (.serial 97) rfl hhandle⟩
  exact (Relation.ReflTransGen.mono (fun _ _ => PacedStep.any) _ _
    ((reaches_reading true).trans (reaches_registered true serving))).tail hstep

/-- A byte that arrives in the first poll of the serial task. -/
theorem kernel_awake_byte : ∃ k, Relation.ReflTransGen (AnyStep true) (.boot spawned) k ∧
    (k.stream .serial).backlog = 1 ∧ k.Due 0 :=
  ⟨_, reaches_woken, rfl, (kernel_awake kernel_main_eq reaches_woken).1 (.stream .serial) Nat.one_ne_zero⟩

/-- The id that a step takes from the queue. -/
def taken? (k k' : Kernel) : Option TaskId :=
  match k.control, k'.control with
  | .ready, .popped id => some id
  | _, _ => none

/-- A step, with the id that it takes from the queue. -/
def TakingStep (overflow_checks : Bool) (k : Kernel) (taken : Option TaskId) (k' : Kernel) : Prop :=
  AnyStep overflow_checks k k' ∧ taken = taken? k k'

theorem taken?_eq_none {k k' : Kernel} (h : k.control ≠ .ready ∨ ∀ id, k'.control ≠ .popped id) :
    taken? k k' = none := by
  unfold taken?
  split
  case h_1 id hready hpopped => exact absurd hpopped (h.resolve_left (fun hnot => hnot hready) id)
  case h_2 => rfl

/-- The queue is taken from at the front and added to at the back. -/
theorem AnyStep.fifo {overflow_checks : Bool} {k k' : Kernel} (h : AnyStep overflow_checks k k') :
    ∃ added, (taken? k k').toList ++ k'.exec.task_queue.items = k.exec.task_queue.items ++ added := by
  obtain ⟨label, hstep⟩ := h
  -- a step that leaves the queue alone and takes nothing from it
  have hsame : (k.control ≠ .ready ∨ ∀ id, k'.control ≠ .popped id) → k'.exec.task_queue = k.exec.task_queue →
      ∃ added, (taken? k k').toList ++ k'.exec.task_queue.items = k.exec.task_queue.items ++ added := by
    intro hcontrol hqueue
    exact ⟨[], by rw [taken?_eq_none hcontrol, hqueue]; simp⟩
  cases hstep with
  | pop hcontrol hcall =>
    obtain ⟨_, _, hqueue⟩ := Executor.pop_some_inv hcall
    exact ⟨[], by simp [taken?, hcontrol, hqueue]⟩
  | drain hcontrol hcall =>
    obtain ⟨rfl, _⟩ := Executor.pop_none_inv hcall
    exact hsame (by simp) rfl
  | beginPoll hcontrol hcall => exact hsame (by simp) (Executor.begin_poll_inv hcall).2.2.1
  | construct hcontrol hrole hcall =>
    exact hsame (by simp [hcontrol]) (congrArg _ (Kernel.onStream_inv hcall).2.exec)
  | firstPop hcontrol hrole hcall | register hcontrol hrole hcall | secondPop hcontrol hrole hcall
  | take hcontrol hrole hcall =>
    exact hsame (by simp [hcontrol]) (congrArg _ (Kernel.onStream_inv hcall).2.exec)
  | interrupt i hinterrupts hcall =>
    obtain ⟨ids, hwakes⟩ := Kernel.handle_wakes hcall
    refine ⟨ids, ?_⟩
    rw [taken?_eq_none, hwakes.queue]
    · rfl
    · by_cases hready : k.control = .ready
      · exact Or.inr (by simp [hready])
      · exact Or.inl hready
  | discard hcontrol | newSleeper hcontrol | sleeperReady hcontrol | sleeperPending hcontrol | suspend hcontrol
  | disable hcontrol | check hcontrol | halt hcontrol | enable hcontrol => exact hsame (by simp [hcontrol]) rfl

/-- The ids that a run takes from the queue, in order. -/
def takenIds (trace : List (Option TaskId)) : List TaskId := trace.filterMap id

theorem takenIds_append {overflow_checks : Bool} {k k' : Kernel} {trace : List (Option TaskId)}
    (hrun : Run (TakingStep overflow_checks) k trace k') :
    ∃ added, takenIds trace ++ k'.exec.task_queue.items = k.exec.task_queue.items ++ added := by
  refine hrun.invariant (fun trace k' => ∃ added,
    takenIds trace ++ k'.exec.task_queue.items = k.exec.task_queue.items ++ added) ⟨[], by simp [takenIds]⟩ ?_
  rintro trace _ middle last ⟨added, hadded⟩ ⟨hstep, rfl⟩
  obtain ⟨more, hmore⟩ := hstep.fifo
  refine ⟨added ++ more, ?_⟩
  rw [takenIds, filterMap_snoc, List.append_assoc, id, hmore, ← List.append_assoc, ← takenIds, hadded,
    List.append_assoc]

theorem popped_of_taken? {k k' : Kernel} {id : TaskId} (h : taken? k k' = some id) :
    k'.control = .popped id := by
  unfold taken? at h
  split at h
  case h_1 hpopped => rw [hpopped, Option.some.inj h]
  case h_2 => cases h

/-- What is taken from the queue is the id of a task. -/
theorem Awake.taken {overflow_checks : Bool} {k k' : Kernel} (h : Awake overflow_checks k)
    {trace : List (Option TaskId)} (hrun : Run (TakingStep overflow_checks) k trace k') :
    Awake overflow_checks k' ∧ ∀ id ∈ takenIds trace, id = (role id).task := by
  refine hrun.invariant (fun trace k' => Awake overflow_checks k' ∧ ∀ id ∈ takenIds trace, id = (role id).task)
    ⟨h, by simp [takenIds]⟩ ?_
  rintro trace _ middle last ⟨hmiddle, hids⟩ ⟨hstep, rfl⟩
  have hlast := hmiddle.step hstep
  refine ⟨hlast, fun id hid => ?_⟩
  rw [takenIds, filterMap_snoc] at hid
  rcases List.mem_append.mp hid with hold | hnew
  · exact hids id hold
  · exact hlast.known id (Or.inr (popped_of_taken? (Option.mem_toList.mp hnew)))

/-- An id that was taken from the queue is polled next. -/
theorem Awake.polled_next {overflow_checks : Bool} {k k' : Kernel} (h : Awake overflow_checks k) {id : TaskId}
    (hcontrol : k.control = .popped id) {label : Option Interrupt} (hstep : Step overflow_checks k label k') :
    (∃ i, label = some i ∧ k'.control = .popped id) ∨ ∃ waker, k'.control = .polling id waker .next := by
  cases hstep with
  | discard hpopped hcall =>
    obtain rfl := Control.popped.inj (hcontrol.symm.trans hpopped)
    exact absurd ((spawned_live h.tasks id).mpr (h.known id (Or.inr hcontrol)))
      (Executor.begin_poll_eq_none_iff.mp hcall)
  | @beginPoll _ waker _ hpopped hcall =>
    obtain rfl := Control.popped.inj (hcontrol.symm.trans hpopped)
    exact Or.inr ⟨waker, rfl⟩
  | interrupt i hinterrupts hcall =>
    refine Or.inl ⟨i, rfl, ?_⟩
    change (if k.control = .halted then Control.ready else k.control) = _
    rw [if_neg (by simp [hcontrol]), hcontrol]
  | _ hother => cases hcontrol.symm.trans hother

/-- A task that has something to do is being polled, or its id is taken before any
id that comes after those in the queue. What is taken is the id of a live task, which
is polled next. -/
theorem kernel_bounded_wait {overflow_checks : Bool} {exec : Executor} (hmain : kernel_main = ok exec)
    {k k' : Kernel} (hrun : Relation.ReflTransGen (AnyStep overflow_checks) (.boot exec) k) {role : Role}
    (hneeds : k.Needs overflow_checks role) {trace : List (Option TaskId)}
    (hrest : Run (TakingStep overflow_checks) k trace k') :
    (k.control.Serves role.task ∨ role.task ∈ (takenIds trace).take k.exec.task_queue.items.length ∨
      (takenIds trace).length < k.exec.task_queue.items.length) ∧
    (∀ id ∈ takenIds trace, k.exec.Live id) ∧
    ∀ id, k'.control = .popped id → k'.exec.Live id ∧ ∀ label next, Step overflow_checks k' label next →
      (∃ i, label = some i ∧ next.control = .popped id) ∨ ∃ waker, next.control = .polling id waker .next := by
  have h := reaches_awake hmain hrun
  obtain ⟨hafter, hids⟩ := h.taken hrest
  refine ⟨?_, fun id hid => (spawned_live h.tasks id).mpr (hids id hid), fun id hcontrol => ?_⟩
  · rcases h.due hneeds with hqueued | hserves
    · obtain ⟨added, hadded⟩ := takenIds_append hrest
      refine Or.inr ((Nat.lt_or_ge _ _).symm.imp_left fun hlong => ?_)
      have htake := congrArg (List.take k.exec.task_queue.items.length) hadded
      rw [List.take_append_of_le_length hlong, List.take_left] at htake
      rwa [htake]
    · exact Or.inl hserves
  · exact ⟨(spawned_live hafter.tasks id).mpr (hafter.known id (Or.inr hcontrol)),
      fun _ _ hstep => hafter.polled_next hcontrol hstep⟩

theorem Step.taking {k k' : Kernel} {label : Option Interrupt} (h : Step true k label k') :
    TakingStep true k (taken? k k') k' := ⟨⟨label, h⟩, rfl⟩

/-- A byte arrives when the serial task has just returned `Pending`. -/
theorem reaches_queued :
    Relation.ReflTransGen (AnyStep true) (.boot spawned) (.reading woken (oneByte none) .pended) := by
  have hmissed : (Kernel.reading serving (quiet (some ⟨0⟩)) .registered).pop .serial =
      ok (false, .reading serving (quiet (some ⟨0⟩)) .registered) := rfl
  have hwoken : (Kernel.reading serving (quiet (some ⟨0⟩)) .pended).handle true (.serial 97) =
      ok (.reading woken (oneByte none) .pended) := rfl
  have hpended : AnyStep true (.reading serving (quiet (some ⟨0⟩)) .registered) _ :=
    ⟨_, .secondPop rfl rfl hmissed⟩
  have hstep : AnyStep true (.reading serving (quiet (some ⟨0⟩)) .pended) _ :=
    ⟨_, .interrupt (.serial 97) rfl hwoken⟩
  exact ((Relation.ReflTransGen.mono (fun _ _ => PacedStep.any) _ _
    ((reaches_reading true).trans (reaches_registered true serving))).tail hpended).tail hstep

/-- The executor then polls the network task and `time_task`, and takes the id of the
serial task. -/
theorem run_taken : ∃ k' trace, Run (TakingStep true) (.reading woken (oneByte none) .pended) trace k' ∧
    takenIds trace = [1, 2, 0] := by
  have hready := Run.nil.snoc (Step.taking (.suspend (k := .reading woken (oneByte none) .pended) rfl))
  -- the network task constructs its stream and finds it empty
  have hnetwork := ((hready.snoc (Step.taking (.pop rfl rfl))).snoc (Step.taking (.beginPoll rfl rfl))).snoc
    (Step.taking (.construct rfl rfl rfl))
  have hpended := ((hnetwork.snoc (Step.taking (.firstPop rfl rfl rfl))).snoc
    (Step.taking (.register rfl rfl rfl))).snoc (Step.taking (.secondPop rfl rfl rfl))
  have hready := hpended.snoc (Step.taking (.suspend rfl))
  -- `time_task` makes a future and goes to sleep
  have htime := ((hready.snoc (Step.taking (.pop rfl rfl))).snoc (Step.taking (.beginPoll rfl rfl))).snoc
    (Step.taking (.newSleeper rfl rfl rfl rfl))
  have hsleeping := (htime.snoc (Step.taking (.sleeperPending rfl rfl rfl rfl))).snoc (Step.taking (.suspend rfl))
  exact ⟨_, _, hsleeping.snoc (Step.taking (.pop rfl rfl)), rfl⟩

/-- The serial task waits in the queue behind the two others. -/
theorem kernel_bounded_wait_byte : ∃ k k' trace, Relation.ReflTransGen (AnyStep true) (.boot spawned) k ∧
    k.Needs true (.stream .serial) ∧ ¬ k.control.Serves 0 ∧ k.exec.task_queue.items = [1, 2, 0] ∧
    Run (TakingStep true) k trace k' ∧ 0 ∈ (takenIds trace).take 3 ∧ ∀ id ∈ takenIds trace, k.exec.Live id := by
  obtain ⟨k', trace, hrest, htaken⟩ := run_taken
  have hneeds : (Kernel.reading woken (oneByte none) .pended).Needs true (.stream .serial) := Nat.one_ne_zero
  have hserves : ¬ (Kernel.reading woken (oneByte none) .pended).control.Serves 0 := fun hserves => hserves.2 rfl
  obtain ⟨hwait, hlive, _⟩ := kernel_bounded_wait kernel_main_eq reaches_queued hneeds hrest
  refine ⟨_, k', trace, reaches_queued, hneeds, hserves, rfl, hrest, ?_, hlive⟩
  rcases hwait with hnow | hsoon | hlater
  · exact absurd hnow hserves
  · exact hsoon
  · rw [htaken] at hlater
    exact absurd hlater (by decide)

end conc_os.main
