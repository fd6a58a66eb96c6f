import ConcOs.Rust.Result
import ConcOs.Rust.ArrayQueue
import ConcOs.Rust.BTreeMap

open rust Result

namespace conc_os.task

/-- `TaskId(u64)`. -/
abbrev TaskId := UInt64

/-- A task. What its future does when it is polled is left open. -/
structure Task where
  id : TaskId
deriving DecidableEq

/-- `Task::new`, on the value of the `NEXT_ID` of `TaskId::new`. -/
def Task.new (next_id : UInt64) : Task × UInt64 := (⟨next_id⟩, next_id + 1)

end conc_os.task

namespace conc_os.task.executor

/-- The queue that `Executor::new` makes. -/
abbrev TaskQueue := ArrayQueue TaskId 100

/-- A waker; the queue it holds a reference to is that of the executor. -/
structure TaskWaker where
  task_id : TaskId
deriving DecidableEq

def TaskWaker.wake_task (self : TaskWaker) (task_queue : TaskQueue) : Result TaskQueue :=
  match task_queue.push self.task_id with
  | .ok task_queue => ok task_queue
  | .error _ => fail (.expect "task_queue full")

structure Executor where
  tasks : Std.TreeMap TaskId Task
  task_queue : TaskQueue
  waker_cache : Std.TreeMap TaskId TaskWaker

namespace Executor

def new : Executor := ⟨∅, ArrayQueue.new TaskId 100, ∅⟩

def spawn (self : Executor) (task : Task) : Result Executor :=
  if self.tasks[task.id]?.isSome then fail (.expect "task with same ID already in tasks")
  else match self.task_queue.push task.id with
  | .ok task_queue => ok { self with tasks := self.tasks.insert task.id task, task_queue := task_queue }
  | .error _ => fail (.expect "queue full")

/-- The head of the loop in `run_ready_tasks`. -/
def pop (self : Executor) : Option TaskId × Executor :=
  let (task_id, task_queue) := self.task_queue.pop
  (task_id, { self with task_queue := task_queue })

/-- The body of the loop up to the poll: the waker to poll with, or `none` for
`continue`. -/
def begin_poll (self : Executor) (task_id : TaskId) : Option (TaskWaker × Executor) :=
  match self.tasks[task_id]? with
  | none => none
  | some _ =>
    match self.waker_cache[task_id]? with
    | some waker => some (waker, self)
    | none => some (⟨task_id⟩, { self with waker_cache := self.waker_cache.insert task_id ⟨task_id⟩ })

/-- The body of the loop after a poll that returned `Ready`. -/
def finish (self : Executor) (task_id : TaskId) : Executor :=
  { self with tasks := self.tasks.erase task_id, waker_cache := self.waker_cache.erase task_id }

/-- The wakes of one interrupt handler. -/
def wake_all (self : Executor) (ids : List TaskId) : Result Executor := do
  let task_queue ← ids.foldlM (fun task_queue id => TaskWaker.wake_task ⟨id⟩ task_queue) self.task_queue
  return { self with task_queue := task_queue }

end Executor

def Executor.Live (self : Executor) (id : TaskId) : Prop := self.tasks[id]?.isSome = true

theorem TaskWaker.wake_task_eq_ok_iff {self : TaskWaker} {task_queue after : TaskQueue} :
    self.wake_task task_queue = ok after ↔
      task_queue.items.length < 100 ∧ after.items = task_queue.items ++ [self.task_id] := by
  rw [← ArrayQueue.push_eq_ok_iff, wake_task]
  cases hpush : task_queue.push self.task_id with
  | ok queue => simp
  | error id => simp

/-- The wakes of a handler append to the queue, if there is room. -/
theorem wakes_eq_ok_iff {ids : List TaskId} {task_queue after : TaskQueue} :
    ids.foldlM (fun queue id => TaskWaker.wake_task ⟨id⟩ queue) task_queue = ok after ↔
      task_queue.items.length + ids.length ≤ 100 ∧ after.items = task_queue.items ++ ids := by
  induction ids generalizing task_queue with
  | nil =>
    have hle := task_queue.length_le
    simp [pure_eq_ok, ArrayQueue.ext_iff, eq_comm, hle]
  | cons id ids ih =>
    rw [List.foldlM_cons, bind_eq_ok_iff]
    constructor
    · rintro ⟨next, hwake, hrest⟩
      obtain ⟨_, hnext⟩ := TaskWaker.wake_task_eq_ok_iff.mp hwake
      obtain ⟨hroom, hafter⟩ := ih.mp hrest
      rw [hnext] at hroom hafter
      simp only [List.length_append, List.length_cons, List.length_nil, List.append_assoc,
        List.singleton_append] at hroom hafter ⊢
      exact ⟨by omega, hafter⟩
    · rintro ⟨hroom, hafter⟩
      rw [List.length_cons] at hroom
      have hlt : task_queue.items.length < 100 := by omega
      obtain ⟨next, hpush⟩ : ∃ next, task_queue.push id = .ok next := ⟨_, dif_pos hlt⟩
      have hitems := (ArrayQueue.push_eq_ok_iff.mp hpush).2
      refine ⟨next, TaskWaker.wake_task_eq_ok_iff.mpr ⟨hlt, hitems⟩, ih.mpr ?_⟩
      rw [hitems, List.length_append, List.length_singleton, List.append_assoc, List.singleton_append]
      exact ⟨by omega, hafter⟩

/-- What a wake does to the executor: it appends to the queue. -/
theorem Executor.wake_all_inv {self after : Executor} {ids : List TaskId} (h : self.wake_all ids = ok after) :
    after.tasks = self.tasks ∧ after.waker_cache = self.waker_cache ∧
      after.task_queue.items = self.task_queue.items ++ ids := by
  rw [wake_all, bind_eq_ok_iff] at h
  obtain ⟨task_queue, hfold, hafter⟩ := h
  obtain rfl := ok.inj hafter
  exact ⟨rfl, rfl, (wakes_eq_ok_iff.mp hfold).2⟩

theorem Executor.wake_all_returns {self : Executor} {ids : List TaskId}
    (h : self.task_queue.items.length + ids.length ≤ 100) : ∃ after, self.wake_all ids = ok after := by
  let queue : TaskQueue := ⟨self.task_queue.items ++ ids, by rwa [List.length_append]⟩
  have hfold : ids.foldlM (fun queue id => TaskWaker.wake_task ⟨id⟩ queue) self.task_queue = ok queue :=
    wakes_eq_ok_iff.mpr ⟨h, rfl⟩
  exact ⟨{ self with task_queue := queue }, by rw [wake_all, hfold, bind_tc_ok, pure_eq_ok]⟩

theorem Executor.wake_all_full {self : Executor} (h : self.task_queue.items.length = 100) (id : TaskId) :
    self.wake_all [id] = fail (.expect "task_queue full") := by
  have hfull : TaskWaker.wake_task ⟨id⟩ self.task_queue = fail (.expect "task_queue full") := by
    rw [TaskWaker.wake_task, ArrayQueue.push_eq_error_iff.mpr ⟨h, rfl⟩]
  rw [wake_all, List.foldlM_cons, hfull]
  rfl

theorem Executor.spawn_inv {self after : Executor} {task : Task} (h : self.spawn task = ok after) :
    after.tasks = self.tasks.insert task.id task ∧ after.waker_cache = self.waker_cache ∧
      after.task_queue.items = self.task_queue.items ++ [task.id] := by
  unfold spawn at h
  split at h
  case isTrue => cases h
  case isFalse =>
    split at h
    case h_1 hpush =>
      obtain rfl := ok.inj h
      exact ⟨rfl, rfl, (ArrayQueue.push_eq_ok_iff.mp hpush).2⟩
    case h_2 => cases h

theorem Executor.pop_some_inv {self after : Executor} {id : TaskId} (h : self.pop = (some id, after)) :
    after.tasks = self.tasks ∧ after.waker_cache = self.waker_cache ∧
      self.task_queue.items = id :: after.task_queue.items := by
  obtain ⟨hid, rfl⟩ := Prod.mk.inj h
  exact ⟨rfl, rfl, ArrayQueue.pop_eq_some_iff.mp (Prod.ext hid rfl)⟩

theorem Executor.pop_none_inv {self after : Executor} (h : self.pop = (none, after)) :
    after = self ∧ self.task_queue.items = [] := by
  obtain ⟨hnone, rfl⟩ := Prod.mk.inj h
  obtain ⟨hitems, hsame⟩ := ArrayQueue.pop_eq_none_iff.mp (Prod.ext hnone rfl)
  exact ⟨congrArg (fun queue => { self with task_queue := queue }) hsame, hitems⟩

/-- A poll is begun with a waker from the cache, or with a new one. -/
theorem Executor.begin_poll_inv {self after : Executor} {id : TaskId} {waker : TaskWaker}
    (h : self.begin_poll id = some (waker, after)) :
    self.Live id ∧ after.tasks = self.tasks ∧ after.task_queue = self.task_queue ∧
      ∀ (other : TaskId) (cached : TaskWaker), after.waker_cache[other]? = some cached →
        self.waker_cache[other]? = some cached ∨ other = id ∧ cached = ⟨id⟩ := by
  unfold begin_poll at h
  split at h
  case h_1 => cases h
  case h_2 task htask =>
    have hlive : self.Live id := by rw [Live, htask, Option.isSome_some]
    split at h
    case h_1 =>
      obtain ⟨_, rfl⟩ := Prod.mk.inj (Option.some.inj h)
      exact ⟨hlive, rfl, rfl, fun _ _ hcached => Or.inl hcached⟩
    case h_2 =>
      obtain ⟨_, rfl⟩ := Prod.mk.inj (Option.some.inj h)
      refine ⟨hlive, rfl, rfl, fun other cached hcached => ?_⟩
      rw [BTreeMap.getElem?_insert] at hcached
      split at hcached
      case isTrue heq => exact Or.inr ⟨heq.symm, (Option.some.inj hcached).symm⟩
      case isFalse => exact Or.inl hcached

theorem Executor.begin_poll_waker {self after : Executor} {id : TaskId} {waker : TaskWaker}
    (h : self.begin_poll id = some (waker, after)) : waker = ⟨id⟩ ∨ self.waker_cache[id]? = some waker := by
  unfold begin_poll at h
  split at h
  case h_1 => cases h
  case h_2 =>
    split at h
    case h_1 hcached =>
      obtain ⟨rfl, _⟩ := Prod.mk.inj (Option.some.inj h)
      exact Or.inr hcached
    case h_2 => exact Or.inl (Prod.mk.inj (Option.some.inj h)).1.symm

theorem Executor.begin_poll_eq_none_iff {self : Executor} {id : TaskId} :
    self.begin_poll id = none ↔ ¬ self.Live id := by
  unfold begin_poll Live
  cases htask : self.tasks[id]? with
  | none => simp
  | some task =>
    cases hcached : self.waker_cache[id]? with
    | none => simp
    | some waker => simp

theorem Executor.live_finish_iff {self : Executor} {id other : TaskId} :
    (self.finish id).Live other ↔ other ≠ id ∧ self.Live other := by
  rw [Live, finish, BTreeMap.getElem?_erase]
  split
  case isTrue heq => simp [heq]
  case isFalse hne => simp [Live, Ne.symm hne]

theorem Executor.live_insert_iff {self : Executor} {after : Executor} {task : Task} {other : TaskId}
    (h : after.tasks = self.tasks.insert task.id task) :
    after.Live other ↔ other = task.id ∨ self.Live other := by
  rw [Live, h, BTreeMap.getElem?_insert]
  split
  case isTrue heq => simp [heq]
  case isFalse hne => simp [Live, Ne.symm hne]

/-- Where the executor is. -/
inductive Control where
  /-- in `kernel_main`, before `run` -/
  | starting
  /-- at the head of the loop in `run_ready_tasks` -/
  | ready
  /-- with an id that was taken from the queue -/
  | popped (id : TaskId)
  /-- in `Task::poll` -/
  | polling (id : TaskId)
  /-- at the start of `sleep_if_idle` -/
  | idle
  /-- before the check of the queue, with interrupts disabled -/
  | checking
  /-- before `enable_and_hlt` -/
  | halting
  /-- before `enable` -/
  | resuming
  /-- in `hlt` -/
  | halted
deriving DecidableEq

/-- The machine: the executor, its program counter and the interrupt flag. -/
structure Machine where
  exec : Executor
  control : Control
  interrupts : Bool

/-- `kernel_main` starts the executor with interrupts enabled. -/
def Machine.boot : Machine := ⟨.new, .starting, true⟩

inductive Label where
  | spawned (id : TaskId)
  | started
  | popped (id : TaskId)
  | drained
  | discarded (id : TaskId)
  | began (id : TaskId)
  | woke (id : TaskId)
  | finished (id : TaskId)
  | suspended (id : TaskId)
  | disabled
  | checked (empty : Bool)
  | halted
  | enabled
  | interrupted (ids : List TaskId)
deriving DecidableEq

/-- The steps of the machine. `Executor::spawn` needs the executor exclusively,
so nothing is spawned once it runs. An interrupt handler runs to its end and
ends a halt. -/
inductive Step : Machine → Label → Machine → Prop where
  | spawn {m : Machine} {task : Task} {executor : Executor} (hcontrol : m.control = .starting)
      (hcall : m.exec.spawn task = ok executor) :
      Step m (.spawned task.id) { m with exec := executor }
  | run {m : Machine} (hcontrol : m.control = .starting) : Step m .started { m with control := .ready }
  | pop {m : Machine} {id : TaskId} {executor : Executor} (hcontrol : m.control = .ready)
      (hcall : m.exec.pop = (some id, executor)) :
      Step m (.popped id) { m with exec := executor, control := .popped id }
  | drain {m : Machine} {executor : Executor} (hcontrol : m.control = .ready)
      (hcall : m.exec.pop = (none, executor)) :
      Step m .drained { m with exec := executor, control := .idle }
  | discard {m : Machine} {id : TaskId} (hcontrol : m.control = .popped id)
      (hcall : m.exec.begin_poll id = none) : Step m (.discarded id) { m with control := .ready }
  | beginPoll {m : Machine} {id : TaskId} {waker : TaskWaker} {executor : Executor}
      (hcontrol : m.control = .popped id) (hcall : m.exec.begin_poll id = some (waker, executor)) :
      Step m (.began id) { m with exec := executor, control := .polling id }
  | wake {m : Machine} {id woken : TaskId} {executor : Executor} (hcontrol : m.control = .polling id)
      (hcall : m.exec.wake_all [woken] = ok executor) : Step m (.woke woken) { m with exec := executor }
  | pollReady {m : Machine} {id : TaskId} (hcontrol : m.control = .polling id) :
      Step m (.finished id) { m with exec := m.exec.finish id, control := .ready }
  | pollPending {m : Machine} {id : TaskId} (hcontrol : m.control = .polling id) :
      Step m (.suspended id) { m with control := .ready }
  | disable {m : Machine} (hcontrol : m.control = .idle) :
      Step m .disabled { m with control := .checking, interrupts := false }
  | check {m : Machine} (hcontrol : m.control = .checking) :
      Step m (.checked m.exec.task_queue.is_empty)
        { m with control := if m.exec.task_queue.is_empty then .halting else .resuming }
  | halt {m : Machine} (hcontrol : m.control = .halting) :
      Step m .halted { m with control := .halted, interrupts := true }
  | enable {m : Machine} (hcontrol : m.control = .resuming) :
      Step m .enabled { m with control := .ready, interrupts := true }
  | interrupt {m : Machine} {ids : List TaskId} {executor : Executor} (hinterrupts : m.interrupts = true)
      (hcall : m.exec.wake_all ids = ok executor) :
      Step m (.interrupted ids)
        { m with exec := executor, control := if m.control = .halted then .ready else m.control }

end conc_os.task.executor
