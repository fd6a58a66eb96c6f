import ConcOs.Rust.Run
import ConcOs.Kernel.Executor

open rust Result

namespace conc_os.task.executor

/-- The ids a step pushes to wake tasks. -/
def Label.wakes : Label → List TaskId
  | .woke id => [id]
  | .interrupted ids => ids
  | _ => []

/-- The labels of the steps that only move the program counter. -/
def Label.isMove : Label → Bool
  | .started | .drained | .discarded _ | .suspended _ | .disabled | .checked _ | .halted | .enabled => true
  | _ => false

/-- A task that was never polled. -/
def Unpolled (trace : List Label) (id : TaskId) : Prop := .spawned id ∈ trace ∧ .began id ∉ trace

/-- A task that was woken since its last poll began. -/
def Woken (trace : List Label) (id : TaskId) : Prop :=
  ∃ after, Since (· = .began id) trace (.began id) after ∧ ∃ label ∈ after, id ∈ label.wakes

/-- A task that has to be polled, if it is live. -/
def Due (trace : List Label) (id : TaskId) : Prop := Unpolled trace id ∨ Woken trace id

/-- A task becomes due when it is spawned or woken, and stops being due when a
poll of it begins. -/
theorem Due.snoc_cases {trace : List Label} {label : Label} {id : TaskId} (h : Due (trace ++ [label]) id) :
    label ≠ .began id ∧ (Due trace id ∨ label = .spawned id ∨ id ∈ label.wakes) := by
  rcases h with ⟨hspawned, hbegan⟩ | ⟨after, hsince, hwoken⟩
  · simp only [List.mem_append, List.mem_singleton, not_or] at hspawned hbegan
    refine ⟨fun heq => hbegan.2 heq.symm, ?_⟩
    rcases hspawned with hold | hnew
    · exact Or.inl (Or.inl ⟨hold, hbegan.1⟩)
    · exact Or.inr (Or.inl hnew.symm)
  · rcases hsince.snoc_cases with ⟨_, _, rfl⟩ | ⟨since, hlabel, rfl, hold⟩
    · simp at hwoken
    · refine ⟨hlabel, ?_⟩
      obtain ⟨other, hmem, hwakes⟩ := hwoken
      rcases List.mem_append.mp hmem with hmem | hmem
      · exact Or.inl (Or.inr ⟨since, hold, other, hmem, hwakes⟩)
      · rw [List.mem_singleton.mp hmem] at hwakes
        exact Or.inr (Or.inr hwakes)

/-- No wake-up is lost, and the executor's maps agree. -/
structure Consistent (trace : List Label) (m : Machine) : Prop where
  queued : ∀ id, m.exec.Live id → Due trace id → id ∈ m.exec.task_queue.items ∨ m.control = .popped id
  masked : m.control = .checking ∨ m.control = .halting → m.interrupts = false
  empty : m.control = .halting → m.exec.task_queue.items = []
  starting : m.control = .starting → ∀ id, .finished id ∉ trace
  finished : ∀ id, .finished id ∈ trace → ¬ m.exec.Live id
  cached : ∀ (id : TaskId) (waker : TaskWaker), m.exec.waker_cache[id]? = some waker →
    m.exec.Live id ∧ waker.task_id = id

theorem Consistent.boot : Consistent [] .boot where
  queued := by simp [Executor.Live, Machine.boot, Executor.new]
  masked := by simp [Machine.boot]
  empty := by simp [Machine.boot]
  starting := by simp
  finished := by simp
  cached := by simp [Machine.boot, Executor.new]

/-- A step that neither spawns nor finishes a task, and leaves the cache alone,
has to keep the queue. -/
theorem Consistent.keep {trace : List Label} {m m' : Machine} {label : Label} (h : Consistent trace m)
    (htasks : m'.exec.tasks = m.exec.tasks) (hcache : m'.exec.waker_cache = m.exec.waker_cache)
    (hfinish : ∀ id, label ≠ .finished id) (hstarting : m'.control = .starting → m.control = .starting)
    (hqueued : ∀ id, m.exec.Live id → Due (trace ++ [label]) id →
      id ∈ m'.exec.task_queue.items ∨ m'.control = .popped id)
    (hmasked : m'.control = .checking ∨ m'.control = .halting → m'.interrupts = false)
    (hempty : m'.control = .halting → m'.exec.task_queue.items = []) : Consistent (trace ++ [label]) m' := by
  have hlive : ∀ id, m'.exec.Live id ↔ m.exec.Live id := fun id => by rw [Executor.Live, Executor.Live, htasks]
  have hsame : ∀ id, .finished id ∈ trace ++ [label] ↔ .finished id ∈ trace := by
    intro id
    rw [List.mem_append, List.mem_singleton, or_iff_left (hfinish id).symm]
  refine ⟨fun id hid => hqueued id ((hlive id).mp hid), hmasked, hempty, fun hcontrol id hmem => ?_,
    fun id hmem => ?_, fun id waker hwaker => ?_⟩
  · exact h.starting (hstarting hcontrol) id ((hsame id).mp hmem)
  · rw [hlive]
    exact h.finished id ((hsame id).mp hmem)
  · rw [hlive]
    exact h.cached id waker (hcache ▸ hwaker)

theorem Due.of_snoc {trace : List Label} {label : Label} {id : TaskId} (h : Due (trace ++ [label]) id)
    (hwakes : label.wakes = []) (hspawned : label ≠ .spawned id) : Due trace id := by
  obtain ⟨_, hdue | hnew | hwoken⟩ := h.snoc_cases
  · exact hdue
  · exact absurd hnew hspawned
  · simp [hwakes] at hwoken

/-- A step that only moves the program counter. -/
theorem Consistent.move {trace : List Label} {m : Machine} {label : Label} {control : Control}
    {interrupts : Bool} (h : Consistent trace m) (hlabel : label.isMove = true)
    (hstarting : control ≠ .starting) (hpopped : ∀ id, m.control = .popped id → ¬ m.exec.Live id)
    (hmasked : control = .checking ∨ control = .halting → interrupts = false)
    (hempty : control = .halting → m.exec.task_queue.items = []) :
    Consistent (trace ++ [label]) { m with control := control, interrupts := interrupts } := by
  have hwakes : label.wakes = [] := by cases label <;> first | rfl | cases hlabel
  refine h.keep rfl rfl ?_ (fun hcontrol => absurd hcontrol hstarting) (fun id hlive hdue => ?_) hmasked hempty
  · rintro id rfl
    cases hlabel
  have hspawned : label ≠ .spawned id := by
    rintro rfl
    cases hlabel
  rcases h.queued id hlive (hdue.of_snoc hwakes hspawned) with hqueued | hcontrol
  · exact Or.inl hqueued
  · exact absurd hlive (hpopped id hcontrol)

/-- Wakes append to the queue. -/
theorem Consistent.wake {trace : List Label} {m : Machine} {label : Label} {executor : Executor}
    {control : Control} (h : Consistent trace m) (hcall : m.exec.wake_all label.wakes = ok executor)
    (hspawned : ∀ id, label ≠ .spawned id) (hfinish : ∀ id, label ≠ .finished id)
    (hcontrol : control = m.control ∨ m.control = .halted ∧ control = .ready)
    (hunmasked : control ≠ .checking ∧ control ≠ .halting) :
    Consistent (trace ++ [label]) { m with exec := executor, control := control } := by
  obtain ⟨htasks, hcache, hitems⟩ := Executor.wake_all_inv hcall
  refine h.keep htasks hcache hfinish (fun hstart => ?_) (fun id hlive hdue => ?_)
    (fun hmasked => absurd hmasked (not_or.mpr hunmasked)) (fun hhalting => absurd hhalting hunmasked.2)
  · rcases hcontrol with rfl | ⟨_, rfl⟩
    · exact hstart
    · cases hstart
  · simp only [hitems, List.mem_append]
    obtain ⟨_, hold | hnew | hwoken⟩ := hdue.snoc_cases
    · rcases h.queued id hlive hold with hqueued | hpopped
      · exact Or.inl (Or.inl hqueued)
      · rcases hcontrol with rfl | ⟨hhalted, _⟩
        · exact Or.inr hpopped
        · cases hhalted.symm.trans hpopped
    · exact absurd hnew (hspawned id)
    · exact Or.inl (Or.inr hwoken)

theorem Consistent.spawn {trace : List Label} {m : Machine} {task : Task} {executor : Executor}
    (h : Consistent trace m) (hcontrol : m.control = .starting) (hcall : m.exec.spawn task = ok executor) :
    Consistent (trace ++ [.spawned task.id]) { m with exec := executor } := by
  obtain ⟨htasks, hcache, hitems⟩ := Executor.spawn_inv hcall
  have hnone := h.starting hcontrol
  refine ⟨fun id hlive hdue => ?_, h.masked, fun hhalting => ?_, fun _ => by simpa using hnone, by simp [hnone],
    fun id waker hwaker => ?_⟩
  · simp only [hitems, List.mem_append, List.mem_singleton]
    by_cases hid : id = task.id
    · exact Or.inl (Or.inr hid)
    · have hold := ((Executor.live_insert_iff htasks).mp hlive).resolve_left hid
      have hdue' := hdue.of_snoc rfl (by simpa using Ne.symm hid)
      exact (h.queued id hold hdue').imp_left Or.inl
  · cases hcontrol.symm.trans hhalting
  · obtain ⟨hlive, hid⟩ := h.cached id waker (hcache ▸ hwaker)
    exact ⟨(Executor.live_insert_iff htasks).mpr (Or.inr hlive), hid⟩

theorem Consistent.pop {trace : List Label} {m : Machine} {id : TaskId} {executor : Executor}
    (h : Consistent trace m) (hcontrol : m.control = .ready) (hcall : m.exec.pop = (some id, executor)) :
    Consistent (trace ++ [.popped id]) { m with exec := executor, control := .popped id } := by
  obtain ⟨htasks, hcache, hitems⟩ := Executor.pop_some_inv hcall
  refine h.keep htasks hcache (by simp) (by simp) (fun other hlive hdue => ?_) (by simp) (by simp)
  rcases h.queued other hlive (hdue.of_snoc rfl (by simp)) with hqueued | hpopped
  · rw [hitems, List.mem_cons] at hqueued
    rcases hqueued with rfl | hqueued
    · exact Or.inr rfl
    · exact Or.inl hqueued
  · cases hcontrol.symm.trans hpopped

theorem Consistent.beginPoll {trace : List Label} {m : Machine} {id : TaskId} {waker : TaskWaker}
    {executor : Executor} (h : Consistent trace m) (hcontrol : m.control = .popped id)
    (hcall : m.exec.begin_poll id = some (waker, executor)) :
    Consistent (trace ++ [.began id]) { m with exec := executor, control := .polling id } := by
  obtain ⟨hid, htasks, hqueue, hcached⟩ := Executor.begin_poll_inv hcall
  have hlive : ∀ other, executor.Live other ↔ m.exec.Live other :=
    fun other => by rw [Executor.Live, Executor.Live, htasks]
  refine ⟨fun other hother hdue => ?_, by simp, by simp, by simp, fun other hfinished => ?_,
    fun other cached hother => ?_⟩
  · -- the task itself is no longer due, and no other was popped
    have hne : other ≠ id := fun heq => hdue.snoc_cases.1 (by rw [heq])
    rcases h.queued other ((hlive other).mp hother) (hdue.of_snoc rfl (by simp)) with hqueued | hpopped
    · exact Or.inl (hqueue ▸ hqueued)
    · exact absurd (Control.popped.inj (hcontrol.symm.trans hpopped)).symm hne
  · rw [hlive]
    exact h.finished other (by simpa using hfinished)
  · rw [hlive]
    rcases hcached other cached hother with hold | ⟨rfl, rfl⟩
    · exact h.cached other cached hold
    · exact ⟨hid, rfl⟩

theorem Consistent.finish {trace : List Label} {m : Machine} {id : TaskId} (h : Consistent trace m)
    (hcontrol : m.control = .polling id) :
    Consistent (trace ++ [.finished id]) { m with exec := m.exec.finish id, control := .ready } := by
  refine ⟨fun other hother hdue => ?_, by simp, by simp, by simp, fun other hfinished => ?_,
    fun other cached hother => ?_⟩
  · have hlive := (Executor.live_finish_iff.mp hother).2
    rcases h.queued other hlive (hdue.of_snoc rfl (by simp)) with hqueued | hpopped
    · exact Or.inl hqueued
    · cases hcontrol.symm.trans hpopped
  · rw [Executor.live_finish_iff]
    rintro ⟨hne, hlive⟩
    rcases List.mem_append.mp hfinished with hold | hnew
    · exact h.finished other hold hlive
    · exact hne (Label.finished.inj (List.mem_singleton.mp hnew))
  · change (m.exec.waker_cache.erase id)[other]? = some cached at hother
    rw [BTreeMap.getElem?_erase] at hother
    split at hother
    case isTrue => cases hother
    case isFalse hne =>
      obtain ⟨hlive, hid⟩ := h.cached other cached hother
      exact ⟨Executor.live_finish_iff.mpr ⟨Ne.symm hne, hlive⟩, hid⟩

theorem Consistent.step {trace : List Label} {m m' : Machine} {label : Label} (h : Consistent trace m)
    (hstep : Step m label m') : Consistent (trace ++ [label]) m' := by
  cases hstep with
  | spawn hcontrol hcall => exact h.spawn hcontrol hcall
  | run hcontrol => exact h.move rfl (by simp) (by simp [hcontrol]) (by simp) (by simp)
  | pop hcontrol hcall => exact h.pop hcontrol hcall
  | drain hcontrol hcall =>
    obtain ⟨rfl, _⟩ := Executor.pop_none_inv hcall
    exact h.move rfl (by simp) (by simp [hcontrol]) (by simp) (by simp)
  | discard hcontrol hcall =>
    have hdead := Executor.begin_poll_eq_none_iff.mp hcall
    exact h.move rfl (by simp) (by simp [hcontrol, hdead]) (by simp) (by simp)
  | beginPoll hcontrol hcall => exact h.beginPoll hcontrol hcall
  | wake hcontrol hcall => exact h.wake hcall (by simp) (by simp) (Or.inl rfl) (by simp [hcontrol])
  | pollReady hcontrol => exact h.finish hcontrol
  | pollPending hcontrol => exact h.move rfl (by simp) (by simp [hcontrol]) (by simp) (by simp)
  | disable hcontrol => exact h.move rfl (by simp) (by simp [hcontrol]) (by simp) (by simp)
  | check hcontrol =>
    refine h.move rfl ?_ (by simp [hcontrol]) ?_ ?_
    · split <;> simp
    · exact fun _ => h.masked (Or.inl hcontrol)
    · split
      case isTrue hempty => exact fun _ => List.isEmpty_iff.mp hempty
      case isFalse => simp
  | halt hcontrol => exact h.move rfl (by simp) (by simp [hcontrol]) (by simp) (by simp)
  | enable hcontrol => exact h.move rfl (by simp) (by simp [hcontrol]) (by simp) (by simp)
  | interrupt hinterrupts hcall =>
    refine h.wake hcall (by simp) (by simp) ?_ ?_
    · split
      case isTrue hhalted => exact Or.inr ⟨hhalted, rfl⟩
      case isFalse => exact Or.inl rfl
    · -- the queue is checked with interrupts disabled
      have hnot : ¬ (m.control = .checking ∨ m.control = .halting) :=
        fun hmasked => Bool.false_ne_true ((h.masked hmasked).symm.trans hinterrupts)
      split
      case isTrue => simp
      case isFalse => exact not_or.mp hnot

theorem run_consistent {trace : List Label} {m : Machine} (hrun : Run Step .boot trace m) : Consistent trace m :=
  hrun.invariant Consistent .boot fun _ _ _ _ => Consistent.step

theorem Executor.live_of_tasks_eq {self after : Executor} (h : after.tasks = self.tasks) {id : TaskId}
    (hlive : self.Live id) : after.Live id := by rwa [Live, h]

/-- A task lives from its spawn until it finishes. -/
theorem Step.live {m m' : Machine} {label : Label} (hstep : Step m label m') {id : TaskId}
    (hfinish : label ≠ .finished id) (h : label = .spawned id ∨ m.exec.Live id) : m'.exec.Live id := by
  cases hstep with
  | spawn _ hcall =>
    refine (Executor.live_insert_iff (Executor.spawn_inv hcall).1).mpr (h.imp_left fun hlabel => ?_)
    exact (Label.spawned.inj hlabel).symm
  | pollReady =>
    have hne : id ≠ _ := fun heq => hfinish (by rw [heq])
    exact Executor.live_finish_iff.mpr ⟨hne, h.resolve_left (by simp)⟩
  | pop _ hcall => exact Executor.live_of_tasks_eq (Executor.pop_some_inv hcall).1 (h.resolve_left (by simp))
  | drain _ hcall =>
    obtain ⟨rfl, _⟩ := Executor.pop_none_inv hcall
    exact h.resolve_left (by simp)
  | beginPoll _ hcall =>
    exact Executor.live_of_tasks_eq (Executor.begin_poll_inv hcall).2.1 (h.resolve_left (by simp))
  | wake _ hcall | interrupt _ hcall =>
    exact Executor.live_of_tasks_eq (Executor.wake_all_inv hcall).1 (h.resolve_left (by simp))
  | _ => exact h.resolve_left (by simp)

end conc_os.task.executor
