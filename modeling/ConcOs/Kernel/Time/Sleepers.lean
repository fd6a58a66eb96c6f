import ConcOs.Rust.Run
import ConcOs.Kernel.Time

open rust Result
open conc_os.time

namespace conc_os.task.time

variable {Waker : Type}

/-- The timer's statics and the futures that have not been dropped. -/
structure World (Waker : Type) where
  ticks : UInt64
  next_id : UInt64
  timers : Timers Waker
  tasks : List TimeTask

def World.boot : World Waker := ⟨0, 0, ∅, []⟩

/-- What a step does to the futures and their wakers. -/
inductive Label (Waker : Type) where
  | ticked (woken : List (Key × Waker))
  | created (task : TimeTask)
  | polled (task : TimeTask) (waker : Waker) (result : Poll)
  | dropped (task : TimeTask)

/-- The timer interrupt and the operations on futures. The lock of `TIMERS`
makes each of them atomic. -/
inductive Step (overflow_checks : Bool) : World Waker → Label Waker → World Waker → Prop where
  | tick {w : World Waker} {woken : List (Key × Waker)} {ticks : UInt64} {timers : Timers Waker}
      (hcall : tick overflow_checks w.ticks w.timers = ok (woken, ticks, timers)) :
      Step overflow_checks w (.ticked woken) { w with ticks := ticks, timers := timers }
  | new {w : World Waker} {duration_ms next_id : UInt64} {task : TimeTask}
      (hcall : TimeTask.new overflow_checks w.ticks w.next_id duration_ms = ok (task, next_id)) :
      Step overflow_checks w (.created task) { w with next_id := next_id, tasks := task :: w.tasks }
  | poll {w : World Waker} {task : TimeTask} {waker : Waker} {result : Poll} {timers : Timers Waker}
      (htask : task ∈ w.tasks)
      (hcall : task.poll overflow_checks w.ticks w.timers waker = ok (result, timers)) :
      Step overflow_checks w (.polled task waker result) { w with timers := timers }
  | drop {w : World Waker} {task : TimeTask} (htask : task ∈ w.tasks) :
      Step overflow_checks w (.dropped task)
        { w with timers := task.drop w.timers, tasks := w.tasks.erase task }

namespace Label

/-- The entries a step wakes. -/
def woken : Label Waker → List (Key × Waker)
  | ticked woken => woken
  | _ => []

def task? : Label Waker → Option TimeTask
  | created task => some task
  | _ => none

def isTick : Label Waker → Bool
  | ticked _ => true
  | _ => false

def Polls (task : TimeTask) (label : Label Waker) : Prop := ∃ waker result, label = polled task waker result

/-- The steps that decide whether a task is asleep. -/
def Concerns (task : TimeTask) (label : Label Waker) : Prop :=
  label.Polls task ∨ label = dropped task ∨ ∃ waker, (task.key, waker) ∈ label.woken

end Label

/-- The futures created so far. -/
def createdTasks (trace : List (Label Waker)) : List TimeTask := trace.filterMap Label.task?

@[simp] theorem createdTasks_snoc (trace : List (Label Waker)) (label : Label Waker) :
    createdTasks (trace ++ [label]) = createdTasks trace ++ label.task?.toList :=
  filterMap_snoc _ _ _

/-- A task was last polled with `waker`, was then pending, and has neither been
woken nor dropped since. -/
def Waiting (trace : List (Label Waker)) (task : TimeTask) (waker : Waker) : Prop :=
  ∃ after, Since (Label.Concerns task) trace (.polled task waker .Pending) after

/-- The number of times a task has been woken through its entry. -/
def wakes (task : TimeTask) (labels : List (Label Waker)) : Nat :=
  ((labels.flatMap Label.woken).map Prod.fst).count task.key

/-- Neither the ids nor the milliseconds have overflowed. -/
structure Bounded (trace : List (Label Waker)) : Prop where
  created : (createdTasks trace).length < 2 ^ 64
  ticked : trace.countP Label.isTick * 1000 < 2 ^ 64

theorem Bounded.of_snoc {trace : List (Label Waker)} {label : Label Waker} (h : Bounded (trace ++ [label])) :
    Bounded trace := by
  have hsublist : trace.Sublist (trace ++ [label]) := List.sublist_append_left trace [label]
  exact ⟨(hsublist.filterMap _).length_le.trans_lt h.created,
    (Nat.mul_le_mul_right 1000 hsublist.countP_le).trans_lt h.ticked⟩

theorem waiting_snoc_iff {trace : List (Label Waker)} {label : Label Waker} {task : TimeTask} {waker : Waker} :
    Waiting (trace ++ [label]) task waker ↔
      label = .polled task waker .Pending ∨ ¬ label.Concerns task ∧ Waiting trace task waker := by
  constructor
  · rintro ⟨after, hsince⟩
    rcases hsince.snoc_cases with ⟨_, hlast, _⟩ | ⟨since, hquiet, _, hsince⟩
    · exact Or.inl hlast.symm
    · exact Or.inr ⟨hquiet, since, hsince⟩
  · rintro (rfl | ⟨hquiet, after, hsince⟩)
    · exact ⟨[], .start trace (Or.inl ⟨waker, .Pending, rfl⟩)⟩
    · exact ⟨_, hsince.snoc hquiet⟩

/-- The counters count, so the ids are distinct. -/
structure Counted (trace : List (Label Waker)) (w : World Waker) : Prop where
  ticks : w.ticks.toNat = trace.countP Label.isTick
  next_id : w.next_id.toNat = (createdTasks trace).length
  ids : (createdTasks trace).map (fun task => task.id.toNat) = List.range (createdTasks trace).length
  tasks : ∀ task, task ∈ w.tasks ↔ task ∈ createdTasks trace ∧ .dropped task ∉ trace
  dropped : ∀ task, .dropped task ∈ trace → task ∈ createdTasks trace
  nodup : w.tasks.Nodup

/-- The entries of `TIMERS` are the sleepers, all of which are due later. -/
structure Asleep (trace : List (Label Waker)) (w : World Waker) : Prop where
  entries : ∀ task waker, w.timers[task.key]? = some waker ↔ Waiting trace task waker
  owned : ∀ task waker, Waiting trace task waker → task ∈ w.tasks
  future : ∀ (key : Key) (waker : Waker), w.timers[key]? = some waker → w.ticks < key.1

theorem toNat_succ {n : UInt64} (h : n.toNat + 1 < 2 ^ 64) : (n + 1).toNat = n.toNat + 1 := by
  rw [UInt64.toNat_add]
  exact Nat.mod_eq_of_lt h

theorem Counted.boot : Counted ([] : List (Label Waker)) World.boot where
  ticks := rfl
  next_id := rfl
  ids := rfl
  tasks := by simp [World.boot, createdTasks]
  dropped := by simp
  nodup := List.nodup_nil

/-- A new id is not that of a task created before. -/
theorem Counted.fresh {trace : List (Label Waker)} {w : World Waker} (h : Counted trace w) {task : TimeTask}
    (hid : task.id = w.next_id) : task ∉ createdTasks trace := by
  intro hmem
  have hrange := List.mem_map_of_mem (f := fun task => task.id.toNat) hmem
  rw [h.ids, List.mem_range, hid, h.next_id] at hrange
  exact Nat.lt_irrefl _ hrange

theorem Counted.step {overflow_checks : Bool} {trace : List (Label Waker)} {w w' : World Waker}
    {label : Label Waker} (h : Counted trace w) (hstep : Step overflow_checks w label w')
    (hbound : Bounded (trace ++ [label])) : Counted (trace ++ [label]) w' := by
  obtain ⟨hcreated, hticked⟩ := hbound
  rw [createdTasks_snoc, List.length_append] at hcreated
  rw [List.countP_append] at hticked
  cases hstep with
  | tick hcall =>
    obtain ⟨rfl, _⟩ := tick_inv hcall
    refine ⟨?_, by simpa [Label.task?] using h.next_id, by simpa [Label.task?] using h.ids,
      by simpa [Label.task?] using h.tasks, by simpa [Label.task?] using h.dropped, h.nodup⟩
    simp only [List.countP_append, List.countP_singleton, Label.isTick, if_true, ← h.ticks] at hticked ⊢
    exact toNat_succ (by omega)
  | @new _ _ task hcall =>
    obtain ⟨hid, rfl⟩ := new_inv hcall
    have hfresh := h.fresh hid
    simp only [Label.task?, Option.toList_some, List.length_singleton, ← h.next_id] at hcreated
    refine ⟨by simpa [Label.isTick] using h.ticks, ?_, ?_, ?_, ?_, ?_⟩
    · simpa [Label.task?, ← h.next_id] using toNat_succ hcreated
    · simp [Label.task?, h.ids, hid, h.next_id, List.range_succ]
    · intro other
      rw [List.mem_cons, h.tasks]
      by_cases hother : other = task
      · subst hother
        simpa [Label.task?] using fun hdropped => hfresh (h.dropped other hdropped)
      · simp [Label.task?, hother]
    · intro other hdropped
      have hold : .dropped other ∈ trace := by simpa using hdropped
      simp [Label.task?, h.dropped other hold]
    · exact List.nodup_cons.mpr ⟨fun hmem => hfresh ((h.tasks _).mp hmem).1, h.nodup⟩
  | poll htask hcall =>
    exact ⟨by simpa [Label.isTick] using h.ticks, by simpa [Label.task?] using h.next_id,
      by simpa [Label.task?] using h.ids, by simpa [Label.task?] using h.tasks,
      by simpa [Label.task?] using h.dropped, h.nodup⟩
  | drop htask =>
    refine ⟨by simpa [Label.isTick] using h.ticks, by simpa [Label.task?] using h.next_id,
      by simpa [Label.task?] using h.ids, fun other => ?_, fun other hother => ?_, h.nodup.erase _⟩
    · rw [h.nodup.mem_erase_iff, h.tasks]
      simp only [createdTasks_snoc, Label.task?, Option.toList_none, List.append_nil, List.mem_append,
        List.mem_singleton, Label.dropped.injEq, not_or]
      exact ⟨fun hall => ⟨hall.2.1, hall.2.2, hall.1⟩, fun hall => ⟨hall.2.2, hall.1, hall.2.1⟩⟩
    · simp only [createdTasks_snoc, Label.task?, Option.toList_none, List.append_nil]
      rcases List.mem_append.mp hother with hold | hnew
      · exact h.dropped other hold
      · obtain rfl := Label.dropped.inj (List.mem_singleton.mp hnew)
        exact ((h.tasks other).mp htask).1

theorem Asleep.boot : Asleep ([] : List (Label Waker)) World.boot := by
  have hnone : ∀ (task : TimeTask) (waker : Waker), ¬ Waiting [] task waker := by
    rintro task waker ⟨after, ⟨before, hsplit⟩, _⟩
    simp at hsplit
  refine ⟨?_, ?_, ?_⟩
  · simp [World.boot, hnone]
  · simp [hnone]
  · simp [World.boot]

theorem TimeTask.key_inj {task other : TimeTask} : task.key = other.key ↔ task = other := by
  cases task
  cases other
  simp [key]

theorem waiting_snoc_of_not_concerns {trace : List (Label Waker)} {label : Label Waker} {task : TimeTask}
    (h : ¬ label.Concerns task) (waker : Waker) :
    Waiting (trace ++ [label]) task waker ↔ Waiting trace task waker := by
  rw [waiting_snoc_iff, and_iff_right h, or_iff_right]
  rintro rfl
  exact h (Or.inl ⟨waker, .Pending, rfl⟩)

theorem waiting_snoc_of_concerns {trace : List (Label Waker)} {label : Label Waker} {task : TimeTask}
    (h : label.Concerns task) (waker : Waker) :
    Waiting (trace ++ [label]) task waker ↔ label = .polled task waker .Pending := by
  rw [waiting_snoc_iff, or_iff_left fun hquiet => hquiet.1 h]

/-- An operation that concerns one task, and changes no other entry. -/
theorem Asleep.put {trace : List (Label Waker)} {w w' : World Waker} {label : Label Waker} {task : TimeTask}
    (h : Asleep trace w) (hconcerns : ∀ other, label.Concerns other ↔ other = task) (hticks : w'.ticks = w.ticks)
    (hothers : ∀ other : Key, other ≠ task.key → w'.timers[other]? = w.timers[other]?)
    (hself : ∀ waker, w'.timers[task.key]? = some waker ↔ label = .polled task waker .Pending)
    (htasks : ∀ other ∈ w.tasks, other ≠ task → other ∈ w'.tasks)
    (hpending : ∀ waker, label = .polled task waker .Pending → task ∈ w'.tasks ∧ w.ticks < task.deadline_ms) :
    Asleep (trace ++ [label]) w' := by
  refine ⟨fun other waker => ?_, fun other waker hwait => ?_, fun key waker hheld => ?_⟩
  · by_cases hother : other = task
    · rw [waiting_snoc_of_concerns ((hconcerns other).mpr hother), hother, hself]
    · rw [waiting_snoc_of_not_concerns (mt (hconcerns other).mp hother), ← h.entries,
        hothers _ (mt TimeTask.key_inj.mp hother)]
  · by_cases hother : other = task
    · rw [waiting_snoc_of_concerns ((hconcerns other).mpr hother), hother] at hwait
      exact hother ▸ (hpending waker hwait).1
    · rw [waiting_snoc_of_not_concerns (mt (hconcerns other).mp hother)] at hwait
      exact htasks other (h.owned other waker hwait) hother
  · rw [hticks]
    by_cases hkey : key = task.key
    · subst hkey
      exact (hpending waker ((hself waker).mp hheld)).2
    · exact h.future key waker (hothers key hkey ▸ hheld)

theorem Asleep.create {trace : List (Label Waker)} {w : World Waker} (h : Asleep trace w) (task : TimeTask)
    (next_id : UInt64) :
    Asleep (trace ++ [.created task]) { w with next_id := next_id, tasks := task :: w.tasks } := by
  have hquiet : ∀ other, ¬ (Label.created task : Label Waker).Concerns other := by
    simp [Label.Concerns, Label.Polls, Label.woken]
  refine ⟨fun other waker => ?_, fun other waker hwait => ?_, h.future⟩
  · rw [waiting_snoc_of_not_concerns (hquiet other)]
    exact h.entries other waker
  · rw [waiting_snoc_of_not_concerns (hquiet other)] at hwait
    exact List.mem_cons_of_mem task (h.owned other waker hwait)

/-- A tick concerns the tasks that are due. -/
theorem Asleep.tick {trace : List (Label Waker)} {w : World Waker} (h : Asleep trace w) {now : UInt64}
    {woken : List (Key × Waker)} {timers : Timers Waker} (hexpired : Expired now w.timers (woken, timers)) :
    Asleep (trace ++ [.ticked woken]) { w with ticks := now, timers := timers } := by
  have hwaiting : ∀ task waker, Waiting (trace ++ [.ticked woken]) task waker ↔
      ¬ task.deadline_ms ≤ now ∧ Waiting trace task waker := by
    intro task waker
    rw [waiting_snoc_iff, or_iff_right (by simp)]
    refine and_congr_left fun hwait => not_congr ?_
    have hheld := (h.entries task waker).mpr hwait
    simp only [Label.Concerns, Label.Polls, Label.woken, hexpired.woken, hheld]
    simp [TimeTask.key]
  refine ⟨fun task waker => ?_, fun task waker hwait => ?_, fun key waker hheld => ?_⟩
  · rw [hwaiting, ← h.entries, hexpired.kept]
    change (if task.deadline_ms ≤ now then none else w.timers[task.key]?) = some waker ↔ _
    split
    case isTrue hdue => simp [hdue]
    case isFalse hlate => exact (and_iff_right hlate).symm
  · exact h.owned task waker ((hwaiting task waker).mp hwait).2
  · rw [hexpired.kept] at hheld
    split at hheld
    · cases hheld
    · exact UInt64.not_le.mp ‹_›

theorem Asleep.step {overflow_checks : Bool} {trace : List (Label Waker)} {w w' : World Waker}
    {label : Label Waker} (h : Asleep trace w) (hstep : Step overflow_checks w label w')
    (hclock : now_ms overflow_checks w.ticks = ok w.ticks)
    (hclock' : now_ms overflow_checks w'.ticks = ok w'.ticks) : Asleep (trace ++ [label]) w' := by
  cases hstep with
  | tick hcall =>
    obtain ⟨_, now, hnow, hexpired⟩ := tick_inv hcall
    obtain rfl := ok.inj (hnow.symm.trans hclock')
    exact h.tick hexpired
  | new hcall => exact h.create _ _
  | @poll task waker result timers htask hcall =>
    have hconcerns : ∀ other, (Label.polled task waker result).Concerns other ↔ other = task := by
      simp [Label.Concerns, Label.Polls, Label.woken, eq_comm]
    obtain ⟨now, hnow, hcases⟩ := poll_inv hcall
    obtain rfl := ok.inj (hnow.symm.trans hclock)
    refine h.put hconcerns rfl (poll_other hcall) (fun held => ?_) (fun _ hmem _ => hmem) (fun held hlabel => ?_)
    · rcases hcases with ⟨rfl, _, rfl⟩ | ⟨rfl, _, rfl⟩ <;> simp
    · rcases hcases with ⟨rfl, _, _⟩ | ⟨rfl, hlate, _⟩
      · simp at hlabel
      · exact ⟨htask, hlate⟩
  | @drop task htask =>
    have hconcerns : ∀ other, (Label.dropped task : Label Waker).Concerns other ↔ other = task := by
      simp [Label.Concerns, Label.Polls, Label.woken, eq_comm]
    refine h.put hconcerns rfl (fun other hother => ?_) (fun held => ?_) (fun other hmem hother => ?_) (by simp)
    · rw [TimeTask.drop, BTreeMap.getElem?_erase, if_neg hother.symm]
    · simp [TimeTask.drop]
    · exact (List.mem_erase_of_ne hother).mpr hmem

theorem Counted.clock {trace : List (Label Waker)} {w : World Waker} (h : Counted trace w)
    (hbound : Bounded trace) (overflow_checks : Bool) : now_ms overflow_checks w.ticks = ok w.ticks := by
  apply now_ms_eq
  rw [h.ticks]
  exact hbound.ticked

theorem run_consistent {overflow_checks : Bool} {trace : List (Label Waker)} {w : World Waker}
    (hrun : Run (Step overflow_checks) World.boot trace w) (hbound : Bounded trace) :
    Counted trace w ∧ Asleep trace w := by
  induction hrun with
  | nil => exact ⟨.boot, .boot⟩
  | snoc _ hstep ih =>
    obtain ⟨hcounted, hasleep⟩ := ih hbound.of_snoc
    have hnext := hcounted.step hstep hbound
    exact ⟨hnext, hasleep.step hstep (hcounted.clock hbound.of_snoc _) (hnext.clock hbound _)⟩

/-- Whether a task has an entry, as a number. -/
def held (w : World Waker) (task : TimeTask) : Nat := if w.timers[task.key]?.isSome then 1 else 0

/-- A wake uses up the entry of the task, and only a poll makes a new one. -/
theorem Step.wakes_le {overflow_checks : Bool} {w w' : World Waker} {label : Label Waker} {task : TimeTask}
    (hstep : Step overflow_checks w label w') (hpoll : ¬ label.Polls task) :
    wakes task [label] + held w' task ≤ held w task := by
  cases hstep with
  | tick hcall =>
    obtain ⟨_, now, _, hexpired⟩ := tick_inv hcall
    simp only [wakes, List.flatMap_singleton, Label.woken, held]
    exact hexpired.count_le task.key
  | new hcall => simp [wakes, Label.woken, held]
  | @poll other waker result timers htask hcall =>
    have hother : task.key ≠ other.key := by
      intro heq
      exact hpoll ⟨waker, result, by rw [TimeTask.key_inj.mp heq]⟩
    simp [wakes, Label.woken, held, poll_other hcall _ hother]
  | @drop other htask =>
    simp only [wakes, List.flatMap_singleton, Label.woken, List.map_nil, List.count_nil, Nat.zero_add, held,
      TimeTask.drop, BTreeMap.getElem?_erase]
    split <;> simp

/-- Between two polls a task is woken at most once. -/
theorem run_wakes_le {overflow_checks : Bool} {trace after : List (Label Waker)} {w : World Waker}
    (hrun : Run (Step overflow_checks) World.boot trace w) {task : TimeTask} {mark : Label Waker}
    (hsince : Since (Label.Polls task) trace mark after) : wakes task after + held w task ≤ 1 := by
  induction hrun generalizing after with
  | nil =>
    obtain ⟨before, hsplit⟩ := hsince.split
    simp at hsplit
  | @snoc _ label _ next _ hstep ih =>
    rcases hsince.snoc_cases with ⟨_, _, rfl⟩ | ⟨since, hquiet, rfl, hbefore⟩
    · simp only [wakes, List.flatMap_nil, List.map_nil, List.count_nil, held]
      split <;> omega
    · have hold := ih hbefore
      have hless := hstep.wakes_le hquiet
      have hsum : wakes task (since ++ [label]) = wakes task since + wakes task [label] := by
        simp [wakes]
      omega

/-- Nothing is woken through the entry of a dropped task. -/
theorem run_dropped_not_woken {overflow_checks : Bool} {trace : List (Label Waker)} {w : World Waker}
    (hrun : Run (Step overflow_checks) World.boot trace w) (hbound : Bounded trace) :
    trace.Pairwise fun earlier later =>
      ∀ task waker, earlier = .dropped task → (task.key, waker) ∉ later.woken := by
  induction hrun with
  | nil => exact List.Pairwise.nil
  | @snoc trace label state _ hrun hstep ih =>
    refine List.pairwise_append.mpr ⟨ih hbound.of_snoc, List.pairwise_singleton _ _, ?_⟩
    rintro earlier hearlier later hlater task waker rfl hwoken
    obtain rfl := List.mem_singleton.mp hlater
    obtain ⟨hcounted, hasleep⟩ := run_consistent hrun hbound.of_snoc
    cases hstep with
    | tick hcall =>
      obtain ⟨_, now, _, hexpired⟩ := tick_inv hcall
      have hheld := ((hexpired.woken task.key waker).mp hwoken).1
      have hlive := hasleep.owned task waker ((hasleep.entries task waker).mp hheld)
      exact ((hcounted.tasks task).mp hlive).2 hearlier
    | new | poll | drop => simp [Label.woken] at hwoken

theorem Counted.ids_nodup {trace : List (Label Waker)} {w : World Waker} (h : Counted trace w) :
    ((createdTasks trace).map TimeTask.id).Nodup := by
  have hnodup : ((createdTasks trace).map fun task => task.id.toNat).Nodup := h.ids ▸ List.nodup_range
  exact List.Nodup.of_map UInt64.toNat (by rwa [List.map_map])

theorem Asleep.entries_iff {trace : List (Label Waker)} {w : World Waker} (h : Asleep trace w) (key : Key)
    (waker : Waker) :
    w.timers[key]? = some waker ↔ ∃ task ∈ w.tasks, task.key = key ∧ Waiting trace task waker := by
  constructor
  · intro hheld
    have hwait := (h.entries ⟨key.1, key.2⟩ waker).mp hheld
    exact ⟨⟨key.1, key.2⟩, h.owned _ waker hwait, rfl, hwait⟩
  · rintro ⟨task, _, rfl, hwait⟩
    exact (h.entries task waker).mpr hwait

/-- Whatever the interleaving of ticks and operations, the clock counts the
ticks, the map `TIMERS` is exactly the set of sleepers, and none of them is due. So a sleeper is woken at
the first tick at which it is due, once, and not after it was dropped. -/
theorem sleepers_exact {overflow_checks : Bool} {trace : List (Label Waker)} {w : World Waker}
    (hrun : Run (Step overflow_checks) World.boot trace w) (hbound : Bounded trace) :
    w.ticks.toNat = trace.countP Label.isTick ∧ ((createdTasks trace).map TimeTask.id).Nodup ∧
    (∀ task, task ∈ w.tasks ↔ task ∈ createdTasks trace ∧ .dropped task ∉ trace) ∧
    ∃ now, now_ms overflow_checks w.ticks = ok now ∧ now.toNat = trace.countP Label.isTick ∧
      (∀ (key : Key) (waker : Waker), w.timers[key]? = some waker ↔
        ∃ task ∈ w.tasks, task.key = key ∧ Waiting trace task waker) ∧
      (∀ (key : Key) (waker : Waker), w.timers[key]? = some waker → now < key.1) ∧
      (∀ task waker, Waiting trace task waker → now < task.deadline_ms) ∧
      (∀ task waker after, Since (Label.Polls task) trace (.polled task waker .Pending) after →
        wakes task after ≤ 1) ∧
      ((w.ticks.toNat + 1) * 1000 < 2 ^ 64 → ∃ woken ticks timers now',
        tick overflow_checks w.ticks w.timers = ok (woken, ticks, timers) ∧
        ticks = w.ticks + 1 ∧ now_ms overflow_checks ticks = ok now' ∧ now'.toNat = now.toNat + 1 ∧
        (woken.map Prod.fst).Nodup ∧
        ∀ key waker, (key, waker) ∈ woken ↔
          ∃ task ∈ w.tasks, task.key = key ∧ Waiting trace task waker ∧ task.deadline_ms ≤ now') ∧
      trace.Pairwise fun earlier later =>
        ∀ task waker, earlier = .dropped task → (task.key, waker) ∉ later.woken := by
  obtain ⟨hcounted, hasleep⟩ := run_consistent hrun hbound
  refine ⟨hcounted.ticks, hcounted.ids_nodup, hcounted.tasks, w.ticks, hcounted.clock hbound _, hcounted.ticks,
    hasleep.entries_iff, hasleep.future, ?_, ?_, ?_, run_dropped_not_woken hrun hbound⟩
  · intro task waker hwait
    exact hasleep.future task.key waker ((hasleep.entries task waker).mpr hwait)
  · intro task waker after hsince
    exact (Nat.le_add_right _ _).trans (run_wakes_le hrun hsince)
  · intro hnext
    have hsucc : (w.ticks + 1).toNat = w.ticks.toNat + 1 := toNat_succ (by omega)
    obtain ⟨woken, timers, hcall, hexpired⟩ := tick_returns overflow_checks (hsucc ▸ hnext) w.timers
    refine ⟨woken, w.ticks + 1, timers, w.ticks + 1, hcall, rfl, now_ms_eq _ (hsucc ▸ hnext), hsucc,
      hexpired.nodup, ?_⟩
    intro key waker
    rw [hexpired.woken, hasleep.entries_iff]
    constructor
    · rintro ⟨⟨task, hlive, rfl, hwait⟩, hdue⟩
      exact ⟨task, hlive, rfl, hwait, hdue⟩
    · rintro ⟨task, hlive, rfl, hwait, hdue⟩
      exact ⟨⟨task, hlive, rfl, hwait⟩, hdue⟩

/-- A future of two milliseconds, polled once; the first tick leaves it asleep. -/
theorem sleepers_exact_pending :
    ∃ (trace : List (Label Nat)) (w : World Nat), Run (Step true) World.boot trace w ∧
      trace = [.created ⟨2, 0⟩, .polled ⟨2, 0⟩ 7 .Pending, .ticked []] ∧ Waiting trace ⟨2, 0⟩ 7 ∧
      ∃ now, now_ms true w.ticks = ok now ∧ now.toNat = 1 ∧ now < 2 := by
  let task : TimeTask := ⟨2, 0⟩
  let timers : Timers Nat := (∅ : Timers Nat).insert task.key 7
  have hnew : Step true (World.boot : World Nat) (.created task) ⟨0, 1, ∅, [task]⟩ :=
    .new (show TimeTask.new true 0 0 2 = ok (task, 1) from rfl)
  have hpoll : Step true ⟨0, 1, ∅, [task]⟩ (.polled task 7 .Pending) ⟨0, 1, timers, [task]⟩ := by
    refine .poll (by decide) ?_
    rw [TimeTask.poll, now_ms_eq true (by decide), bind_tc_ok, if_neg (by decide), pure_eq_ok]
  obtain ⟨woken, after, hcall, hexpired⟩ :=
    tick_returns true (show ((0 : UInt64) + 1).toNat * 1000 < 2 ^ 64 by decide) timers
  have hnone : woken = [] := by
    apply List.eq_nil_iff_forall_not_mem.mpr
    rintro ⟨key, waker⟩ hmem
    obtain ⟨hheld, hdue⟩ := (hexpired.woken key waker).mp hmem
    rw [BTreeMap.getElem?_insert] at hheld
    split at hheld
    case isTrue heq => exact absurd (heq ▸ hdue) (by decide)
    case isFalse => simp at hheld
  subst hnone
  have hrun := ((Run.nil.snoc hnew).snoc hpoll).snoc (.tick hcall)
  have hwait : Waiting [.created task, .polled task 7 .Pending, .ticked []] task 7 :=
    (@waiting_snoc_iff _ [.created task, .polled task 7 .Pending] _ _ _).mpr
      (Or.inr ⟨by simp [Label.Concerns, Label.Polls, Label.woken],
        (@waiting_snoc_iff _ [.created task] _ _ _).mpr (Or.inl rfl)⟩)
  obtain ⟨_, _, _, now, hnow, hcount, _, _, hlater, _⟩ := sleepers_exact hrun ⟨by decide, by decide⟩
  exact ⟨_, _, hrun, rfl, hwait, now, hnow, hcount, hlater task 7 hwait⟩

end conc_os.task.time
