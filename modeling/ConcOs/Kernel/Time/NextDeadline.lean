import ConcOs.Kernel.Time.Sleepers
import Mathlib.Order.Bounds.Defs

open rust Result
open conc_os.time

namespace conc_os.task.time

variable {Waker : Type}

section expire

/-- Entries that are woken already stay in front. -/
theorem loop_expire_step_append (now : UInt64) (fuel : Nat) (timers : Timers Waker)
    (woken : List (Key × Waker)) : loop (expire_step now) fuel (timers, woken) =
      loop (expire_step now) fuel (timers, []) >>= fun result => ok (woken ++ result.1, result.2) := by
  -- what the loop does next depends on the map only, so both sides take the same branch
  induction fuel generalizing timers woken with
  | zero => rfl
  | succ fuel ih =>
    cases hfirst : BTreeMap.first_entry timers with
    | none =>
      have hdone : ∀ woken, expire_step now (timers, woken) = ok (.done (woken, timers)) := by
        simp [expire_step, hfirst]
      rw [loop_done (hdone woken), loop_done (hdone []), bind_tc_ok, List.append_nil]
    | some entry =>
      obtain ⟨key, waker⟩ := entry
      by_cases hlater : key.1 > now
      · have hdone : ∀ woken, expire_step now (timers, woken) = ok (.done (woken, timers)) := by
          simp [expire_step, hfirst, hlater]
        rw [loop_done (hdone woken), loop_done (hdone []), bind_tc_ok, List.append_nil]
      · have hcont : ∀ woken, expire_step now (timers, woken) =
            ok (.cont (timers.erase key, woken ++ [(key, waker)])) := by
          simp [expire_step, hfirst, hlater]
        rw [loop_cont (hcont woken), loop_cont (hcont []), ih, ih _ ([] ++ [(key, waker)]), bind_assoc]
        simp only [bind_tc_ok, List.nil_append, List.append_assoc]

/-- An entry that is due is woken before the rest. -/
theorem expire_due {now : UInt64} {timers : Timers Waker} {key : Key} {waker : Waker}
    (hfirst : BTreeMap.first_entry timers = some (key, waker)) (hdue : key.1 ≤ now) :
    expire now timers =
      expire now (timers.erase key) >>= fun result => ok ((key, waker) :: result.1, result.2) := by
  have hcont : expire_step now (timers, []) = ok (.cont (timers.erase key, [(key, waker)])) := by
    simp [expire_step, hfirst, UInt64.not_lt.mpr hdue]
  have hsize := BTreeMap.size_erase_add_one (BTreeMap.first_entry_eq_some hfirst).1
  rw [expire, loop_cont hcont, loop_expire_step_append, expire, hsize]
  rfl

/-- Nothing happens while no entry is due. -/
theorem expire_early {now : UInt64} {timers : Timers Waker}
    (h : ∀ (key : Key) (waker : Waker), timers[key]? = some waker → now < key.1) :
    expire now timers = ok ([], timers) := by
  have hdone : expire_step now (timers, []) = ok (.done ([], timers)) := by
    rw [expire_step]
    cases hfirst : BTreeMap.first_entry timers with
    | none => rfl
    | some entry => exact if_pos (h entry.1 entry.2 (BTreeMap.first_entry_eq_some hfirst).1)
  rw [expire, loop_done hdone]

/-- What `expire` does first. -/
theorem expire_cases {now : UInt64} {timers final : Timers Waker} {woken : List (Key × Waker)}
    (h : expire now timers = ok (woken, final)) :
    woken = [] ∧ final = timers ∨ ∃ key waker rest, BTreeMap.first_entry timers = some (key, waker) ∧
      key.1 ≤ now ∧ woken = (key, waker) :: rest ∧ expire now (timers.erase key) = ok (rest, final) := by
  cases hfirst : BTreeMap.first_entry timers with
  | none =>
    have hnone := BTreeMap.first_entry_eq_none_iff.mp hfirst
    rw [expire_early (by simp [hnone]), ok.injEq, Prod.mk.injEq] at h
    exact Or.inl ⟨h.1.symm, h.2.symm⟩
  | some entry =>
    obtain ⟨key, waker⟩ := entry
    by_cases hdue : key.1 ≤ now
    · rw [expire_due hfirst hdue, bind_eq_ok_iff] at h
      obtain ⟨⟨rest, after⟩, hrest, h⟩ := h
      obtain ⟨rfl, rfl⟩ := Prod.mk.inj (ok.inj h)
      exact Or.inr ⟨key, waker, rest, rfl, hdue, rfl, hrest⟩
    · have hlater := later_of_first_entry hfirst (UInt64.not_le.mp hdue)
      rw [expire_early hlater, ok.injEq, Prod.mk.injEq] at h
      exact Or.inl ⟨h.1.symm, h.2.symm⟩

/-- Expiring twice is expiring once, at the later time. -/
theorem expire_expire {now later : UInt64} (hle : now ≤ later) {timers middle final : Timers Waker}
    {woken more : List (Key × Waker)} (hnow : expire now timers = ok (woken, middle))
    (hlater : expire later middle = ok (more, final)) : expire later timers = ok (woken ++ more, final) := by
  -- on what the first call wakes, since the later call wakes these first too
  induction woken generalizing timers with
  | nil =>
    rcases expire_cases hnow with ⟨_, rfl⟩ | ⟨_, _, _, _, _, hwoken, _⟩
    · exact hlater
    · cases hwoken
  | cons entry woken ih =>
    rcases expire_cases hnow with ⟨hwoken, _⟩ | ⟨key, waker, rest, hfirst, hdue, hwoken, hrest⟩
    · cases hwoken
    · obtain ⟨rfl, rfl⟩ := List.cons.inj hwoken
      rw [expire_due hfirst (UInt64.le_trans hdue hle), ih hrest, bind_tc_ok]
      rfl

end expire

section deadlines

/-- The deadlines in the map. -/
def entryDeadlines (timers : Timers Waker) : Set UInt64 :=
  { deadline | ∃ (key : Key) (waker : Waker), timers[key]? = some waker ∧ key.1 = deadline }

theorem next_deadline_eq_none_iff {timers : Timers Waker} :
    next_deadline timers = none ↔ entryDeadlines timers = ∅ := by
  rw [next_deadline, Option.map_eq_none_iff, BTreeMap.first_entry_eq_none_iff, Set.eq_empty_iff_forall_notMem]
  constructor
  · rintro hnone deadline ⟨key, waker, hheld, _⟩
    cases (hnone key).symm.trans hheld
  · intro hempty key
    rw [Option.eq_none_iff_forall_ne_some]
    exact fun waker hheld => hempty key.1 ⟨key, waker, hheld, rfl⟩

/-- The first entry of the map has the least deadline. -/
theorem next_deadline_eq_some {timers : Timers Waker} {deadline : UInt64}
    (h : next_deadline timers = some deadline) :
    IsLeast (entryDeadlines timers) deadline := by
  rw [next_deadline, Option.map_eq_some_iff] at h
  obtain ⟨⟨key, waker⟩, hfirst, rfl⟩ := h
  obtain ⟨hheld, hleast⟩ := BTreeMap.first_entry_eq_some hfirst
  refine ⟨⟨key, waker, hheld, rfl⟩, ?_⟩
  rintro _ ⟨other, held, hother, rfl⟩
  exact deadline_le_of_isLE (hleast other held hother)

theorem next_deadline_eq_some_iff {timers : Timers Waker} {deadline : UInt64} :
    next_deadline timers = some deadline ↔
      IsLeast (entryDeadlines timers) deadline := by
  refine ⟨next_deadline_eq_some, fun hleast => ?_⟩
  cases hnext : next_deadline timers with
  | none =>
    have hmem := hleast.1
    rw [next_deadline_eq_none_iff.mp hnext] at hmem
    exact hmem.elim
  | some other =>
    have hother := next_deadline_eq_some hnext
    rw [Option.some.injEq]
    exact UInt64.le_antisymm (hother.2 hleast.1) (hleast.2 hother.1)

/-- Somebody is woken exactly when a deadline has passed. -/
theorem Expired.eq_nil_iff {now : UInt64} {timers final : Timers Waker} {woken : List (Key × Waker)}
    (h : Expired now timers (woken, final)) : woken = [] ↔ ∀ deadline ∈ entryDeadlines timers,
      now < deadline := by
  rw [List.eq_nil_iff_forall_not_mem]
  constructor
  · rintro hnone _ ⟨key, waker, hheld, rfl⟩
    refine UInt64.not_le.mp fun hdue => hnone (key, waker) ?_
    exact (h.woken key waker).mpr ⟨hheld, hdue⟩
  · rintro hlater ⟨key, waker⟩ hmem
    obtain ⟨hheld, hdue⟩ := (h.woken key waker).mp hmem
    exact UInt64.not_le.mpr (hlater key.1 ⟨key, waker, hheld, rfl⟩) hdue

/-- The deadlines of the sleepers. -/
def deadlines (trace : List (Label Waker)) : Set UInt64 :=
  { deadline | ∃ task waker, Waiting trace task waker ∧ task.deadline_ms = deadline }

theorem Asleep.deadlines_eq {trace : List (Label Waker)} {w : World Waker} (h : Asleep trace w) :
    entryDeadlines w.timers = deadlines trace := by
  ext deadline
  constructor
  · rintro ⟨key, waker, hheld, rfl⟩
    exact ⟨⟨key.1, key.2⟩, waker, (h.entries ⟨key.1, key.2⟩ waker).mp hheld, rfl⟩
  · rintro ⟨task, waker, hwait, rfl⟩
    exact ⟨task.key, waker, (h.entries task waker).mpr hwait, rfl⟩

end deadlines

section runs

/-- Ticks in a row wake what one call of `expire` at their end wakes. -/
theorem run_ticks_expire {overflow_checks : Bool} {trace ticks : List (Label Waker)} {w w' : World Waker}
    (hrun : Run (Step overflow_checks) World.boot trace w) (hticks : Run (Step overflow_checks) w ticks w')
    (honly : ∀ label ∈ ticks, label.isTick = true) (hbound : Bounded (trace ++ ticks)) :
    expire w'.ticks w.timers = ok (ticks.flatMap Label.woken, w'.timers) := by
  induction hticks with
  | nil =>
    -- nobody who is asleep is due yet
    rw [List.append_nil] at hbound
    exact expire_early (run_consistent hrun hbound).2.future
  | @snoc ticks label middle final hfirst hstep ih =>
    rw [← List.append_assoc] at hbound
    have hbefore := hbound.of_snoc
    have hexpire := ih (fun label hmem => honly label (List.mem_append_left _ hmem)) hbefore
    obtain ⟨hcounted, _⟩ := run_consistent (hrun.append hfirst) hbefore
    have hnext := hcounted.step hstep hbound
    have hlast := honly label (List.mem_append_right _ (List.mem_singleton_self label))
    cases hstep with
    | tick hcall =>
      obtain ⟨rfl, now, hnow, hlater⟩ := tick_expire hcall
      obtain rfl := ok.inj (hnow.symm.trans (hnext.clock hbound overflow_checks))
      -- the tick counter does not wrap around here
      have hle : middle.ticks ≤ middle.ticks + 1 := by
        rw [UInt64.le_iff_toNat_le, hnext.ticks, hcounted.ticks]
        exact (List.sublist_append_left _ _).countP_le
      rw [List.flatMap_append, List.flatMap_singleton]
      exact expire_expire hle hexpire hlater
    | new | poll | drop => cases hlast

/-- In every reachable state `next_deadline` is the least deadline of the sleepers. So a
timer can be set to it. The ticks before it wake nobody, and one call of `expire`, at
any time, wakes the same tasks in the same order as all ticks up to then and leaves the
same map. -/
theorem next_deadline_exact {overflow_checks : Bool} {trace : List (Label Waker)} {w : World Waker}
    (hrun : Run (Step overflow_checks) World.boot trace w) (hbound : Bounded trace) :
    (next_deadline w.timers = none ↔ deadlines trace = ∅) ∧
    (∀ deadline, next_deadline w.timers = some deadline ↔ IsLeast (deadlines trace) deadline) ∧
    ∀ ticks w', Run (Step overflow_checks) w ticks w' → (∀ label ∈ ticks, label.isTick = true) →
      Bounded (trace ++ ticks) →
      expire w'.ticks w.timers = ok (ticks.flatMap Label.woken, w'.timers) ∧
      (ticks.flatMap Label.woken = [] ↔ ∀ deadline ∈ deadlines trace, w'.ticks < deadline) := by
  have heq := (run_consistent hrun hbound).2.deadlines_eq
  refine ⟨?_, fun deadline => ?_, fun ticks w' hticks honly hbound' => ?_⟩
  · rw [next_deadline_eq_none_iff, heq]
  · rw [next_deadline_eq_some_iff, heq]
  · have hexpire := run_ticks_expire hrun hticks honly hbound'
    refine ⟨hexpire, ?_⟩
    rw [(expire_inv hexpire).eq_nil_iff, heq]

/-- A future of five milliseconds is the next to be woken. -/
theorem next_deadline_exact_five : ∃ (trace : List (Label Nat)) (w : World Nat),
    Run (Step true) World.boot trace w ∧ IsLeast (deadlines trace) 5 := by
  let task : TimeTask := ⟨5, 0⟩
  have hnew : Step true (World.boot : World Nat) (.created task) ⟨0, 1, ∅, [task]⟩ :=
    .new (show TimeTask.new true 0 0 5 = ok (task, 1) from rfl)
  have hcall : task.poll true 0 (∅ : Timers Nat) 7 = ok (.Pending, (∅ : Timers Nat).insert task.key 7) := by
    rw [TimeTask.poll, now_ms_eq true (by decide), bind_tc_ok, if_neg (by decide), pure_eq_ok]
  have hpoll : Step true (⟨0, 1, ∅, [task]⟩ : World Nat) (.polled task 7 .Pending)
      ⟨0, 1, (∅ : Timers Nat).insert task.key 7, [task]⟩ := .poll (by decide) hcall
  have hrun := (Run.nil.snoc hnew).snoc hpoll
  have hnext : next_deadline ((∅ : Timers Nat).insert task.key 7) = some 5 := by
    simp [next_deadline, BTreeMap.first_entry, Std.TreeMap.minKey?_insert, task, TimeTask.key]
  exact ⟨_, _, hrun, ((next_deadline_exact hrun ⟨by decide, by decide⟩).2.1 5).mp hnext⟩

end runs

end conc_os.task.time
