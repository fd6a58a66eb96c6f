import ConcOs.Kernel.Time.Sleepers

open rust Result
open conc_os.time

namespace conc_os.task.time

variable {Waker : Type}

/-- Every tick advances the clock by one, and nothing else does. -/
theorem Step.ticks_eq {overflow_checks : Bool} {w w' : World Waker} {label : Label Waker}
    (hstep : Step overflow_checks w label w') :
    w'.ticks = w.ticks + UInt64.ofNat ([label].countP Label.isTick) := by
  cases hstep with
  | tick hcall => exact (tick_inv hcall).1
  | new hcall => exact (UInt64.add_zero _).symm
  | poll htask hcall => exact (UInt64.add_zero _).symm
  | drop htask => exact (UInt64.add_zero _).symm

theorem run_ticks_eq {overflow_checks : Bool} {w w' : World Waker} {trace : List (Label Waker)}
    (hrun : Run (Step overflow_checks) w trace w') :
    w'.ticks = w.ticks + UInt64.ofNat (trace.countP Label.isTick) := by
  refine Run.invariant (fun trace w' => w'.ticks = w.ticks + UInt64.ofNat (trace.countP Label.isTick))
    (UInt64.add_zero _).symm ?_ hrun
  intro past label s t hpast hstep
  rw [hstep.ticks_eq, hpast, List.countP_append, UInt64.ofNat_add, UInt64.add_assoc]

/-- Below the bound on the clock, the ticks of a run are the time that has
passed. -/
theorem run_toNat_ticks {overflow_checks : Bool} {w w' : World Waker} {trace : List (Label Waker)}
    (hrun : Run (Step overflow_checks) w trace w')
    (hbound : (w.ticks.toNat + trace.countP Label.isTick) * 1000 < 2 ^ 64) :
    w'.ticks.toNat = w.ticks.toNat + trace.countP Label.isTick := by
  rw [run_ticks_eq hrun, UInt64.toNat_add, UInt64.toNat_ofNat', Nat.add_mod_mod]
  exact Nat.mod_eq_of_lt (by omega)

/-- A deadline that fits in 64 bits is the time of creation plus the duration. -/
theorem TimeTask.new_eq (overflow_checks : Bool) {ticks next_id duration_ms : UInt64}
    (hclock : ticks.toNat * 1000 < 2 ^ 64) (hfits : ticks.toNat + duration_ms.toNat < 2 ^ 64) :
    TimeTask.new overflow_checks ticks next_id duration_ms =
      ok (⟨ticks + duration_ms, next_id⟩, next_id + 1) := by
  have hover : ¬ (overflow_checks = true ∧ 2 ^ 64 ≤ ticks.toNat + duration_ms.toNat) := by omega
  rw [TimeTask.new, now_ms_eq overflow_checks hclock, bind_tc_ok, U64.add, if_neg hover, bind_tc_ok, pure_eq_ok]

/-- A poll compares the clock with the deadline. -/
theorem TimeTask.poll_ready_iff (overflow_checks : Bool) (task : TimeTask) {ticks : UInt64}
    (hclock : ticks.toNat * 1000 < 2 ^ 64) (timers : Timers Waker) (waker : Waker) :
    ∃ result timers', task.poll overflow_checks ticks timers waker = ok (result, timers') ∧
      (result = .Ready ↔ task.deadline_ms.toNat ≤ ticks.toNat) := by
  rw [TimeTask.poll, now_ms_eq overflow_checks hclock, bind_tc_ok]
  by_cases hdue : ticks ≥ task.deadline_ms
  · refine ⟨_, _, if_pos hdue, ?_⟩
    simp only [true_iff]
    exact UInt64.le_iff_toNat_le.mp hdue
  · refine ⟨_, _, if_neg hdue, ?_⟩
    simp only [reduceCtorEq, false_iff]
    exact fun hle => hdue (UInt64.le_iff_toNat_le.mpr hle)

/-- A deadline beyond 64 bits panics with overflow checks, and has passed
already without them. -/
theorem TimeTask.new_overflow (overflow_checks : Bool) {ticks next_id duration_ms : UInt64}
    (hclock : ticks.toNat * 1000 < 2 ^ 64) (hwide : 2 ^ 64 ≤ ticks.toNat + duration_ms.toNat) :
    (overflow_checks = true ∧ TimeTask.new overflow_checks ticks next_id duration_ms = fail .overflow) ∨
      (overflow_checks = false ∧ TimeTask.new overflow_checks ticks next_id duration_ms =
          ok (⟨ticks + duration_ms, next_id⟩, next_id + 1) ∧
        (ticks + duration_ms).toNat ≤ ticks.toNat) := by
  simp only [TimeTask.new, now_ms_eq overflow_checks hclock, bind_tc_ok, U64.add]
  cases overflow_checks with
  | true => exact Or.inl ⟨rfl, by rw [if_pos ⟨rfl, hwide⟩, bind_tc_fail]⟩
  | false =>
    refine Or.inr ⟨rfl, by rw [if_neg (by simp), bind_tc_ok, pure_eq_ok], ?_⟩
    have hlt := duration_ms.toNat_lt
    rw [UInt64.toNat_add]
    omega

/-- The clock can run on below its bound. -/
theorem exists_run_ticks (overflow_checks : Bool) (w : World Waker) (n : Nat)
    (hbound : (w.ticks.toNat + n) * 1000 < 2 ^ 64) :
    ∃ trace w', Run (Step overflow_checks) w trace w' ∧ trace.countP Label.isTick = n := by
  induction n with
  | zero => exact ⟨[], w, .nil, rfl⟩
  | succ n ih =>
    have hbefore : (w.ticks.toNat + n) * 1000 < 2 ^ 64 :=
      (Nat.mul_le_mul_right 1000 (Nat.le_succ _)).trans_lt hbound
    obtain ⟨trace, w', hrun, hcount⟩ := ih hbefore
    have hticks : w'.ticks.toNat = w.ticks.toNat + n := by
      rw [run_toNat_ticks hrun (hcount ▸ hbefore), hcount]
    rw [← Nat.add_assoc, ← hticks] at hbound
    have hsucc : (w'.ticks + 1).toNat = w'.ticks.toNat + 1 := toNat_succ (by omega)
    obtain ⟨woken, timers, hcall, _⟩ := tick_returns overflow_checks (hsucc ▸ hbound) w'.timers
    exact ⟨_, _, hrun.snoc (.tick hcall), by simp [hcount, Label.isTick]⟩

/-- A future is made, and from then on ready exactly when its duration has
passed whatever happens in between, if and only if its deadline fits in 64
bits. -/
theorem ready_iff_elapsed [Nonempty Waker] (overflow_checks : Bool) {w : World Waker} {duration_ms : UInt64}
    (hclock : w.ticks.toNat * 1000 < 2 ^ 64) :
    (∃ task next_id, TimeTask.new overflow_checks w.ticks w.next_id duration_ms = ok (task, next_id) ∧
      ∀ trace w', Run (Step overflow_checks) { w with next_id := next_id, tasks := task :: w.tasks } trace w' →
        (w.ticks.toNat + trace.countP Label.isTick) * 1000 < 2 ^ 64 →
        ∀ waker, ∃ result timers, task.poll overflow_checks w'.ticks w'.timers waker = ok (result, timers) ∧
          (result = .Ready ↔ duration_ms.toNat ≤ trace.countP Label.isTick)) ↔
      w.ticks.toNat + duration_ms.toNat < 2 ^ 64 := by
  constructor
  · rintro ⟨task, next_id, hnew, hpunctual⟩
    by_contra hwide
    rcases TimeTask.new_overflow overflow_checks hclock (not_lt.mp hwide) with ⟨_, hpanic⟩ | ⟨_, hcall, hpast⟩
    · rw [hpanic] at hnew
      cases hnew
    -- the first poll comes before the first tick
    obtain ⟨rfl, rfl⟩ := Prod.mk.inj (ok.inj (hcall.symm.trans hnew))
    obtain ⟨result, timers, hpoll, hready⟩ := hpunctual [] _ .nil hclock (Classical.arbitrary Waker)
    obtain ⟨result', timers', hpoll', hready'⟩ := TimeTask.poll_ready_iff overflow_checks
      ⟨w.ticks + duration_ms, w.next_id⟩ hclock w.timers (Classical.arbitrary Waker)
    obtain ⟨rfl, _⟩ := Prod.mk.inj (ok.inj (hpoll.symm.trans hpoll'))
    have hzero : duration_ms.toNat ≤ 0 := hready.mp (hready'.mpr hpast)
    omega
  · intro hfits
    refine ⟨_, _, TimeTask.new_eq overflow_checks hclock hfits, ?_⟩
    intro trace w' hrun hbound waker
    have hticks := run_toNat_ticks hrun hbound
    have hdeadline : (w.ticks + duration_ms).toNat = w.ticks.toNat + duration_ms.toNat := by
      rw [UInt64.toNat_add]
      exact Nat.mod_eq_of_lt hfits
    have hclock' : w'.ticks.toNat * 1000 < 2 ^ 64 := by rwa [hticks]
    obtain ⟨result, timers, hpoll, hready⟩ :=
      TimeTask.poll_ready_iff overflow_checks ⟨w.ticks + duration_ms, w.next_id⟩ hclock' w'.timers waker
    refine ⟨result, timers, hpoll, ?_⟩
    rw [hready, hdeadline, hticks]
    exact Nat.add_le_add_iff_left

/-- A future of three milliseconds, polled after two and after three ticks. -/
theorem ready_iff_elapsed_pending : ∃ task next_id, TimeTask.new false 2 0 3 = ok (task, next_id) ∧
    ∃ before after, ∃ w w' : World Unit, Run (Step false) ⟨2, next_id, ∅, [task]⟩ before w ∧
      before.countP Label.isTick = 2 ∧ (∃ timers, task.poll false w.ticks w.timers () = ok (.Pending, timers)) ∧
      Run (Step false) ⟨2, next_id, ∅, [task]⟩ after w' ∧ after.countP Label.isTick = 3 ∧
      ∃ timers, task.poll false w'.ticks w'.timers () = ok (.Ready, timers) := by
  obtain ⟨task, next_id, hnew, hpoll⟩ :=
    (@ready_iff_elapsed Unit _ false ⟨2, 0, ∅, []⟩ 3 (by decide)).mpr (by decide)
  obtain ⟨before, w, hrun, hcount⟩ := @exists_run_ticks Unit false ⟨2, next_id, ∅, [task]⟩ 2
    (show (2 + 2) * 1000 < 2 ^ 64 by decide)
  obtain ⟨after, w', hrun', hcount'⟩ := @exists_run_ticks Unit false ⟨2, next_id, ∅, [task]⟩ 3
    (show (2 + 3) * 1000 < 2 ^ 64 by decide)
  obtain ⟨result, timers, hcall, hready⟩ := hpoll before w hrun (by rw [hcount]; decide) ()
  obtain ⟨result', timers', hcall', hready'⟩ := hpoll after w' hrun' (by rw [hcount']; decide) ()
  rw [hcount] at hready
  rw [hcount'] at hready'
  obtain rfl : result = .Pending := by
    cases result with
    | Ready => exact absurd (hready.mp rfl) (by decide)
    | Pending => rfl
  obtain rfl : result' = .Ready := hready'.mpr (by decide)
  exact ⟨task, next_id, hnew, before, after, w, w', hrun, hcount, ⟨timers, hcall⟩, hrun', hcount', timers', hcall'⟩

/-- The longest duration, asked for one millisecond after boot. Without overflow
checks its deadline wraps around to zero, and it is ready at once; with them
the kernel panics. -/
theorem deadline_wraps :
    ∃ w : World Unit, Run (Step false) World.boot [.ticked []] w ∧
      ∃ task next_id timers, TimeTask.new false w.ticks w.next_id 0xFFFFFFFFFFFFFFFF = ok (task, next_id) ∧
        task.poll false w.ticks w.timers () = ok (.Ready, timers) ∧
        TimeTask.new true w.ticks w.next_id 0xFFFFFFFFFFFFFFFF = fail .overflow := by
  obtain ⟨woken, timers, htick, hexpired⟩ := @tick_returns Unit false 0 (by decide) ∅
  obtain rfl : woken = [] := by
    apply List.eq_nil_iff_forall_not_mem.mpr
    rintro ⟨key, waker⟩ hmem
    have hheld := ((hexpired.woken key waker).mp hmem).1
    simp at hheld
  have hwraps : TimeTask.new false 1 0 0xFFFFFFFFFFFFFFFF = ok (⟨0, 0⟩, 1) := by decide +kernel
  have hpanics : TimeTask.new true 1 0 0xFFFFFFFFFFFFFFFF = fail .overflow := by decide +kernel
  have hpoll : (⟨0, 0⟩ : TimeTask).poll false 1 timers () = ok (.Ready, timers.erase (0, 0)) := by
    rw [TimeTask.poll, now_ms_eq false (by decide), bind_tc_ok, if_pos (by decide)]
    rfl
  exact ⟨⟨1, 0, timers, []⟩, Run.nil.snoc (.tick htick), _, _, _, hwraps, hpoll, hpanics⟩

end conc_os.task.time
