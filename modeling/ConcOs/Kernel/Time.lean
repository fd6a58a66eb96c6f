import ConcOs.Rust.Scalar
import ConcOs.Rust.BTreeMap

open rust Result

namespace conc_os.time

def TICK_HZ : UInt32 := 1000

/-- `now_ms`, on the value of `TICKS`. -/
def now_ms (overflow_checks : Bool) (ticks : UInt64) : Result UInt64 := do
  let scaled ← U64.mul overflow_checks ticks 1000
  return scaled / TICK_HZ.toUInt64

end conc_os.time

namespace conc_os.task.time

open conc_os.time

/-- A deadline and an id, ordered by the deadline first. -/
abbrev Key := UInt64 × UInt64

/-- The map `TIMERS`. -/
abbrev Timers (Waker : Type) := Std.TreeMap Key Waker (lexOrd : Ord Key).compare

section expire

variable {Waker : Type}

/-- One iteration of `expire`, on the map and the entries woken so far. -/
def expire_step (now : UInt64) (state : Timers Waker × List (Key × Waker)) :
    Result (ControlFlow (Timers Waker × List (Key × Waker)) (List (Key × Waker) × Timers Waker)) :=
  let (timers, woken) := state
  match BTreeMap.first_entry timers with
  | none => ok (.done (woken, timers))
  | some (key, waker) =>
    if key.1 > now then ok (.done (woken, timers))
    else ok (.cont (timers.erase key, woken ++ [(key, waker)]))

/-- `expire`, with the entries whose waker it wakes. -/
def expire (now : UInt64) (timers : Timers Waker) : Result (List (Key × Waker) × Timers Waker) :=
  loop (expire_step now) (timers.size + 1) (timers, [])

def next_deadline (timers : Timers Waker) : Option UInt64 :=
  (BTreeMap.first_entry timers).map fun entry => entry.1.1

end expire

/-- `core::task::Poll<()>`. -/
inductive Poll where
  | Ready
  | Pending
deriving DecidableEq

structure TimeTask where
  deadline_ms : UInt64
  id : UInt64
deriving DecidableEq

namespace TimeTask

/-- `TimeTask::new`, on the values of `TICKS` and `NEXT_ID`; the latter is
incremented with wrap-around. -/
def new (overflow_checks : Bool) (ticks next_id duration_ms : UInt64) : Result (TimeTask × UInt64) := do
  let now ← now_ms overflow_checks ticks
  let deadline_ms ← U64.add overflow_checks now duration_ms
  return (⟨deadline_ms, next_id⟩, next_id + 1)

/-- The key of a task in `TIMERS`. -/
def key (self : TimeTask) : Key := (self.deadline_ms, self.id)

variable {Waker : Type}

def poll (overflow_checks : Bool) (ticks : UInt64) (self : TimeTask) (timers : Timers Waker) (waker : Waker) :
    Result (Poll × Timers Waker) := do
  let now ← now_ms overflow_checks ticks
  if now ≥ self.deadline_ms then return (.Ready, timers.erase self.key)
  else return (.Pending, timers.insert self.key waker)

def drop (self : TimeTask) (timers : Timers Waker) : Timers Waker := timers.erase self.key

end TimeTask

end conc_os.task.time

namespace conc_os.time

/-- `tick`, on the values of `TICKS` and `TIMERS`. -/
def tick {Waker : Type} (overflow_checks : Bool) (ticks : UInt64) (timers : task.time.Timers Waker) :
    Result (List (task.time.Key × Waker) × UInt64 × task.time.Timers Waker) := do
  let ticks := ticks + 1
  let now ← now_ms overflow_checks ticks
  let (woken, timers) ← task.time.expire now timers
  return (woken, ticks, timers)

/-- Milliseconds are ticks. -/
theorem now_ms_eq (overflow_checks : Bool) {ticks : UInt64} (h : ticks.toNat * 1000 < 2 ^ 64) :
    now_ms overflow_checks ticks = ok ticks := by
  rw [now_ms, U64.mul_eq overflow_checks (by simpa using h), bind_tc_ok, pure_eq_ok, ok.injEq]
  apply UInt64.toNat_inj.mp
  have hmul : (ticks * 1000).toNat = ticks.toNat * 1000 := by
    rw [UInt64.toNat_mul]
    exact Nat.mod_eq_of_lt h
  rw [UInt64.toNat_div, hmul]
  exact Nat.mul_div_cancel _ (by decide)

end conc_os.time

namespace conc_os.task.time

open conc_os.time

variable {Waker : Type}

/-- The keys are in the order of their deadlines. -/
theorem deadline_le_of_isLE {key other : Key} (h : ((lexOrd : Ord Key).compare key other).isLE = true) :
    key.1 ≤ other.1 := by
  change ((compare key.1 other.1).then (compare key.2 other.2)).isLE = true at h
  exact Std.isLE_compare.mp (Ordering.isLE_left_of_isLE_then h)

/-- What `expire` has done after some iterations: the entries are those still
in the map and those already woken, which were due. -/
structure Expiring (now : UInt64) (timers : Timers Waker) (state : Timers Waker × List (Key × Waker)) :
    Prop where
  entries : ∀ key waker, timers[key]? = some waker ↔ state.1[key]? = some waker ∨ (key, waker) ∈ state.2
  gone : ∀ key waker, (key, waker) ∈ state.2 → key.1 ≤ now ∧ state.1[key]? = none
  nodup : (state.2.map Prod.fst).Nodup
  size : state.1.size + state.2.length = timers.size

/-- `expire` wakes every entry that is due, once, and keeps the others. -/
structure Expired (now : UInt64) (timers : Timers Waker) (result : List (Key × Waker) × Timers Waker) :
    Prop where
  woken : ∀ key waker, (key, waker) ∈ result.1 ↔ timers[key]? = some waker ∧ key.1 ≤ now
  kept : ∀ key : Key, result.2[key]? = if key.1 ≤ now then none else timers[key]?
  nodup : (result.1.map Prod.fst).Nodup
  size : result.2.size + result.1.length = timers.size

theorem Expiring.start (now : UInt64) (timers : Timers Waker) : Expiring now timers (timers, []) where
  entries := by simp
  gone := by simp
  nodup := List.nodup_nil
  size := rfl

/-- An iteration moves the first entry, which is due. -/
theorem Expiring.wake {now : UInt64} {timers current : Timers Waker} {woken : List (Key × Waker)} {key : Key}
    {waker : Waker} (h : Expiring now timers (current, woken)) (hfirst : current[key]? = some waker)
    (hdue : key.1 ≤ now) : Expiring now timers (current.erase key, woken ++ [(key, waker)]) where
  entries := by
    intro other held
    rw [h.entries, BTreeMap.getElem?_erase, List.mem_append, List.mem_singleton]
    by_cases hother : key = other
    · subst hother
      simp [hfirst, eq_comm, or_comm]
    · simp [hother, Ne.symm hother]
  gone := by
    intro other held hmem
    rw [BTreeMap.getElem?_erase]
    rcases List.mem_append.mp hmem with hold | hnew
    · obtain ⟨hold, hnone⟩ := h.gone other held hold
      exact ⟨hold, by rw [hnone, ite_self]⟩
    · obtain ⟨rfl, rfl⟩ := Prod.mk.inj (List.mem_singleton.mp hnew)
      exact ⟨hdue, if_pos rfl⟩
  nodup := by
    rw [List.map_append, List.map_singleton, ← List.concat_eq_append, List.nodup_concat]
    refine ⟨fun hmem => ?_, h.nodup⟩
    obtain ⟨⟨other, held⟩, hheld, rfl⟩ := List.mem_map.mp hmem
    cases hfirst.symm.trans (h.gone other held hheld).2
  size := by
    have hsize := BTreeMap.size_erase_add_one hfirst
    have hold := h.size
    dsimp only at hold ⊢
    rw [List.length_append, List.length_singleton]
    omega

/-- When no entry left in the map is due, `expire` is finished. -/
theorem Expiring.finish {now : UInt64} {timers current : Timers Waker} {woken : List (Key × Waker)}
    (h : Expiring now timers (current, woken))
    (hlater : ∀ (key : Key) (waker : Waker), current[key]? = some waker → now < key.1) :
    Expired now timers (woken, current) where
  woken := by
    intro key waker
    rw [h.entries]
    constructor
    · intro hmem
      exact ⟨Or.inr hmem, (h.gone key waker hmem).1⟩
    · rintro ⟨hcurrent | hmem, hdue⟩
      · exact absurd hdue (UInt64.not_le.mpr (hlater key waker hcurrent))
      · exact hmem
  kept := by
    intro key
    split
    case isTrue hdue =>
      cases hcurrent : current[key]? with
      | none => rfl
      | some waker => exact absurd hdue (UInt64.not_le.mpr (hlater key waker hcurrent))
    case isFalse hlate =>
      ext waker
      rw [h.entries, or_iff_left fun hmem => hlate (h.gone key waker hmem).1]
  nodup := h.nodup
  size := h.size

/-- If the first entry is due later, all are. -/
theorem later_of_first_entry {now : UInt64} {timers : Timers Waker} {key : Key} {waker : Waker}
    (hfirst : BTreeMap.first_entry timers = some (key, waker)) (hlater : now < key.1) (other : Key)
    (held : Waker) (hother : timers[other]? = some held) : now < other.1 := by
  have hle := (BTreeMap.first_entry_eq_some hfirst).2 other held hother
  exact UInt64.lt_of_lt_of_le hlater (deadline_le_of_isLE hle)

theorem expire_spec (now : UInt64) (timers : Timers Waker) :
    ∃ result, expire now timers = ok result ∧ Expired now timers result := by
  refine loop_spec (Expiring now timers) (Expired now timers)
    (fun state => state.1.size) ?_ _ _ (.start now timers) (Nat.lt_succ_self _)
  rintro ⟨current, woken⟩ hinv
  rw [expire_step]
  cases hfirst : BTreeMap.first_entry current with
  | none =>
    refine Or.inr ⟨_, rfl, hinv.finish fun key waker hkey => ?_⟩
    cases (BTreeMap.first_entry_eq_none_iff.mp hfirst key).symm.trans hkey
  | some entry =>
    obtain ⟨key, waker⟩ := entry
    obtain ⟨hheld, _⟩ := BTreeMap.first_entry_eq_some hfirst
    by_cases hdue : key.1 > now
    · exact Or.inr ⟨_, if_pos hdue, hinv.finish (later_of_first_entry hfirst hdue)⟩
    · refine Or.inl ⟨_, if_neg hdue, hinv.wake hheld (UInt64.not_lt.mp hdue), ?_⟩
      have hsize := BTreeMap.size_erase_add_one hheld
      dsimp only
      omega

theorem expire_inv {now : UInt64} {timers : Timers Waker} {result : List (Key × Waker) × Timers Waker}
    (h : expire now timers = ok result) : Expired now timers result := by
  obtain ⟨expected, hexpire, hexpired⟩ := expire_spec now timers
  obtain rfl := ok.inj (h.symm.trans hexpire)
  exact hexpired

/-- A key is woken at most once, and then has no entry left. -/
theorem Expired.count_le {now : UInt64} {timers timers' : Timers Waker} {woken : List (Key × Waker)}
    (h : Expired now timers (woken, timers')) (key : Key) :
    (woken.map Prod.fst).count key + (if timers'[key]?.isSome then 1 else 0) ≤
      if timers[key]?.isSome then 1 else 0 := by
  have honce := List.nodup_iff_count_le_one.mp h.nodup key
  by_cases hmem : key ∈ woken.map Prod.fst
  · obtain ⟨⟨_, waker⟩, hwoken, rfl⟩ := List.mem_map.mp hmem
    obtain ⟨hheld, hdue⟩ := (h.woken _ waker).mp hwoken
    rw [h.kept, if_pos hdue, hheld]
    exact honce
  · rw [List.count_eq_zero_of_not_mem hmem, h.kept]
    split <;> simp

/-- A tick expires what is due at the new time. -/
theorem tick_expire {overflow_checks : Bool} {ticks ticks' : UInt64} {timers timers' : Timers Waker}
    {woken : List (Key × Waker)} (h : tick overflow_checks ticks timers = ok (woken, ticks', timers')) :
    ticks' = ticks + 1 ∧ ∃ now, now_ms overflow_checks ticks' = ok now ∧
      expire now timers = ok (woken, timers') := by
  rw [tick, bind_eq_ok_iff] at h
  obtain ⟨now, hnow, h⟩ := h
  rw [bind_eq_ok_iff] at h
  obtain ⟨result, hexpire, h⟩ := h
  obtain ⟨rfl, hstate⟩ := Prod.mk.inj (ok.inj h)
  obtain ⟨rfl, rfl⟩ := Prod.mk.inj hstate
  exact ⟨rfl, now, hnow, hexpire⟩

/-- What a tick does: the clock advances and what is due is woken. -/
theorem tick_inv {overflow_checks : Bool} {ticks ticks' : UInt64} {timers timers' : Timers Waker}
    {woken : List (Key × Waker)} (h : tick overflow_checks ticks timers = ok (woken, ticks', timers')) :
    ticks' = ticks + 1 ∧ ∃ now, now_ms overflow_checks ticks' = ok now ∧
      Expired now timers (woken, timers') := by
  obtain ⟨hticks, now, hnow, hexpire⟩ := tick_expire h
  exact ⟨hticks, now, hnow, expire_inv hexpire⟩

/-- A tick panics only when the milliseconds overflow. -/
theorem tick_outcome (overflow_checks : Bool) (ticks : UInt64) (timers : Timers Waker) :
    (∃ result, tick overflow_checks ticks timers = ok result) ∨
      tick overflow_checks ticks timers = fail .overflow := by
  rw [tick, now_ms, U64.mul]
  split
  case isTrue => exact Or.inr rfl
  case isFalse =>
    obtain ⟨result, hexpire, _⟩ := expire_spec ((ticks + 1) * 1000 / TICK_HZ.toUInt64) timers
    exact Or.inl ⟨_, by simp only [bind_tc_ok, pure_eq_ok, hexpire]; rfl⟩

theorem tick_returns (overflow_checks : Bool) {ticks : UInt64} (h : (ticks + 1).toNat * 1000 < 2 ^ 64)
    (timers : Timers Waker) :
    ∃ woken timers', tick overflow_checks ticks timers = ok (woken, ticks + 1, timers') ∧
      Expired (ticks + 1) timers (woken, timers') := by
  obtain ⟨⟨woken, timers'⟩, hexpire, hexpired⟩ := expire_spec (ticks + 1) timers
  refine ⟨woken, timers', ?_, hexpired⟩
  simp only [tick, now_ms_eq overflow_checks h, hexpire, bind_tc_ok, pure_eq_ok]

theorem new_inv {overflow_checks : Bool} {ticks id id' duration_ms : UInt64} {task : TimeTask}
    (h : TimeTask.new overflow_checks ticks id duration_ms = ok (task, id')) : task.id = id ∧ id' = id + 1 := by
  rw [TimeTask.new, bind_eq_ok_iff] at h
  obtain ⟨now, _, h⟩ := h
  rw [bind_eq_ok_iff] at h
  obtain ⟨deadline_ms, _, h⟩ := h
  obtain ⟨rfl, rfl⟩ := Prod.mk.inj (ok.inj h)
  exact ⟨rfl, rfl⟩

theorem poll_inv {overflow_checks : Bool} {ticks : UInt64} {task : TimeTask} {timers timers' : Timers Waker}
    {waker : Waker} {result : Poll} (h : task.poll overflow_checks ticks timers waker = ok (result, timers')) :
    ∃ now, now_ms overflow_checks ticks = ok now ∧
      (result = .Ready ∧ task.deadline_ms ≤ now ∧ timers' = timers.erase task.key ∨
        result = .Pending ∧ now < task.deadline_ms ∧ timers' = timers.insert task.key waker) := by
  rw [TimeTask.poll, bind_eq_ok_iff] at h
  obtain ⟨now, hnow, h⟩ := h
  refine ⟨now, hnow, ?_⟩
  split at h
  case isTrue hdue =>
    obtain ⟨rfl, rfl⟩ := Prod.mk.inj (ok.inj h)
    exact Or.inl ⟨rfl, hdue, rfl⟩
  case isFalse hlate =>
    obtain ⟨rfl, rfl⟩ := Prod.mk.inj (ok.inj h)
    exact Or.inr ⟨rfl, UInt64.not_le.mp hlate, rfl⟩

/-- A poll changes no entry but that of its task. -/
theorem poll_other {overflow_checks : Bool} {ticks : UInt64} {task : TimeTask} {timers timers' : Timers Waker}
    {waker : Waker} {result : Poll} (h : task.poll overflow_checks ticks timers waker = ok (result, timers'))
    (other : Key) (hother : other ≠ task.key) : timers'[other]? = timers[other]? := by
  obtain ⟨now, _, ⟨_, _, rfl⟩ | ⟨_, _, rfl⟩⟩ := poll_inv h
  · rw [BTreeMap.getElem?_erase, if_neg hother.symm]
  · rw [BTreeMap.getElem?_insert, if_neg hother.symm]

end conc_os.task.time
