import ConcOs.Kernel.Mutex

open rust

namespace conc_os.mutex

variable {Mutex : Type}

namespace Context

/-- Only the oldest guard may enable interrupts. -/
def Nested : List (InterruptMutexGuard Mutex) → Prop
  | [] => True
  | guard :: older => (older ≠ [] → guard.saved_int = false) ∧ Nested older

/-- What holds at each place in `lock` and `drop`, where `enabled` is the flag. -/
def PhaseFacts (context : Context Mutex) (enabled : Bool) : Prop :=
  match context.phase with
  | .running => True
  | .checked mutex saved_int => saved_int = enabled ∧ ∀ guard ∈ context.guards, guard.inner_guard ≠ mutex
  | .locking mutex saved_int =>
    enabled = false ∧ (context.guards ≠ [] → saved_int = false) ∧
      ∀ guard ∈ context.guards, guard.inner_guard ≠ mutex
  | .released saved_int => enabled = false ∧ (context.guards ≠ [] → saved_int = false)

/-- Interrupts are disabled while a guard is held. -/
structure Ok (context : Context Mutex) (enabled : Bool) : Prop where
  disabled : context.guards ≠ [] → enabled = false
  nested : Nested context.guards
  distinct : (context.guards.map InterruptMutexGuard.inner_guard).Nodup
  phase : context.PhaseFacts enabled

theorem Ok.start (enabled : Bool) : (start : Context Mutex).Ok enabled where
  disabled := by simp [Context.start]
  nested := trivial
  distinct := List.nodup_nil
  phase := trivial

theorem Ok.guards_eq_nil {context : Context Mutex} (h : context.Ok true) : context.guards = [] := by
  by_contra hguards
  exact absurd (h.disabled hguards) (by decide)

/-- The flag after all guards are dropped. -/
def restored (enabled : Bool) : List (InterruptMutexGuard Mutex) → Bool
  | [] => enabled
  | guard :: older => restored guard.saved_int older

/-- The flag the context has while it holds no guard. -/
def outer (context : Context Mutex) (enabled : Bool) : Bool :=
  match context.phase with
  | .running | .checked _ _ => restored enabled context.guards
  | .locking _ saved_int | .released saved_int => restored saved_int context.guards

end Context

/-- A spinlock is taken exactly when the code that runs has a guard for it. -/
structure Cpu.Ok (cpu : Cpu Mutex) : Prop where
  context : cpu.context.Ok cpu.enabled
  locked : ∀ mutex, cpu.locked mutex = true ↔ ∃ guard ∈ cpu.context.guards, guard.inner_guard = mutex

/-- A spinlock that the code is about to take is free. -/
theorem Cpu.Ok.free {cpu : Cpu Mutex} (h : cpu.Ok) {mutex : Mutex} {saved_int : Bool}
    (hphase : cpu.context.phase = .locking mutex saved_int) : cpu.locked mutex = false := by
  have hfacts := h.context.phase
  simp only [Context.PhaseFacts, hphase] at hfacts
  rw [← Bool.not_eq_true, h.locked]
  rintro ⟨guard, hguard, hmutex⟩
  exact hfacts.2.2 guard hguard hmutex

/-- Interrupted contexts had interrupts enabled. -/
structure Core.Ok (core : Core Mutex) : Prop where
  cpu : core.toCpu.Ok
  interrupted : ∀ context flag, (context, flag) ∈ core.interrupted → flag = true ∧ context.Ok true

theorem Core.Ok.start (enabled : Bool) : (Core.start enabled : Core Mutex).Ok where
  cpu := ⟨Context.Ok.start enabled, by simp [Core.start, Context.start]⟩
  interrupted := by simp [Core.start]

/-- The only guards are those of the code that runs. -/
theorem Core.Ok.held_iff {core : Core Mutex} (h : core.Ok) (mutex : Mutex) :
    core.Held mutex ↔ core.locked mutex = true := by
  rw [h.cpu.locked]
  constructor
  · rintro ⟨context, rfl | ⟨flag, hmem⟩, hguard⟩
    · exact hguard
    · obtain ⟨guard, hguard, _⟩ := hguard
      simp [(h.interrupted context flag hmem).2.guards_eq_nil] at hguard
  · intro hguard
    exact ⟨core.context, Or.inl rfl, hguard⟩

/-- The context that runs over the interrupted ones in `base`, wherever it is
now, with its flag. -/
inductive Core.Owns (base : List (Context Mutex × Bool)) (core : Core Mutex) : Context Mutex → Bool → Prop where
  | running (hbase : core.interrupted = base) : Owns base core core.context core.enabled
  | interrupted (newer : List (Context Mutex × Bool)) {context : Context Mutex} {flag : Bool}
      (hbase : core.interrupted = newer ++ (context, flag) :: base) : Owns base core context flag

variable [DecidableEq Mutex]

theorem Cpu.Ok.code {cpu next : Cpu Mutex} {event : Event} (h : cpu.Ok) (hcode : Code cpu event next) :
    next.Ok := by
  obtain ⟨⟨hdisabled, hnested, hdistinct, hfacts⟩, hlocked⟩ := h
  cases hcode with
  | are_enabled mutex hphase hfresh => exact ⟨⟨hdisabled, hnested, hdistinct, rfl, hfresh⟩, hlocked⟩
  | @disable mutex saved_int hphase =>
    simp only [Context.PhaseFacts, hphase] at hfacts
    obtain ⟨rfl, hfresh⟩ := hfacts
    have hflag : (if cpu.enabled then false else cpu.enabled) = false := by simp
    exact ⟨⟨fun _ => hflag, hnested, hdistinct, hflag, hdisabled, hfresh⟩, hlocked⟩
  | @acquire mutex saved_int hphase hfree =>
    simp only [Context.PhaseFacts, hphase] at hfacts
    obtain ⟨hflag, hsaved, hfresh⟩ := hfacts
    refine ⟨⟨fun _ => hflag, ⟨hsaved, hnested⟩, ?_, trivial⟩, fun other => ?_⟩
    · rw [List.map_cons, List.nodup_cons]
      refine ⟨fun hmem => ?_, hdistinct⟩
      obtain ⟨guard, hguard, hmutex⟩ := List.mem_map.mp hmem
      exact hfresh guard hguard hmutex
    · simp only [Function.update_apply, List.mem_cons, exists_eq_or_imp, ← hlocked]
      by_cases hother : other = mutex
      · simp [hother]
      · simp [hother, Ne.symm hother]
  | spin => exact ⟨⟨hdisabled, hnested, hdistinct, hfacts⟩, hlocked⟩
  | @release guard guards hphase hguards =>
    have hflag : cpu.enabled = false := hdisabled (by simp [hguards])
    -- the flag stays disabled: unless it was the last one, the guard saved `false`
    rw [hguards] at hnested hdistinct
    rw [List.map_cons, List.nodup_cons] at hdistinct
    refine ⟨⟨fun _ => hflag, hnested.2, hdistinct.2, hflag, hnested.1⟩, fun other => ?_⟩
    have hother := hlocked other
    simp only [hguards, List.mem_cons, exists_eq_or_imp] at hother
    by_cases hsame : other = guard.inner_guard
    · subst hsame
      have hdropped : ∀ older ∈ guards, older.inner_guard ≠ guard.inner_guard := fun older holder hmutex =>
        hdistinct.1 (List.mem_map.mpr ⟨older, holder, hmutex⟩)
      simpa using hdropped
    · simp [hsame, hother, Ne.symm hsame]
  | @restore saved_int hphase =>
    simp only [Context.PhaseFacts, hphase] at hfacts
    obtain ⟨hflag, hsaved⟩ := hfacts
    refine ⟨⟨fun hne => ?_, hnested, hdistinct, trivial⟩, hlocked⟩
    simp [hsaved hne, hflag]
  | set_flag flag hphase hguards =>
    refine ⟨⟨fun hne => absurd hguards hne, hnested, hdistinct, ?_⟩, hlocked⟩
    simp only [Context.PhaseFacts, hphase]

/-- Code keeps the flag it has outside of its guards, unless it sets it. -/
theorem Cpu.Ok.outer_code {cpu next : Cpu Mutex} {event : Event} (h : cpu.Ok) (hcode : Code cpu event next)
    (hquiet : event ≠ .set_flag) : next.context.outer next.enabled = cpu.context.outer cpu.enabled := by
  have hfacts := h.context.phase
  cases hcode with
  | are_enabled mutex hphase => simp only [Context.outer, hphase]
  | disable hphase =>
    simp only [Context.PhaseFacts, hphase] at hfacts
    simp only [Context.outer, hphase, hfacts.1]
  | acquire hphase => simp only [Context.outer, hphase, Context.restored]
  | spin => rfl
  | release hphase hguards => simp only [Context.outer, hphase, hguards, Context.restored]
  | @restore saved_int hphase =>
    simp only [Context.PhaseFacts, hphase] at hfacts
    simp only [Context.outer, hphase, hfacts.1]
    cases saved_int <;> rfl
  | set_flag => exact absurd rfl hquiet

theorem Core.Ok.step {core next : Core Mutex} {event : Event} (h : core.Ok) (hstep : Step core event next) :
    next.Ok := by
  cases hstep with
  | code hcode => exact ⟨h.cpu.code hcode, h.interrupted⟩
  | interrupt henabled =>
    have hcontext := h.cpu.context
    rw [henabled] at hcontext
    have hlocked := h.cpu.locked
    rw [hcontext.guards_eq_nil] at hlocked
    refine ⟨⟨Context.Ok.start false, hlocked⟩, fun context flag hmem => ?_⟩
    rcases List.mem_cons.mp hmem with hnew | hold
    · obtain ⟨rfl, rfl⟩ := Prod.mk.inj hnew
      exact ⟨henabled, hcontext⟩
    · exact h.interrupted context flag hold
  | @iret context flag rest hdone hinterrupted =>
    obtain ⟨rfl, hcontext⟩ := h.interrupted context flag (by simp [hinterrupted])
    have hlocked := h.cpu.locked
    rw [hdone] at hlocked
    refine ⟨⟨hcontext, ?_⟩, fun other flag hmem => h.interrupted other flag (by simp [hinterrupted, hmem])⟩
    rw [hcontext.guards_eq_nil]
    exact hlocked

theorem Core.Ok.run {enabled : Bool} {trace : List Event} {core : Core Mutex}
    (hrun : Run Step (Core.start enabled) trace core) : core.Ok :=
  Run.invariant (fun _ core => core.Ok) (Core.Ok.start enabled) (fun _ _ _ _ h hstep => h.step hstep) hrun

/-- While a context runs or is interrupted, it keeps the flag it has outside of
its guards. -/
theorem Core.Ok.outer_within {core next : Core Mutex} {event : Event} {base : List (Context Mutex × Bool)}
    {context : Context Mutex} {flag : Bool} (h : core.Ok) (howns : core.Owns base context flag)
    (hstep : Within base.length core event next) :
    ∃ context' flag', next.Owns base context' flag' ∧ context'.outer flag' = context.outer flag := by
  obtain ⟨hstep, hstays, hquiet⟩ := hstep
  cases hstep with
  | code hcode =>
    cases howns with
    | running hbase =>
      exact ⟨_, _, .running hbase, h.cpu.outer_code hcode (hquiet (congrArg List.length hbase))⟩
    | interrupted newer hbase => exact ⟨context, flag, .interrupted newer hbase, rfl⟩
  | interrupt henabled =>
    cases howns with
    | running hbase => exact ⟨_, _, .interrupted [] (by rw [hbase]; rfl), rfl⟩
    | interrupted newer hbase => exact ⟨context, flag, .interrupted (_ :: newer) (by rw [hbase]; rfl), rfl⟩
  | @iret returned saved rest hdone hinterrupted =>
    cases howns with
    | running hbase =>
      rw [← hbase, hinterrupted] at hstays
      simp at hstays
    | interrupted newer hbase =>
      rw [hinterrupted] at hbase
      cases newer with
      | nil =>
        obtain ⟨hreturned, hrest⟩ := List.cons.inj hbase
        obtain ⟨rfl, rfl⟩ := Prod.mk.inj hreturned
        exact ⟨_, _, .running hrest, rfl⟩
      | cons newest newer => exact ⟨context, flag, .interrupted newer (List.cons.inj hbase).2, rfl⟩

/-- Back in the context it started from, a core has the flag that this context
has outside of its guards. -/
theorem Core.Ok.outer_segment {core next : Core Mutex} {segment : List Event} (h : core.Ok)
    (hsegment : Run (Within core.interrupted.length) core segment next)
    (hdepth : next.interrupted.length = core.interrupted.length) :
    next.Ok ∧ next.context.outer next.enabled = core.context.outer core.enabled := by
  have hkept := Run.invariant
    (fun _ state => state.Ok ∧ ∃ context flag, state.Owns core.interrupted context flag ∧
      context.outer flag = core.context.outer core.enabled)
    ⟨h, core.context, core.enabled, .running rfl, rfl⟩ (fun trace event state after hstate hstep => ?_) hsegment
  · obtain ⟨hnext, context, flag, howns, houter⟩ := hkept
    cases howns with
    | running => exact ⟨hnext, houter⟩
    | interrupted newer hbase =>
      rw [hbase, List.length_append, List.length_cons] at hdepth
      omega
  · obtain ⟨hok, context, flag, howns, houter⟩ := hstate
    obtain ⟨context', flag', howns', houter'⟩ := hok.outer_within howns hstep
    exact ⟨hok.step hstep.step, context', flag', howns', houter'.trans houter⟩

/-- Whatever is locked and unlocked and wherever interrupts come in, no mutex is
held while interrupts are enabled and no code spins on a mutex. Code that has
dropped the guards it took has the flag it had before. -/
theorem interrupt_mutex_safe {enabled : Bool} {trace : List Event} {core : Core Mutex}
    (hrun : Run Step (Core.start enabled) trace core) :
    (core.enabled = true → ∀ mutex, ¬ core.Held mutex) ∧
      (∀ mutex, core.locked mutex = true ↔ core.Held mutex) ∧
      (∀ mutex saved_int, core.context.phase = .locking mutex saved_int → ¬ core.Held mutex) ∧
      (∀ next, ¬ Step core .spin next) ∧
      ∀ segment next, Run (Within core.interrupted.length) core segment next →
        next.interrupted.length = core.interrupted.length → core.context.phase = .running →
        next.context.phase = .running → next.context.guards = core.context.guards →
        next.enabled = core.enabled := by
  have hok := Core.Ok.run hrun
  refine ⟨fun henabled mutex hheld => ?_, fun mutex => (hok.held_iff mutex).symm,
    fun mutex saved_int hphase hheld => ?_, fun next hstep => ?_, ?_⟩
  · have hcontext := hok.cpu.context
    rw [henabled] at hcontext
    have hlocked := (hok.held_iff mutex).mp hheld
    rw [hok.cpu.locked, hcontext.guards_eq_nil] at hlocked
    simp at hlocked
  · rw [hok.held_iff, hok.cpu.free hphase] at hheld
    exact absurd hheld (by decide)
  · cases hstep with
    | code hcode =>
      cases hcode with
      | spin hphase htaken =>
        rw [hok.cpu.free hphase] at htaken
        exact absurd htaken (by decide)
  · intro segment next hsegment hdepth hphase hphase' hguards
    obtain ⟨hnext, houter⟩ := hok.outer_segment hsegment hdepth
    -- with a guard still held the flag is disabled at both ends
    by_cases hnone : core.context.guards = []
    · simpa only [Context.outer, hphase, hphase', hguards, hnone, Context.restored] using houter
    · rw [hok.cpu.context.disabled hnone, hnext.cpu.context.disabled (by rwa [hguards])]

/-- A handler that comes in once the flag was read locks the same mutex, and
then a second mutex is locked under the first. -/
theorem interrupt_mutex_safe_nested :
    ∃ core segment next, Run Step (Core.start false : Core Bool) [.set_flag] core ∧
      Run (Within 0) core segment next ∧ segment = [.are_enabled, .interrupt, .are_enabled, .disable, .acquire,
        .release, .restore, .iret, .disable, .acquire, .are_enabled, .disable, .acquire, .release, .restore,
        .release, .restore] ∧ next.enabled = core.enabled := by
  have hrun : Run Step (Core.start false : Core Bool) [.set_flag] (Core.start true) :=
    Run.nil.snoc (.code (.set_flag true rfl rfl))
  have hcode : ∀ {core : Core Bool} {event : Event} {cpu : Cpu Bool}, Code core.toCpu event cpu →
      event ≠ .set_flag → Within 0 core event ⟨cpu, core.interrupted⟩ :=
    fun hcode hevent => ⟨.code hcode, Nat.zero_le _, fun _ => hevent⟩
  have hstart : Run (Within 0) (Core.start true : Core Bool) [] _ := Run.nil
  have hcaught := (hstart.snoc (hcode (.are_enabled false rfl (by simp [Core.start, Context.start]))
    (by decide))).snoc ⟨.interrupt rfl, Nat.zero_le _, fun _ => by decide⟩
  have hhandled := (((((hcaught.snoc (hcode (.are_enabled false rfl (by simp [Context.start])) (by decide))).snoc
    (hcode (.disable rfl) (by decide))).snoc (hcode (.acquire rfl rfl) (by decide))).snoc
    (hcode (.release rfl rfl) (by decide))).snoc (hcode (.restore rfl) (by decide))).snoc
    ⟨.iret rfl rfl, Nat.zero_le _, fun _ => by decide⟩
  have hlocked := (hhandled.snoc (hcode (.disable rfl) (by decide))).snoc (hcode (.acquire rfl rfl) (by decide))
  have hinner := ((((hlocked.snoc (hcode (.are_enabled true rfl (by decide)) (by decide))).snoc
    (hcode (.disable rfl) (by decide))).snoc (hcode (.acquire rfl rfl) (by decide))).snoc
    (hcode (.release rfl rfl) (by decide))).snoc (hcode (.restore rfl) (by decide))
  have hdone := (hinner.snoc (hcode (.release rfl rfl) (by decide))).snoc (hcode (.restore rfl) (by decide))
  exact ⟨_, _, _, hrun, hdone, rfl, (interrupt_mutex_safe hrun).2.2.2.2 _ _ hdone rfl rfl rfl rfl⟩

end conc_os.mutex
