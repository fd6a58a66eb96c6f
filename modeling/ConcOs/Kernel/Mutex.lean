import ConcOs.Rust.Run
import Mathlib.Logic.Function.Basic

open rust

namespace conc_os.mutex

/-- A guard, with the mutex whose spinlock its `inner_guard` holds and the flag
it restores. -/
structure InterruptMutexGuard (Mutex : Type) where
  inner_guard : Mutex
  saved_int : Bool
deriving DecidableEq

/-- Where code is in `lock` or in the `drop` of a guard. -/
inductive Phase (Mutex : Type) where
  /-- In neither. -/
  | running
  /-- In `lock`, with the flag read. -/
  | checked (mutex : Mutex) (saved_int : Bool)
  /-- In `lock`, at the inner spinlock. -/
  | locking (mutex : Mutex) (saved_int : Bool)
  /-- In `drop`, with the inner spinlock released. -/
  | released (saved_int : Bool)
deriving DecidableEq

/-- The kernel or one run of an interrupt handler, with its guards from the
newest to the oldest. -/
structure Context (Mutex : Type) where
  phase : Phase Mutex
  guards : List (InterruptMutexGuard Mutex)
deriving DecidableEq

def Context.start {Mutex : Type} : Context Mutex := ⟨.running, []⟩

/-- The interrupt flag, the inner spinlocks and the code that runs. -/
structure Cpu (Mutex : Type) where
  enabled : Bool
  locked : Mutex → Bool
  context : Context Mutex

/-- A core, with the contexts that were interrupted from the newest to the
oldest, each with the flag it had. -/
structure Core (Mutex : Type) extends Cpu Mutex where
  interrupted : List (Context Mutex × Bool)

inductive Event where
  | are_enabled
  | disable
  | acquire
  | spin
  | release
  | restore
  | set_flag
  | interrupt
  | iret
deriving DecidableEq

variable {Mutex : Type}

/-- A core before any mutex is locked. -/
def Core.start (enabled : Bool) : Core Mutex := ⟨⟨enabled, fun _ => false, Context.start⟩, []⟩

/-- Some context has the mutex locked. -/
def Core.Held (core : Core Mutex) (mutex : Mutex) : Prop :=
  ∃ context, (context = core.context ∨ ∃ flag, (context, flag) ∈ core.interrupted) ∧
    ∃ guard ∈ context.guards, guard.inner_guard = mutex

variable [DecidableEq Mutex]

/-- The steps of code. Guards are dropped in the reverse order of their
acquisition and no context locks a mutex that it has locked. -/
inductive Code : Cpu Mutex → Event → Cpu Mutex → Prop where
  /-- `let saved_int = interrupts::are_enabled();` -/
  | are_enabled {cpu : Cpu Mutex} (mutex : Mutex) (hphase : cpu.context.phase = .running)
      (hfresh : ∀ guard ∈ cpu.context.guards, guard.inner_guard ≠ mutex) :
      Code cpu .are_enabled { cpu with context := ⟨.checked mutex cpu.enabled, cpu.context.guards⟩ }
  /-- `if saved_int { interrupts::disable(); }` -/
  | disable {cpu : Cpu Mutex} {mutex : Mutex} {saved_int : Bool}
      (hphase : cpu.context.phase = .checked mutex saved_int) :
      Code cpu .disable { cpu with
        enabled := if saved_int then false else cpu.enabled
        context := ⟨.locking mutex saved_int, cpu.context.guards⟩ }
  /-- `self.inner.lock()` where the spinlock is free. -/
  | acquire {cpu : Cpu Mutex} {mutex : Mutex} {saved_int : Bool}
      (hphase : cpu.context.phase = .locking mutex saved_int) (hfree : cpu.locked mutex = false) :
      Code cpu .acquire { cpu with
        locked := Function.update cpu.locked mutex true
        context := ⟨.running, ⟨mutex, saved_int⟩ :: cpu.context.guards⟩ }
  /-- `self.inner.lock()` where the spinlock is taken. -/
  | spin {cpu : Cpu Mutex} {mutex : Mutex} {saved_int : Bool}
      (hphase : cpu.context.phase = .locking mutex saved_int) (htaken : cpu.locked mutex = true) :
      Code cpu .spin cpu
  /-- `ManuallyDrop::drop(&mut self.inner_guard);` -/
  | release {cpu : Cpu Mutex} {guard : InterruptMutexGuard Mutex} {guards : List (InterruptMutexGuard Mutex)}
      (hphase : cpu.context.phase = .running) (hguards : cpu.context.guards = guard :: guards) :
      Code cpu .release { cpu with
        locked := Function.update cpu.locked guard.inner_guard false
        context := ⟨.released guard.saved_int, guards⟩ }
  /-- `if self.saved_int { interrupts::enable(); }` -/
  | restore {cpu : Cpu Mutex} {saved_int : Bool} (hphase : cpu.context.phase = .released saved_int) :
      Code cpu .restore { cpu with
        enabled := if saved_int then true else cpu.enabled
        context := ⟨.running, cpu.context.guards⟩ }
  /-- Code that holds no guard enables or disables interrupts itself, as
  `kernel_main` and `sleep_if_idle` do. -/
  | set_flag {cpu : Cpu Mutex} (flag : Bool) (hphase : cpu.context.phase = .running)
      (hguards : cpu.context.guards = []) : Code cpu .set_flag { cpu with enabled := flag }

/-- The steps of a core: those of the code that runs, and the delivery of and
the return from an interrupt. -/
inductive Step : Core Mutex → Event → Core Mutex → Prop where
  | code {core : Core Mutex} {event : Event} {cpu : Cpu Mutex} (hcode : Code core.toCpu event cpu) :
      Step core event ⟨cpu, core.interrupted⟩
  | interrupt {core : Core Mutex} (henabled : core.enabled = true) :
      Step core .interrupt
        ⟨⟨false, core.locked, Context.start⟩, (core.context, core.enabled) :: core.interrupted⟩
  | iret {core : Core Mutex} {context : Context Mutex} {flag : Bool} {rest : List (Context Mutex × Bool)}
      (hdone : core.context = Context.start) (hinterrupted : core.interrupted = (context, flag) :: rest) :
      Step core .iret ⟨⟨flag, core.locked, context⟩, rest⟩

/-- The steps of a core until the context over `depth` interrupted ones returns,
as long as that context does not set the flag itself. -/
structure Within (depth : Nat) (core : Core Mutex) (event : Event) (next : Core Mutex) : Prop where
  step : Step core event next
  stays : depth ≤ next.interrupted.length
  quiet : core.interrupted.length = depth → event ≠ .set_flag

end conc_os.mutex
