import ConcOs.Kernel.Serial.Session
import ConcOs.Kernel.Stream.Feed

open rust Result
open conc_os.task.stream conc_os.task.serial

namespace conc_os.interrupts

/-- `com1_interrupt_handler`, on the bytes that the UART holds, with what became of
them. -/
def com1_interrupt_handler {Waker : Type} :
    List UInt8 → SerialStream Waker → List (UInt8 × Added × Option Waker) × SerialStream Waker
  | [], stream => ([], stream)
  | byte :: uart, stream =>
    let (result, woken, stream) := add_byte stream byte
    let (events, stream) := com1_interrupt_handler uart stream
    ((byte, result, woken) :: events, stream)

theorem com1_interrupt_handler_eq {Waker : Type} (uart : List UInt8) (stream : SerialStream Waker) :
    com1_interrupt_handler uart stream = stream.addAll uart := by
  induction uart generalizing stream with
  | nil => rfl
  | cons byte uart ih =>
    simp only [com1_interrupt_handler, ih]
    rfl

end conc_os.interrupts

namespace conc_os.main

open conc_os.serial conc_os.interrupts

/-- The buffer of `handle_serial`. -/
def lineBuffer : Slice UInt8 := Slice.ofBytes line_buffer_le (Bytes.zeros 1024)

/-- The bytes that printing a text writes. -/
def printed (text : String) : List UInt8 := text.toUTF8.toList

/-- Where `handle_serial` is. -/
inductive ConsoleStage where
  /-- before its first poll -/
  | starting
  /-- before the prompt -/
  | prompting
  /-- in `readline` -/
  | reading (state : Reading)
  /-- after `readline` has returned -/
  | reporting (result : Except TTYErr Nat) (state : Reading)

/-- What was written for the current line. -/
def ConsoleStage.echoed : ConsoleStage → List UInt8
  | .reading state | .reporting _ state => state.echoed
  | _ => []

/-- The serial line and its task: the bytes that the UART holds, the stream, and
what was written before the current line. -/
structure Console (Waker : Type) where
  uart : List UInt8
  stream : Session UInt8 Waker
  stage : ConsoleStage
  written : List UInt8

namespace Console

variable {Waker : Type}

def boot : Console Waker := ⟨[], ⟨.uninit, .idle⟩, .starting, []⟩

/-- All that was written. -/
def output (self : Console Waker) : List UInt8 := self.written ++ self.stage.echoed

end Console

/-- What an iteration of `readline` leads to. -/
def ConsoleStage.after : ControlFlow Reading (Except TTYErr Nat × Reading) → ConsoleStage
  | .cont state => reading state
  | .done (result, state) => reporting result state

inductive ConsoleLabel (Waker : Type) where
  | arrive (byte : UInt8)
  | irq (events : List (UInt8 × Added × Option Waker))
  | start
  | prompt
  | poll (label : Label UInt8 Waker)
  | report

/-- A byte arrives, the interrupt is handled, or `handle_serial` takes a step. -/
inductive ConsoleStep {Waker : Type} : Console Waker → ConsoleLabel Waker → Console Waker → Prop where
  | arrive {c : Console Waker} (byte : UInt8) :
      ConsoleStep c (.arrive byte) { c with uart := c.uart ++ [byte] }
  | irq {c : Console Waker} {events : List (UInt8 × Added × Option Waker)} {channel : SerialStream Waker}
      (hcall : com1_interrupt_handler c.uart c.stream.channel = (events, channel)) :
      ConsoleStep c (.irq events) { c with uart := [], stream.channel := channel }
  | start {c : Console Waker} {channel : SerialStream Waker} (hstage : c.stage = .starting)
      (hinit : c.stream.channel.init = ok channel) :
      ConsoleStep c .start { c with stream.channel := channel, stage := .prompting }
  | prompt {c : Console Waker} (hstage : c.stage = .prompting) :
      ConsoleStep c .prompt
        { c with stage := .reading ⟨lineBuffer, 0, []⟩, written := c.written ++ printed "> " }
  | poll {c : Console Waker} {state : Reading} {label : Label UInt8 Waker} {stream : Session UInt8 Waker}
      (hstage : c.stage = .reading state) (hpolls : label.Polls) (hnone : label.yielded? = none)
      (hstep : task.stream.Step c.stream label stream) : ConsoleStep c (.poll label) { c with stream := stream }
  | read {c : Console Waker} {state : Reading} {label : Label UInt8 Waker} {stream : Session UInt8 Waker}
      {byte : UInt8} {flow : ControlFlow Reading (Except TTYErr Nat × Reading)}
      (hstage : c.stage = .reading state) (hpolls : label.Polls) (hyielded : label.yielded? = some byte)
      (hstep : task.stream.Step c.stream label stream) (hcall : readline_step state (some byte) = ok flow) :
      ConsoleStep c (.poll label) { c with stream := stream, stage := .after flow }
  | report {c : Console Waker} {result : Except TTYErr Nat} {state : Reading} {text : String}
      (hstage : c.stage = .reporting result state) (hcall : report result state.buffer = ok text) :
      ConsoleStep c .report { c with stage := .prompting, written := c.written ++ state.echoed ++ printed text }

/-- All that `handle_serial` writes on the bytes that arrive, until it awaits the
next one. -/
def transcript : Nat → List UInt8 → Result (List UInt8)
  | 0, _ => div
  | fuel + 1, stream => do
    match ← readline stream lineBuffer with
    | .awaiting state => ok (printed "> " ++ state.echoed)
    | .returned result state unread => do
      let text ← report result state.buffer
      let rest ← transcript fuel unread
      ok (printed "> " ++ state.echoed ++ printed text ++ rest)

section lines

/-- `readline` reads no byte after it has returned. -/
theorem readline_loop_append {start state : Reading} {result : Except TTYErr Nat} {bytes unread : List UInt8}
    (h : readline_loop start bytes = ok (.returned result state unread)) (rest : List UInt8) :
    readline_loop start (bytes ++ rest) = ok (.returned result state (unread ++ rest)) := by
  induction bytes generalizing start with
  | nil => cases h
  | cons byte bytes ih =>
    rw [readline_loop, bind_eq_ok_iff] at h
    obtain ⟨flow, hstep, h⟩ := h
    rw [List.cons_append, readline_loop, hstep, bind_tc_ok]
    cases flow with
    | cont next => exact ih h
    | done value =>
      obtain ⟨rfl, rfl, rfl⟩ := Progress.returned.inj (ok.inj h)
      rfl

/-- While it awaits a byte, `readline` goes on from where it is. -/
theorem readline_loop_awaiting {start state : Reading} {bytes : List UInt8}
    (h : readline_loop start bytes = ok (.awaiting state)) (rest : List UInt8) :
    readline_loop start (bytes ++ rest) = readline_loop state rest := by
  induction bytes generalizing start with
  | nil =>
    obtain rfl := Progress.awaiting.inj (ok.inj h)
    rfl
  | cons byte bytes ih =>
    rw [readline_loop, bind_eq_ok_iff] at h
    obtain ⟨flow, hstep, h⟩ := h
    rw [List.cons_append, readline_loop, hstep, bind_tc_ok]
    cases flow with
    | cont next => exact ih h
    | done value => cases h

/-- Lines that were read, and what was written for them. -/
inductive Lines : List UInt8 → List UInt8 → Prop where
  | nil : Lines [] []
  | snoc {past output line : List UInt8} {result : Except TTYErr Nat} {state : Reading} {text : String}
      (hpast : Lines past output) (hread : readline line lineBuffer = ok (.returned result state []))
      (hreport : report result state.buffer = ok text) :
      Lines (past ++ line) (output ++ printed "> " ++ state.echoed ++ printed text)

theorem readline_nil (buffer : Slice UInt8) : readline [] buffer = ok (.awaiting ⟨buffer, 0, []⟩) := rfl

/-- The transcript is that of the lines and that of the rest. -/
theorem Lines.transcript {past output : List UInt8} (h : Lines past output) {rest after : List UInt8}
    (hrest : ∀ fuel, rest.length < fuel → transcript fuel rest = ok after) (fuel : Nat)
    (hfuel : (past ++ rest).length < fuel) : transcript fuel (past ++ rest) = ok (output ++ after) := by
  induction h generalizing rest after with
  | nil => exact hrest fuel hfuel
  | @snoc past output line result state text hpast hread hreport ih =>
    have hline : line ≠ [] := by
      rintro rfl
      rw [readline_nil] at hread
      cases hread
    have hlength := List.length_pos_iff.mpr hline
    have hnext : ∀ fuel, (line ++ rest).length < fuel →
        conc_os.main.transcript fuel (line ++ rest) =
          ok (printed "> " ++ state.echoed ++ printed text ++ after) := by
      intro fuel hfuel
      cases fuel with
      | zero => omega
      | succ fuel =>
        rw [List.length_append] at hfuel
        have hfirst := readline_loop_append hread rest
        simp only [conc_os.main.transcript, readline, hfirst, bind_tc_ok, hreport, List.nil_append,
          hrest fuel (by omega)]
    rw [List.append_assoc] at hfuel ⊢
    rw [ih hnext hfuel]
    simp [List.append_assoc]

/-- `readline` never panics. -/
theorem readline_returns (bytes : List UInt8) (buffer : Slice UInt8) :
    ∃ progress, readline bytes buffer = ok progress := by
  rcases undecided_or_decided buffer.len bytes with hundecided | ⟨past, byte, rest, rfl, hpast,
    hends | ⟨hbyte, hfull⟩⟩
  · obtain ⟨state, hread, _⟩ := readline_undecided buffer hundecided []
    rw [List.append_nil] at hread
    exact ⟨_, hread⟩
  · obtain ⟨state, _, hread⟩ := readline_ends buffer hpast hends rest
    exact ⟨_, hread⟩
  · obtain ⟨state, _, hread⟩ := readline_overflows buffer hpast hbyte hfull rest
    exact ⟨_, hread⟩

/-- Neither does what is done with its result. -/
theorem report_returns {bytes unread : List UInt8} {buffer : Slice UInt8} {result : Except TTYErr Nat}
    {state : Reading} (h : readline bytes buffer = ok (.returned result state unread)) :
    ∃ text, report result state.buffer = ok text := by
  rcases undecided_or_decided buffer.len bytes with hundecided | ⟨past, byte, rest, rfl, hpast,
    hends | ⟨hbyte, hfull⟩⟩
  · obtain ⟨state', hread, _⟩ := readline_undecided buffer hundecided []
    rw [List.append_nil, h] at hread
    cases hread
  · obtain ⟨state', htracks, hread⟩ := readline_ends buffer hpast hends rest
    obtain ⟨rfl, rfl, _⟩ := Progress.returned.inj (ok.inj (hread.symm.trans h))
    have htext := report_line htracks
    exact ⟨_, htext⟩
  · obtain ⟨state', _, hread⟩ := readline_overflows buffer hpast hbyte hfull rest
    obtain ⟨rfl, rfl, _⟩ := Progress.returned.inj (ok.inj (hread.symm.trans h))
    exact ⟨_, rfl⟩

end lines

section runs

variable {Waker : Type}

namespace ConsoleLabel

def arrived? : ConsoleLabel Waker → Option UInt8
  | arrive byte => some byte
  | _ => none

/-- What became of the bytes of an interrupt. -/
def events : ConsoleLabel Waker → List (UInt8 × Added × Option Waker)
  | irq events => events
  | _ => []

/-- The steps of the stream that a step makes. -/
def stream : ConsoleLabel Waker → List (Label UInt8 Waker)
  | irq events => streamLabels events
  | poll label => [label]
  | _ => []

end ConsoleLabel

/-- The bytes that have arrived, in order. -/
def arrived (trace : List (ConsoleLabel Waker)) : List UInt8 := trace.filterMap ConsoleLabel.arrived?

/-- What became of the bytes that interrupts have taken from the UART, in order. -/
def handled (trace : List (ConsoleLabel Waker)) : List (UInt8 × Added × Option Waker) :=
  trace.flatMap ConsoleLabel.events

/-- The part of a run that is the stream's. -/
def consoleStream (trace : List (ConsoleLabel Waker)) : List (Label UInt8 Waker) :=
  trace.flatMap ConsoleLabel.stream

/-- What the task has done with the bytes that it has read. -/
def Reads (bytes written : List UInt8) : ConsoleStage → Prop
  | .starting => bytes = [] ∧ written = []
  | .prompting => Lines bytes written
  | .reading state => ∃ past output current, bytes = past ++ current ∧ written = output ++ printed "> " ∧
      Lines past output ∧ readline current lineBuffer = ok (.awaiting state)
  | .reporting result state => ∃ past output current, bytes = past ++ current ∧
      written = output ++ printed "> " ∧ Lines past output ∧
      readline current lineBuffer = ok (.returned result state [])

/-- Every byte is where it should be: it is in the UART, or an interrupt has passed
it to the stream, and the task has read what the stream has yielded. -/
structure Faithful (trace : List (ConsoleLabel Waker)) (c : Console Waker) : Prop where
  arrived : arrived trace = (handled trace).map Prod.fst ++ c.uart
  accepted : acceptedItems (consoleStream trace) = acceptedBy (handled trace)
  streamed : Streamed (c.stage ≠ .starting) (consoleStream trace) c.stream
  reads : Reads (yieldedItems (consoleStream trace)) c.written c.stage

theorem Reads.byte {bytes written : List UInt8} {state : Reading} {byte : UInt8}
    {flow : ControlFlow Reading (Except TTYErr Nat × Reading)} (h : Reads bytes written (.reading state))
    (hcall : readline_step state (some byte) = ok flow) : Reads (bytes ++ [byte]) written (.after flow) := by
  obtain ⟨past, output, current, rfl, rfl, hlines, hread⟩ := h
  have hnext : readline (current ++ [byte]) lineBuffer = readline_loop state [byte] :=
    readline_loop_awaiting hread [byte]
  rw [readline_loop, hcall, bind_tc_ok] at hnext
  cases flow with
  | cont next => exact ⟨past, output, current ++ [byte], List.append_assoc .., rfl, hlines, hnext⟩
  | done value => exact ⟨past, output, current ++ [byte], List.append_assoc .., rfl, hlines, hnext⟩

theorem arrived_snoc (trace : List (ConsoleLabel Waker)) (label : ConsoleLabel Waker) :
    arrived (trace ++ [label]) = arrived trace ++ label.arrived?.toList := filterMap_snoc _ _ _

theorem handled_snoc (trace : List (ConsoleLabel Waker)) (label : ConsoleLabel Waker) :
    handled (trace ++ [label]) = handled trace ++ label.events := by
  simp [handled]

theorem consoleStream_snoc (trace : List (ConsoleLabel Waker)) (label : ConsoleLabel Waker) :
    consoleStream (trace ++ [label]) = consoleStream trace ++ label.stream := by
  simp [consoleStream]

theorem Faithful.boot : Faithful ([] : List (ConsoleLabel Waker)) .boot :=
  ⟨rfl, rfl, Streamed.boot.congr (by simp [Console.boot]), rfl, rfl⟩

/-- A step of the task that leaves the stream alone. -/
theorem Faithful.print {trace : List (ConsoleLabel Waker)} {c : Console Waker} {label : ConsoleLabel Waker}
    {stage : ConsoleStage} {written : List UInt8} (h : Faithful trace c) (harrived : label.arrived? = none)
    (hevents : label.events = []) (hstream : label.stream = []) (hbefore : c.stage ≠ .starting)
    (hafter : stage ≠ .starting) (hreads : Reads (yieldedItems (consoleStream trace)) written stage) :
    Faithful (trace ++ [label]) { c with stage := stage, written := written } := by
  refine ⟨?_, ?_, ?_, ?_⟩
  · rw [arrived_snoc, handled_snoc, harrived, hevents, h.arrived]
    simp
  · rw [consoleStream_snoc, handled_snoc, hstream, hevents, List.append_nil, List.append_nil, h.accepted]
  · rw [consoleStream_snoc, hstream, List.append_nil]
    exact h.streamed.congr (iff_of_true hbefore hafter)
  · rwa [consoleStream_snoc, hstream, List.append_nil]

/-- A step of `poll_next`. -/
theorem Faithful.poll {trace : List (ConsoleLabel Waker)} {c : Console Waker} {label : Label UInt8 Waker}
    {stream : Session UInt8 Waker} {stage : ConsoleStage} (h : Faithful trace c) (hbefore : c.stage ≠ .starting)
    (hafter : stage ≠ .starting) (hstep : task.stream.Step c.stream label stream)
    (haccepted : label.accepted? = none)
    (hreads : Reads (yieldedItems (consoleStream trace) ++ label.yielded?.toList) c.written stage) :
    Faithful (trace ++ [.poll label]) { c with stream := stream, stage := stage } := by
  refine ⟨?_, ?_, ?_, ?_⟩
  · rw [arrived_snoc, handled_snoc, h.arrived]
    simp [ConsoleLabel.arrived?, ConsoleLabel.events]
  · rw [consoleStream_snoc, handled_snoc, ConsoleLabel.stream, acceptedItems_snoc, haccepted, h.accepted]
    simp [ConsoleLabel.events]
  · rw [consoleStream_snoc]
    exact (h.streamed.poll hbefore hstep).congr (iff_of_true hbefore hafter)
  · rwa [consoleStream_snoc, ConsoleLabel.stream, yieldedItems_snoc]

theorem Faithful.step {trace : List (ConsoleLabel Waker)} {c next : Console Waker} {label : ConsoleLabel Waker}
    (h : Faithful trace c) (hstep : ConsoleStep c label next) : Faithful (trace ++ [label]) next := by
  cases hstep with
  | arrive byte =>
    refine ⟨?_, ?_, ?_, ?_⟩
    · rw [arrived_snoc, handled_snoc, h.arrived]
      simp [ConsoleLabel.arrived?, ConsoleLabel.events]
    · simpa [consoleStream_snoc, handled_snoc, ConsoleLabel.stream, ConsoleLabel.events] using h.accepted
    · simpa [consoleStream_snoc, ConsoleLabel.stream] using h.streamed
    · simpa [consoleStream_snoc, ConsoleLabel.stream] using h.reads
  | irq hcall =>
    rw [com1_interrupt_handler_eq] at hcall
    obtain ⟨rfl, rfl⟩ := Prod.mk.inj hcall
    refine ⟨?_, ?_, ?_, ?_⟩
    · rw [arrived_snoc, handled_snoc, h.arrived]
      simp [ConsoleLabel.arrived?, ConsoleLabel.events, Channel.addAll_items]
    · rw [consoleStream_snoc, handled_snoc, ConsoleLabel.stream, ConsoleLabel.events, acceptedItems,
        List.filterMap_append, ← acceptedItems, ← acceptedItems, acceptedItems_streamLabels, h.accepted]
      simp [acceptedBy]
    · rw [consoleStream_snoc]
      exact h.streamed.interrupt c.uart
    · rw [consoleStream_snoc, ConsoleLabel.stream, yieldedItems, List.filterMap_append, ← yieldedItems,
        ← yieldedItems, yieldedItems_streamLabels, List.append_nil]
      exact h.reads
  | start hstage hinit =>
    have hnone := (h.streamed.before (not_not.mpr hstage)).2
    have hreads := h.reads
    rw [hstage, hnone] at hreads
    refine ⟨?_, ?_, ?_, ?_⟩
    · rw [arrived_snoc, handled_snoc, h.arrived]
      simp [ConsoleLabel.arrived?, ConsoleLabel.events]
    · simpa [consoleStream_snoc, handled_snoc, ConsoleLabel.stream, ConsoleLabel.events] using h.accepted
    · rw [consoleStream_snoc]
      simpa [ConsoleLabel.stream] using h.streamed.construct (not_not.mpr hstage) hinit
    · rw [consoleStream_snoc, hnone, hreads.2]
      exact Lines.nil
  | prompt hstage =>
    have hreads := h.reads
    rw [hstage] at hreads
    refine h.print rfl rfl rfl (by simp [hstage]) (by simp) ⟨_, _, [], ?_, rfl, hreads, readline_nil lineBuffer⟩
    rw [List.append_nil]
  | poll hstage hpolls hnone hstep =>
    have hreads := h.reads
    rw [← List.append_nil (yieldedItems _)] at hreads
    exact h.poll (by simp [hstage]) (by simp [hstage]) hstep hpolls.accepted? (by rwa [hnone])
  | @read state label stream byte flow hstage hpolls hyielded hstep hcall =>
    have hreads := h.reads
    rw [hstage] at hreads
    refine h.poll (by simp [hstage]) (by cases flow <;> simp [ConsoleStage.after]) hstep hpolls.accepted? ?_
    rw [hyielded]
    exact hreads.byte hcall
  | report hstage hcall =>
    have hreads := h.reads
    rw [hstage] at hreads
    obtain ⟨past, output, current, hbytes, hwritten, hlines, hread⟩ := hreads
    refine h.print rfl rfl rfl (by simp [hstage]) (by simp) ?_
    rw [hbytes, hwritten]
    exact hlines.snoc hread hcall

theorem run_faithful {trace : List (ConsoleLabel Waker)} {c : Console Waker}
    (hrun : Run ConsoleStep .boot trace c) : Faithful trace c :=
  hrun.invariant Faithful .boot fun _ _ _ _ => Faithful.step

theorem transcript_nil (fuel : Nat) : transcript (fuel + 1) [] = ok (printed "> ") := by
  simp only [transcript, readline_nil, bind_tc_ok, List.append_nil]

theorem Lines.transcript_prompt {bytes output : List UInt8} (h : Lines bytes output) :
    conc_os.main.transcript (bytes.length + 1) bytes = ok (output ++ printed "> ") := by
  have hempty : ∀ fuel, ([] : List UInt8).length < fuel →
    conc_os.main.transcript fuel [] = ok (printed "> ") := by
    intro fuel hfuel
    obtain ⟨fuel, rfl⟩ := Nat.exists_eq_add_one.mpr hfuel
    exact transcript_nil fuel
  have htranscript := h.transcript hempty (bytes.length + 1) (by simp)
  rwa [List.append_nil] at htranscript

/-- The sequential program has written what the task has, and what the task will
write before it next awaits a byte. -/
theorem Reads.transcript {bytes written : List UInt8} {stage : ConsoleStage} (h : Reads bytes written stage) :
    ∃ rest, conc_os.main.transcript (bytes.length + 1) bytes = ok (written ++ stage.echoed ++ rest) ∧
      ∀ state, stage = .reading state → rest = [] := by
  cases stage with
  | starting =>
    obtain ⟨rfl, rfl⟩ := h
    exact ⟨printed "> ", transcript_nil _, nofun⟩
  | prompting =>
    refine ⟨printed "> ", ?_, nofun⟩
    rw [show ConsoleStage.prompting.echoed = [] from rfl, List.append_nil]
    exact Lines.transcript_prompt h
  | reading state =>
    obtain ⟨past, output, current, rfl, rfl, hlines, hread⟩ := h
    refine ⟨[], ?_, fun _ _ => rfl⟩
    have hcurrent : ∀ fuel, current.length < fuel →
        conc_os.main.transcript fuel current = ok (printed "> " ++ state.echoed) := by
      intro fuel hfuel
      obtain ⟨fuel, rfl⟩ := Nat.exists_eq_add_one.mpr (Nat.zero_lt_of_lt hfuel)
      rw [conc_os.main.transcript, hread, bind_tc_ok]
    rw [hlines.transcript hcurrent _ (Nat.lt_succ_self _)]
    simp [ConsoleStage.echoed]
  | reporting result state =>
    obtain ⟨past, output, current, rfl, rfl, hlines, hread⟩ := h
    obtain ⟨text, htext⟩ := report_returns hread
    refine ⟨printed text ++ printed "> ", ?_, nofun⟩
    rw [(hlines.snoc hread htext).transcript_prompt]
    simp [ConsoleStage.echoed]

/-- In every interleaving of interrupts with the task: the bytes that have arrived
are those that interrupts have handled and those in the UART, the task reads what
the stream accepts in order, and it writes what the sequential program writes on
the bytes that it has read. Nothing that it calls panics: not the constructor of the
stream, the two `pop`s of its `poll_next`, `readline` or the printing of the line. -/
theorem serial_session {trace : List (ConsoleLabel Waker)} {c : Console Waker}
    (hrun : Run ConsoleStep .boot trace c) :
    arrived trace = (handled trace).map Prod.fst ++ c.uart ∧
    yieldedItems (consoleStream trace) ++ c.stream.channel.items = acceptedBy (handled trace) ∧
    (∃ rest, transcript ((yieldedItems (consoleStream trace)).length + 1) (yieldedItems (consoleStream trace)) =
      ok (c.output ++ rest) ∧ ∀ state, c.stage = .reading state → rest = []) ∧
    (c.stage = .starting → ∃ channel, c.stream.channel.init = ok channel) ∧
    (c.stage ≠ .starting → (∃ popped, c.stream.channel.pop = ok popped) ∧
      ∃ popped, c.stream.channel.second_pop = ok popped) ∧
    (∀ state byte, c.stage = .reading state → ∃ flow, readline_step state (some byte) = ok flow) ∧
    ∀ result state, c.stage = .reporting result state → ∃ text, report result state.buffer = ok text := by
  have h := run_faithful hrun
  have hreads := h.reads
  refine ⟨h.arrived, ?_, hreads.transcript, fun hstage => h.streamed.init_returns (not_not.mpr hstage),
    h.streamed.pops_return, fun state byte hstage => ?_, fun result state hstage => ?_⟩
  · rw [← h.accepted]
    by_cases hstage : c.stage = .starting
    · obtain ⟨hstream, htrace⟩ := h.streamed.before (not_not.mpr hstage)
      rw [htrace, hstream]
      rfl
    · exact (run_consistent (h.streamed.after hstage)).fifo
  · rw [hstage] at hreads
    obtain ⟨past, output, current, _, _, _, hread⟩ := hreads
    obtain ⟨progress, hnext⟩ := readline_returns (current ++ [byte]) lineBuffer
    rw [readline, readline_loop_awaiting hread, readline_loop, bind_eq_ok_iff] at hnext
    obtain ⟨flow, hflow, _⟩ := hnext
    exact ⟨flow, hflow⟩
  · rw [hstage] at hreads
    obtain ⟨past, output, current, _, _, _, hread⟩ := hreads
    exact report_returns hread

theorem one_byte_le : [(97 : UInt8)].length ≤ 100 := by decide

/-- The console with one byte queued, while the task awaits it. -/
def typed : Console Nat :=
  ⟨[], ⟨⟨some ⟨[97], one_byte_le⟩, none⟩, .idle⟩, .reading ⟨lineBuffer, 0, []⟩, printed "> "⟩

theorem run_typed : Run ConsoleStep Console.boot
    [.start, .prompt, .arrive 97, .irq [(97, .accepted, none)]] typed := by
  have hstart : ConsoleStep (Console.boot : Console Nat) .start ⟨[], .new, .prompting, []⟩ := .start rfl rfl
  have hprompt : ConsoleStep (⟨[], .new, .prompting, []⟩ : Console Nat) .prompt
      ⟨[], .new, .reading ⟨lineBuffer, 0, []⟩, printed "> "⟩ := .prompt rfl
  have harrive : ConsoleStep (⟨[], .new, .reading ⟨lineBuffer, 0, []⟩, printed "> "⟩ : Console Nat) (.arrive 97)
      ⟨[97], .new, .reading ⟨lineBuffer, 0, []⟩, printed "> "⟩ := .arrive 97
  have hirq : ConsoleStep (⟨[97], .new, .reading ⟨lineBuffer, 0, []⟩, printed "> "⟩ : Console Nat)
      (.irq [(97, .accepted, none)]) typed := .irq rfl
  exact (((Run.nil.snoc hstart).snoc hprompt).snoc harrive).snoc hirq

/-- The task reads a byte that was typed. -/
theorem serial_session_typed : ∃ (trace : List (ConsoleLabel Nat)) (c : Console Nat) (rest : List UInt8),
    Run ConsoleStep .boot trace c ∧ yieldedItems (consoleStream trace) = [97] ∧
      transcript 2 [97] = ok (c.output ++ rest) := by
  obtain ⟨flow, hflow⟩ := (serial_session run_typed).2.2.2.2.2.1 _ 97 rfl
  have hhit : task.stream.Step typed.stream (.hit 1 97) ⟨⟨some ⟨[], by decide⟩, none⟩, .idle⟩ := .hit 1 rfl rfl
  have hread : ConsoleStep typed (.poll (.hit 1 97)) _ := .read rfl trivial rfl hhit hflow
  obtain ⟨rest, htranscript, _⟩ := (serial_session (run_typed.snoc hread)).2.2.1
  exact ⟨_, _, rest, run_typed.snoc hread, rfl, htranscript⟩

end runs

end conc_os.main
