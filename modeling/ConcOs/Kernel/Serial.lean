import ConcOs.Rust.Slice

open rust Result

namespace conc_os.serial

inductive TTYErr where
  | BufferTooSmall
  | SerialErr
deriving DecidableEq

/-- The variables of `readline` and the bytes it has written to the terminal. -/
structure Reading where
  buffer : Slice UInt8
  count : Nat
  echoed : List UInt8

/-- One iteration of `readline`, on what `stream.next()` returned. -/
def readline_step (self : Reading) (next : Option UInt8) :
    Result (ControlFlow Reading (Except TTYErr Nat × Reading)) :=
  match next with
  | none => ok (.done (.error .SerialErr, self))
  | some byte =>
    if byte = 10 ∨ byte = 13 then ok (.done (.ok self.count, { self with echoed := self.echoed ++ [10] }))
    else if (byte = 8 ∨ byte = 127) ∧ self.count > 0 then
      -- Move left, print space, move left again.
      ok (.cont { self with count := self.count - 1, echoed := self.echoed ++ [8, 32, 8] })
    else if 32 ≤ byte ∧ byte ≤ 126 then
      if self.count < self.buffer.len then do
        let buffer ← self.buffer.set self.count byte
        let count ← Usize.add self.count 1
        ok (.cont { buffer, count, echoed := self.echoed ++ [byte] })
      else ok (.done (.error .BufferTooSmall, self))
    else ok (.cont self)

/-- How far `readline` has come: it has returned and left the rest of the
stream unread, or it has read all there was and awaits the next byte. -/
inductive Progress where
  | returned (result : Except TTYErr Nat) (state : Reading) (unread : List UInt8)
  | awaiting (state : Reading)

/-- The loop of `readline`, on the bytes that arrive. The stream never ends. -/
def readline_loop (self : Reading) : List UInt8 → Result Progress
  | [] => ok (.awaiting self)
  | byte :: stream => do
    match ← readline_step self (some byte) with
    | .cont next => readline_loop next stream
    | .done (result, state) => ok (.returned result state stream)

def readline (stream : List UInt8) (buffer : Slice UInt8) : Result Progress :=
  readline_loop { buffer, count := 0, echoed := [] } stream

end conc_os.serial

namespace conc_os.main

open conc_os.serial

/-- `str::from_utf8`. -/
def from_utf8 (bytes : List UInt8) : Option String := String.fromUTF8? bytes.toByteArray

/-- What `handle_serial` prints once `readline` has returned. -/
def report (result : Except TTYErr Nat) (buffer : Slice UInt8) : Result String := do
  match result with
  | .ok count =>
    match from_utf8 (← buffer.range 0 count).val with
    | some s => ok (s ++ "\n")
    | none => ok "line was not utf8"
  | .error .BufferTooSmall => ok "line too long"
  | .error .SerialErr => ok "serial err"

theorem line_buffer_le : 1024 ≤ isizeMax := by decide

/-- `handle_serial`, on the bytes that arrive, for at most `fuel` lines: what it
has printed after each of them when it awaits the next byte. -/
def handle_serial : Nat → List UInt8 → Result (List String)
  | 0, _ => div
  | fuel + 1, stream => do
    let buffer := Slice.ofBytes line_buffer_le (Bytes.zeros 1024)
    match ← readline stream buffer with
    | .awaiting _ => ok []
    | .returned result state unread => do
      let text ← report result state.buffer
      let texts ← handle_serial fuel unread
      ok (text :: texts)

end conc_os.main
