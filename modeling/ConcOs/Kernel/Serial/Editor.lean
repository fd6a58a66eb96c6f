import ConcOs.Kernel.Serial
import ConcOs.Rust.Run
import ConcOs.Rust.Terminal

open rust Result terminal

namespace conc_os.serial

/-- What a byte does to the line being edited. -/
def edit (line : List UInt8) (byte : UInt8) : List UInt8 :=
  if byte = 8 ∨ byte = 127 then line.dropLast else if Printable byte then line ++ [byte] else line

/-- The line after some bytes, none of which ended it. -/
def editLine (bytes : List UInt8) : List UInt8 := bytes.foldl edit []

/-- Line feed and carriage return end the line. -/
def Ends (byte : UInt8) : Prop := byte = 10 ∨ byte = 13

instance (byte : UInt8) : Decidable (Ends byte) := inferInstanceAs (Decidable (_ ∨ _))

/-- A byte that ends the line, or would make it longer than `n`. -/
def Decides (n : Nat) (line : List UInt8) (byte : UInt8) : Prop :=
  Ends byte ∨ (Printable byte ∧ line.length = n)

instance (n : Nat) (line : List UInt8) (byte : UInt8) : Decidable (Decides n line byte) :=
  inferInstanceAs (Decidable (_ ∨ _))

/-- No byte so far has decided anything. -/
def Undecided (n : Nat) (bytes : List UInt8) : Prop :=
  ∀ past byte rest, bytes = past ++ byte :: rest → ¬ Decides n (editLine past) byte

theorem editLine_snoc (past : List UInt8) (byte : UInt8) :
    editLine (past ++ [byte]) = edit (editLine past) byte := by
  rw [editLine, List.foldl_append]
  rfl

theorem undecided_nil (n : Nat) : Undecided n [] := fun past byte rest hsplit => by simp at hsplit

theorem undecided_snoc {n : Nat} {past : List UInt8} {byte : UInt8} :
    Undecided n (past ++ [byte]) ↔ Undecided n past ∧ ¬ Decides n (editLine past) byte := by
  constructor
  · intro h
    refine ⟨fun before b rest hsplit => ?_, h past byte [] rfl⟩
    exact h before b (rest ++ [byte]) (by rw [hsplit, List.append_assoc, List.cons_append])
  · rintro ⟨hpast, hlast⟩
    exact forall_split_snoc hpast hlast

/-- Either nothing is decided yet, or there is a first byte that decides. -/
theorem undecided_or_decided (n : Nat) (bytes : List UInt8) :
    Undecided n bytes ∨ ∃ past byte rest, bytes = past ++ byte :: rest ∧ Undecided n past ∧
      Decides n (editLine past) byte := by
  induction bytes using List.reverseRecOn with
  | nil => exact Or.inl (undecided_nil n)
  | append_singleton bytes byte ih =>
    rcases ih with hundecided | ⟨past, first, rest, rfl, hpast, hfirst⟩
    · by_cases hbyte : Decides n (editLine bytes) byte
      · exact Or.inr ⟨bytes, byte, [], rfl, hundecided, hbyte⟩
      · exact Or.inl (undecided_snoc.mpr ⟨hundecided, hbyte⟩)
    · exact Or.inr ⟨past, first, rest ++ [byte], by simp, hpast, hfirst⟩

/-- The state of `readline` after `past`: the line is at the front of the
buffer, and it is what the terminal shows behind any prompt. -/
structure Tracks (n : Nat) (past : List UInt8) (state : Reading) : Prop where
  len : state.buffer.len = n
  le : (editLine past).length ≤ n
  count : state.count = (editLine past).length
  line : state.buffer.val.take state.count = editLine past
  printable : ∀ byte ∈ editLine past, Printable byte
  screen : ∀ prompt : List UInt8,
    ((⟨prompt, prompt.length⟩ : Line).write state.echoed).Shows (prompt ++ editLine past)

theorem Tracks.start (buffer : Slice UInt8) : Tracks buffer.len [] ⟨buffer, 0, []⟩ where
  len := rfl
  le := Nat.zero_le _
  count := rfl
  line := List.take_zero
  printable := by simp [editLine]
  screen := by
    intro prompt
    rw [show prompt ++ editLine [] = prompt from List.append_nil prompt]
    exact Line.shows_self prompt

/-- Erasing the last character. The byte it leaves behind in the buffer is no
longer counted. -/
theorem Tracks.erase {n : Nat} {past : List UInt8} {state : Reading} {byte : UInt8} (h : Tracks n past state)
    (hbyte : byte = 8 ∨ byte = 127) (hcount : 0 < state.count) :
    Tracks n (past ++ [byte]) { state with count := state.count - 1, echoed := state.echoed ++ [8, 32, 8] } := by
  have hedit : editLine (past ++ [byte]) = (editLine past).dropLast := by rw [editLine_snoc, edit, if_pos hbyte]
  have hne : editLine past ≠ [] := by
    intro hnil
    rw [h.count, hnil] at hcount
    exact absurd hcount (by decide)
  refine ⟨h.len, ?_, ?_, ?_, ?_, fun prompt => ?_⟩
  · rw [hedit, List.length_dropLast]
    exact (Nat.sub_le _ _).trans h.le
  · rw [hedit, List.length_dropLast, ← h.count]
  · have hfits : state.count ≤ state.buffer.val.length := by
      rw [Slice.length_val, h.len, h.count]
      exact h.le
    rw [hedit, ← h.line, List.dropLast_eq_take, List.length_take, List.take_take, Nat.min_eq_left hfits,
      Nat.min_eq_left (Nat.sub_le _ _)]
  · intro b hb
    rw [hedit] at hb
    exact h.printable b (List.mem_of_mem_dropLast hb)
  · have hscreen := h.screen prompt
    rw [← List.dropLast_append_getLast hne, ← List.append_assoc] at hscreen
    rw [hedit, Line.write_append]
    exact hscreen.erase

/-- Typing a character while there is room. -/
theorem Tracks.type {n : Nat} {past : List UInt8} {state : Reading} {byte : UInt8} (h : Tracks n past state)
    (hbyte : Printable byte) (hroom : state.count < n) :
    ∃ buffer, state.buffer.set state.count byte = ok buffer ∧
      Tracks n (past ++ [byte]) ⟨buffer, state.count + 1, state.echoed ++ [byte]⟩ := by
  have hback : ¬ (byte = 8 ∨ byte = 127) := by
    rintro (rfl | rfl) <;> exact absurd hbyte (by decide)
  have hedit : editLine (past ++ [byte]) = editLine past ++ [byte] := by
    rw [editLine_snoc, edit, if_neg hback, if_pos hbyte]
  have hlt : state.count < state.buffer.len := by rwa [h.len]
  obtain ⟨buffer, hset, hval, hlen⟩ := state.buffer.set_eq state.count byte hlt
  refine ⟨buffer, hset, hlen.trans h.len, ?_, ?_, ?_, ?_, fun prompt => ?_⟩
  · rw [hedit, List.length_append, List.length_singleton, ← h.count]
    exact hroom
  · rw [hedit, List.length_append, List.length_singleton, h.count]
  · dsimp only
    have hlt' : state.count < (state.buffer.val.set state.count byte).length := by rwa [List.length_set]
    rw [hedit, hval, List.take_add_one, List.take_set_of_le le_rfl, h.line, List.getElem?_eq_getElem hlt',
      List.getElem_set_self, Option.toList_some]
  · rw [hedit]
    intro b hb
    rcases List.mem_append.mp hb with hold | hnew
    · exact h.printable b hold
    · rwa [List.mem_singleton.mp hnew]
  · rw [hedit, Line.write_append, ← List.append_assoc]
    exact (h.screen prompt).type hbyte

/-- A byte that decides nothing is read, and the state keeps track of it. -/
theorem Tracks.step {n : Nat} {past : List UInt8} {state : Reading} {byte : UInt8} (h : Tracks n past state)
    (hundecided : ¬ Decides n (editLine past) byte) :
    ∃ next, readline_step state (some byte) = ok (.cont next) ∧ Tracks n (past ++ [byte]) next := by
  have hends : ¬ (byte = 10 ∨ byte = 13) := fun hends => hundecided (Or.inl hends)
  have hsize := state.buffer.len_le
  rw [readline_step, if_neg hends]
  by_cases herase : (byte = 8 ∨ byte = 127) ∧ state.count > 0
  · exact ⟨_, if_pos herase, h.erase herase.1 herase.2⟩
  rw [if_neg herase]
  by_cases hbyte : Printable byte
  · have hroom : state.count < n := by
      have hle := h.le
      have hfull : (editLine past).length ≠ n := fun hfull => hundecided (Or.inr ⟨hbyte, hfull⟩)
      rw [h.count]
      omega
    obtain ⟨buffer, hset, htracks⟩ := h.type hbyte hroom
    have hlen := h.len
    have hprint : 32 ≤ byte ∧ byte ≤ 126 := hbyte
    refine ⟨_, ?_, htracks⟩
    rw [if_pos hprint, if_pos (by omega), hset, bind_tc_ok,
      Usize.add_eq (by simp only [usizeMax, isizeMax] at *; omega), bind_tc_ok]
  · refine ⟨state, if_neg hbyte, ?_⟩
    -- An ignored byte, or a backspace on the empty line.
    have hedit : editLine (past ++ [byte]) = editLine past := by
      rw [editLine_snoc, edit, if_neg hbyte]
      split
      case isTrue hback =>
        have hzero : (editLine past).length = 0 := by
          rw [← h.count]
          exact Nat.eq_zero_of_not_pos fun hpos => herase ⟨hback, hpos⟩
        rw [List.length_eq_zero_iff.mp hzero, List.dropLast_nil]
      case isFalse => rfl
    exact ⟨h.len, by rw [hedit]; exact h.le, by rw [hedit]; exact h.count, by rw [hedit]; exact h.line,
      by rw [hedit]; exact h.printable, by rw [hedit]; exact h.screen⟩

/-- While nothing is decided `readline` goes on reading. -/
theorem readline_undecided (buffer : Slice UInt8) {past : List UInt8} (hpast : Undecided buffer.len past)
    (rest : List UInt8) :
    ∃ state, readline (past ++ rest) buffer = readline_loop state rest ∧ Tracks buffer.len past state := by
  induction past using List.reverseRecOn generalizing rest with
  | nil => exact ⟨_, rfl, Tracks.start buffer⟩
  | append_singleton past byte ih =>
    obtain ⟨hundecided, hbyte⟩ := undecided_snoc.mp hpast
    obtain ⟨state, hread, htracks⟩ := ih hundecided (byte :: rest)
    obtain ⟨next, hstep, hnext⟩ := htracks.step hbyte
    refine ⟨next, ?_, hnext⟩
    rw [List.append_assoc, List.singleton_append, hread, readline_loop, hstep, bind_tc_ok]

/-- At the end of the line `readline` returns it. -/
theorem readline_ends (buffer : Slice UInt8) {past : List UInt8} (hpast : Undecided buffer.len past)
    {byte : UInt8} (hends : Ends byte) (rest : List UInt8) :
    ∃ state, Tracks buffer.len past state ∧ readline (past ++ byte :: rest) buffer =
      ok (.returned (.ok (editLine past).length) { state with echoed := state.echoed ++ [10] } rest) := by
  obtain ⟨state, hread, htracks⟩ := readline_undecided buffer hpast (byte :: rest)
  have hnewline : byte = 10 ∨ byte = 13 := hends
  refine ⟨state, htracks, ?_⟩
  rw [hread, readline_loop, readline_step, if_pos hnewline, bind_tc_ok, htracks.count]

/-- At the first character that does not fit `readline` gives up. -/
theorem readline_overflows (buffer : Slice UInt8) {past : List UInt8} (hpast : Undecided buffer.len past)
    {byte : UInt8} (hbyte : Printable byte) (hfull : (editLine past).length = buffer.len) (rest : List UInt8) :
    ∃ state, Tracks buffer.len past state ∧
      readline (past ++ byte :: rest) buffer = ok (.returned (.error .BufferTooSmall) state rest) := by
  obtain ⟨state, hread, htracks⟩ := readline_undecided buffer hpast (byte :: rest)
  refine ⟨state, htracks, ?_⟩
  have hprint : 32 ≤ byte ∧ byte ≤ 126 := hbyte
  have hends : ¬ (byte = 10 ∨ byte = 13) := by
    rintro (rfl | rfl) <;> exact absurd hbyte (by decide)
  have hback : ¬ ((byte = 8 ∨ byte = 127) ∧ state.count > 0) := by
    rintro ⟨rfl | rfl, _⟩ <;> exact absurd hbyte (by decide)
  have hcount : ¬ state.count < state.buffer.len := by rw [htracks.count, hfull, htracks.len]; omega
  rw [hread, readline_loop, readline_step, if_neg hends, if_neg hback, if_pos hprint, if_neg hcount, bind_tc_ok]

end conc_os.serial
