import ConcOs.Kernel.Serial.Editor

open rust Result terminal

namespace conc_os.main

open conc_os.serial

/-- Printable codes are their own encoding. -/
theorem utf8Encode_printable {bytes : List UInt8} (h : ∀ byte ∈ bytes, Printable byte) :
    (bytes.map Char.ofUInt8).utf8Encode = bytes.toByteArray := by
  have hchar : ∀ byte, Printable byte → String.utf8EncodeChar (Char.ofUInt8 byte) = [byte] := by
    intro byte hbyte
    have hle : byte.toNat ≤ 126 := UInt8.le_iff_toNat_le.mp hbyte.2
    have hval : (Char.ofUInt8 byte).val.toNat = byte.toNat := UInt8.toNat_toUInt32 byte
    simp only [String.utf8EncodeChar, hval]
    rw [if_pos (by omega), UInt8.ofNat_toNat]
  rw [List.utf8Encode]
  congr 1
  induction bytes with
  | nil => rfl
  | cons byte bytes ih =>
    rw [List.map_cons, List.flatMap_cons, hchar byte (h byte List.mem_cons_self),
      ih fun b hb => h b (List.mem_cons_of_mem _ hb), List.singleton_append]

theorem from_utf8_printable {bytes : List UInt8} (h : ∀ byte ∈ bytes, Printable byte) :
    from_utf8 bytes = some (String.ofList (bytes.map Char.ofUInt8)) := by
  have hencode := utf8Encode_printable h
  have hvalid : bytes.toByteArray.IsValidUTF8 := ⟨_, hencode.symm⟩
  rw [from_utf8, String.fromUTF8?, dif_pos hvalid, Option.some.injEq]
  exact String.toByteArray_inj.mp hencode.symm

/-- What `handle_serial` may print after a line: the line itself, or that it
was too long. -/
inductive Answer : String → Prop where
  | line {bytes : List UInt8} (hprintable : ∀ byte ∈ bytes, Printable byte) :
      Answer (String.ofList (bytes.map Char.ofUInt8) ++ "\n")
  | tooLong : Answer "line too long"

theorem Answer.ne_not_utf8 {text : String} (h : Answer text) : text ≠ "line was not utf8" := by
  cases h with
  | line hprintable =>
    intro heq
    have hlast := congrArg (fun s => s.toList.getLast?) heq
    simp at hlast
  | tooLong => decide

/-- A line that was read is printed back. -/
theorem report_line {n : Nat} {past : List UInt8} {state : Reading} (h : Tracks n past state) :
    report (.ok (editLine past).length) state.buffer =
      ok (String.ofList ((editLine past).map Char.ofUInt8) ++ "\n") := by
  have hfits : (editLine past).length ≤ state.buffer.len := by
    rw [h.len]
    exact h.le
  have hline : (state.buffer.sub 0 (editLine past).length).val = editLine past := by
    rw [Slice.val_sub, List.drop_zero, Nat.sub_zero, ← h.count, h.line]
  simp only [report, Slice.range_eq (Nat.zero_le _) hfits, bind_tc_ok, hline, from_utf8_printable h.printable]

/-- Every stream is answered line by line, and the text of a line is never
found invalid. -/
theorem handle_serial_answers (fuel : Nat) {stream : List UInt8} (hfuel : stream.length < fuel) :
    ∃ texts, handle_serial fuel stream = ok texts ∧ ∀ text ∈ texts, Answer text := by
  induction fuel generalizing stream with
  | zero => omega
  | succ fuel ih =>
    rcases undecided_or_decided (Slice.ofBytes line_buffer_le (Bytes.zeros 1024)).len stream with
      hundecided | ⟨past, byte, rest, rfl, hpast, hdecides⟩
    · obtain ⟨state, hread, _⟩ := readline_undecided _ hundecided []
      rw [List.append_nil] at hread
      exact ⟨[], by rw [handle_serial, hread]; rfl, by simp⟩
    have hrest : rest.length < fuel := by
      rw [List.length_append, List.length_cons] at hfuel
      omega
    obtain ⟨texts, htexts, hanswers⟩ := ih hrest
    rcases hdecides with hends | ⟨hbyte, hfull⟩
    · obtain ⟨state, htracks, hread⟩ := readline_ends _ hpast hends rest
      refine ⟨_ :: texts, ?_, List.forall_mem_cons.mpr ⟨.line htracks.printable, hanswers⟩⟩
      simp only [handle_serial, hread, bind_tc_ok, report_line htracks, htexts]
    · obtain ⟨state, _, hread⟩ := readline_overflows _ hpast hbyte hfull rest
      refine ⟨_ :: texts, ?_, List.forall_mem_cons.mpr ⟨.tooLong, hanswers⟩⟩
      simp only [handle_serial, hread, bind_tc_ok, report, htexts]

/-- `readline` is the line editor: it returns the line when it ends, gives up at
the first character that does not fit, reads no byte after the one that decides
and keeps the terminal in step. So `handle_serial` never meets invalid text. -/
theorem readline_edits (stream : List UInt8) (buffer : Slice UInt8) :
    (∀ past byte unread, stream = past ++ byte :: unread → Undecided buffer.len past → Ends byte →
      ∃ state, readline stream buffer = ok (.returned (.ok (editLine past).length) state unread) ∧
        state.buffer.val.take (editLine past).length = editLine past ∧
        (∀ b ∈ editLine past, 32 ≤ b ∧ b ≤ 126) ∧
        (∃ s, from_utf8 (state.buffer.val.take (editLine past).length) = some s) ∧
        ∃ echo, state.echoed = echo ++ [10] ∧ ∀ prompt : List UInt8,
          ((⟨prompt, prompt.length⟩ : Line).write echo).Shows (prompt ++ editLine past)) ∧
    (∀ past byte unread, stream = past ++ byte :: unread → Undecided buffer.len past → Printable byte →
      (editLine past).length = buffer.len →
      ∃ state, readline stream buffer = ok (.returned (.error .BufferTooSmall) state unread) ∧
        ∀ prompt : List UInt8,
          ((⟨prompt, prompt.length⟩ : Line).write state.echoed).Shows (prompt ++ editLine past)) ∧
    (Undecided buffer.len stream → ∃ state, readline stream buffer = ok (.awaiting state) ∧
      ∀ prompt : List UInt8,
        ((⟨prompt, prompt.length⟩ : Line).write state.echoed).Shows (prompt ++ editLine stream)) ∧
    (Undecided buffer.len stream ∨ ∃ past byte unread, stream = past ++ byte :: unread ∧
      Undecided buffer.len past ∧ Decides buffer.len (editLine past) byte) ∧
    ∃ texts, handle_serial (stream.length + 1) stream = ok texts ∧ "line was not utf8" ∉ texts := by
  refine ⟨?_, ?_, ?_, undecided_or_decided _ _, ?_⟩
  · rintro past byte unread rfl hpast hends
    obtain ⟨state, htracks, hread⟩ := readline_ends buffer hpast hends unread
    have hline : state.buffer.val.take (editLine past).length = editLine past := by
      rw [← htracks.count, htracks.line]
    refine ⟨_, hread, hline, htracks.printable, ?_, state.echoed, rfl, htracks.screen⟩
    rw [hline, from_utf8_printable htracks.printable]
    exact ⟨_, rfl⟩
  · rintro past byte unread rfl hpast hbyte hfull
    obtain ⟨state, htracks, hread⟩ := readline_overflows buffer hpast hbyte hfull unread
    exact ⟨state, hread, htracks.screen⟩
  · intro hundecided
    obtain ⟨state, hread, htracks⟩ := readline_undecided buffer hundecided []
    rw [List.append_nil] at hread
    exact ⟨state, hread, htracks.screen⟩
  · obtain ⟨texts, htexts, hanswers⟩ := handle_serial_answers (stream.length + 1) (Nat.lt_succ_self _)
    exact ⟨texts, htexts, fun hmem => (hanswers _ hmem).ne_not_utf8 rfl⟩

/-- A character typed, erased and replaced in a buffer of one byte. -/
theorem readline_edits_replaced : ∃ state,
    readline [97, 8, 98, 13, 99] ⟨[0], by decide⟩ = ok (.returned (.ok 1) state [99]) ∧
      state.buffer.val.take 1 = [98] := by
  have hpast : Undecided 1 [97, 8, 98] := by
    have hfirst : Undecided 1 ([] ++ [97]) := undecided_snoc.mpr ⟨undecided_nil 1, by decide⟩
    have hsecond : Undecided 1 ([97] ++ [8]) := undecided_snoc.mpr ⟨hfirst, by decide⟩
    have hthird : Undecided 1 ([97, 8] ++ [98]) := undecided_snoc.mpr ⟨hsecond, by decide⟩
    exact hthird
  obtain ⟨state, hread, hline, _⟩ :=
    (readline_edits [97, 8, 98, 13, 99] ⟨[0], by decide⟩).1 [97, 8, 98] 13 [99] rfl hpast (by decide)
  exact ⟨state, hread, hline⟩

end conc_os.main
