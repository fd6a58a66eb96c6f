import Mathlib.Tactic

namespace terminal

/-- The codes a line of a terminal prints. -/
def Printable (byte : UInt8) : Prop := 32 ≤ byte ∧ byte ≤ 126

instance (byte : UInt8) : Decidable (Printable byte) := inferInstanceAs (Decidable (_ ∧ _))

/-- A line of a terminal, as far as it has been written to. -/
structure Line where
  cells : List UInt8
  cursor : Nat
deriving DecidableEq

/-- A backspace moves the cursor to the left, a printable code is written over
the cell under the cursor, and any other code is ignored. -/
def Line.put (line : Line) (byte : UInt8) : Line :=
  if byte = 8 then { line with cursor := line.cursor - 1 }
  else if Printable byte then
    ⟨line.cells.take line.cursor ++ byte :: line.cells.drop (line.cursor + 1), line.cursor + 1⟩
  else line

theorem Line.put_backspace (line : Line) : line.put 8 = { line with cursor := line.cursor - 1 } := if_pos rfl

theorem Line.put_printable (line : Line) {byte : UInt8} (h : Printable byte) : line.put byte =
    ⟨line.cells.take line.cursor ++ byte :: line.cells.drop (line.cursor + 1), line.cursor + 1⟩ := by
  have hback : byte ≠ 8 := by
    rintro rfl
    exact absurd h (by decide)
  rw [put, if_neg hback, if_pos h]

def Line.write (line : Line) (bytes : List UInt8) : Line := bytes.foldl Line.put line

theorem Line.write_append (line : Line) (first second : List UInt8) :
    line.write (first ++ second) = (line.write first).write second := List.foldl_append

/-- The line reads `text` with the cursor at its end, and only blanks follow. -/
structure Line.Shows (line : Line) (text : List UInt8) : Prop where
  cells : ∃ blanks, line.cells = text ++ List.replicate blanks 32
  cursor : line.cursor = text.length

theorem Line.shows_self (text : List UInt8) : Line.Shows ⟨text, text.length⟩ text := ⟨⟨0, by simp⟩, rfl⟩

/-- What is typed at the end of the text is appended to it. -/
theorem Line.Shows.type {line : Line} {text : List UInt8} (h : line.Shows text) {byte : UInt8}
    (hbyte : Printable byte) : (line.write [byte]).Shows (text ++ [byte]) := by
  obtain ⟨blanks, hcells⟩ := h.cells
  have hwrite : line.write [byte] = ⟨text ++ byte :: (List.replicate blanks 32).drop 1, text.length + 1⟩ := by
    change line.put byte = _
    rw [line.put_printable hbyte, hcells, h.cursor, List.take_left, ← List.drop_drop, List.drop_left]
  rw [hwrite]
  exact ⟨⟨blanks - 1, by simp⟩, by simp⟩

/-- Backspace, blank, backspace takes the last character off the text. -/
theorem Line.Shows.erase {line : Line} {text : List UInt8} {last : UInt8} (h : line.Shows (text ++ [last])) :
    (line.write [8, 32, 8]).Shows text := by
  obtain ⟨blanks, hcells⟩ := h.cells
  have hcursor : line.cursor - 1 = text.length := by
    rw [h.cursor, List.length_append, List.length_singleton, Nat.add_sub_cancel]
  have hwrite : line.write [8, 32, 8] = ⟨text ++ 32 :: List.replicate blanks 32, text.length⟩ := by
    change ((line.put 8).put 32).put 8 = _
    rw [put_backspace, put_printable _ (by decide), put_backspace]
    dsimp only
    rw [hcells, hcursor, List.append_assoc, List.take_left, ← List.drop_drop, List.drop_left]
    rfl
  rw [hwrite]
  exact ⟨⟨blanks + 1, by rw [List.replicate_succ]⟩, rfl⟩

end terminal
