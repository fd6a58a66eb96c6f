import ConcOs.Rust.Page
import ConcOs.Rust.Run
import ConcOs.Rust.Scalar

open rust Result

namespace conc_os.vga

inductive Color where
  | Black
  | Blue
  | Green
  | Cyan
  | Red
  | Magenta
  | Brown
  | LightGray
  | DarkGray
  | LightBlue
  | LightGreen
  | LightCyan
  | LightRed
  | Pink
  | Yellow
  | White
deriving DecidableEq

def Color.as_u8 : Color → UInt8
  | .Black => 0
  | .Blue => 1
  | .Green => 2
  | .Cyan => 3
  | .Red => 4
  | .Magenta => 5
  | .Brown => 6
  | .LightGray => 7
  | .DarkGray => 8
  | .LightBlue => 9
  | .LightGreen => 10
  | .LightCyan => 11
  | .LightRed => 12
  | .Pink => 13
  | .Yellow => 14
  | .White => 15

structure ColorCode where
  code : UInt8
deriving DecidableEq

def ColorCode.new (foreground background : Color) : ColorCode :=
  ⟨background.as_u8 <<< 4 ||| foreground.as_u8⟩

structure ScreenChar where
  ascii_character : UInt8
  color_code : ColorCode
deriving DecidableEq

def BUFFER_HEIGHT : Nat := 25

def BUFFER_WIDTH : Nat := 80

/-- The characters by row and column. -/
structure VGABuffer where
  chars : Nat → Nat → ScreenChar

/-- `self.chars[row][col].write(value)`. -/
def VGABuffer.write (self : VGABuffer) (row col : Nat) (value : ScreenChar) : Result VGABuffer :=
  if row < BUFFER_HEIGHT ∧ col < BUFFER_WIDTH then
    ok ⟨fun i j => if i = row ∧ j = col then value else self.chars i j⟩
  else fail .indexOutOfRange

structure ScreenPos where
  row : Nat
  col : Nat
deriving DecidableEq

namespace ScreenPos

def new (row col : Nat) : ScreenPos := ⟨row, col⟩

def incr_row (self : ScreenPos) : Result ScreenPos := do
  let row ← Usize.add self.row 1
  let row := if row = BUFFER_HEIGHT then 0 else row
  return ⟨row, 0⟩

def incr_col (self : ScreenPos) : Result ScreenPos := do
  let self := { self with col := ← Usize.add self.col 1 }
  if self.col = BUFFER_WIDTH then self.incr_row else return self

end ScreenPos

structure Writer where
  position : ScreenPos
  color_code : ColorCode
  buffer : VGABuffer

namespace Writer

/-- `buffer` is what is on the screen at boot. -/
def new (color_code : ColorCode) (buffer : VGABuffer) : Writer := ⟨.new 0 0, color_code, buffer⟩

/-- One iteration of the loop of `write_str`. -/
def write_byte (self : Writer) (byte : UInt8) : Result Writer := do
  if byte = 10 then return { self with position := ← self.position.incr_row }
  let buffer ← self.buffer.write self.position.row self.position.col ⟨byte, self.color_code⟩
  return { self with buffer, position := ← self.position.incr_col }

def write_str (self : Writer) (s : List UInt8) : Result Writer := s.foldlM write_byte self

end Writer

/-- `WRITER` before it is written to. -/
def WRITER (buffer : VGABuffer) : Writer := .new (.new .LightBlue .Black) buffer

/-- `args` is made of the strings that `write_fmt` hands to `write_str`, which never
returns an error. -/
def _print (self : Writer) (args : List (List UInt8)) : Result Writer := args.foldlM Writer.write_str self

open terminal

/-- What is on the screen: the page over what was there at boot. -/
def VGABuffer.over (boot : VGABuffer) (color_code : ColorCode) (page : Page) (row col : Nat) : ScreenChar :=
  (shown BUFFER_HEIGHT page.lines row col).elim (boot.chars row col) (⟨·, color_code⟩)

/-- The writer is at the end of the page. -/
structure Shows (boot : VGABuffer) (color_code : ColorCode) (page : Page) (writer : Writer) : Prop where
  row : writer.position.row = page.finished.length % BUFFER_HEIGHT
  col : writer.position.col = page.current.length
  room : page.current.length < BUFFER_WIDTH
  color : writer.color_code = color_code
  chars : ∀ row col, writer.buffer.chars row col = boot.over color_code page row col

/-- The row after a row, around the end of the screen. -/
theorem succ_mod_height (n : Nat) :
    (if n % BUFFER_HEIGHT + 1 = BUFFER_HEIGHT then 0 else n % BUFFER_HEIGHT + 1) = (n + 1) % BUFFER_HEIGHT := by
  unfold BUFFER_HEIGHT
  split <;> omega

theorem incr_row_eq {pos : ScreenPos} {n : Nat} (hrow : pos.row = n % BUFFER_HEIGHT) :
    pos.incr_row = ok ⟨(n + 1) % BUFFER_HEIGHT, 0⟩ := by
  have hlt : n % BUFFER_HEIGHT < BUFFER_HEIGHT := Nat.mod_lt n (by decide)
  have hheight : BUFFER_HEIGHT ≤ usizeMax := by decide
  rw [ScreenPos.incr_row, hrow, Usize.add_eq (by omega), bind_tc_ok, succ_mod_height]
  rfl

theorem incr_col_eq {pos : ScreenPos} {n k : Nat} (hrow : pos.row = n % BUFFER_HEIGHT) (hcol : pos.col = k)
    (hk : k < BUFFER_WIDTH) :
    pos.incr_col =
      ok (if k + 1 = BUFFER_WIDTH then ⟨(n + 1) % BUFFER_HEIGHT, 0⟩ else ⟨n % BUFFER_HEIGHT, k + 1⟩) := by
  have hwidth : BUFFER_WIDTH ≤ usizeMax := by decide
  rw [ScreenPos.incr_col, hcol, Usize.add_eq (by omega), bind_tc_ok]
  by_cases hfull : k + 1 = BUFFER_WIDTH
  · rw [if_pos hfull, if_pos hfull]
    exact incr_row_eq hrow
  · rw [if_neg hfull, if_neg hfull, hrow]
    rfl

/-- A character is written over the cell that the page shows it in. -/
theorem over_put {boot : VGABuffer} {color_code : ColorCode} {page : Page} {byte : UInt8} (hbyte : byte ≠ 10)
    (row col : Nat) :
    boot.over color_code (page.put BUFFER_WIDTH byte) row col =
      if row = page.finished.length % BUFFER_HEIGHT ∧ col = page.current.length then ⟨byte, color_code⟩
      else boot.over color_code page row col := by
  have hlines : shown BUFFER_HEIGHT (page.put BUFFER_WIDTH byte).lines =
      shown BUFFER_HEIGHT (page.finished ++ [page.current ++ [byte]]) := by
    rw [Page.put, if_neg hbyte]
    split
    · exact shown_snoc_nil ..
    · rfl
  rw [VGABuffer.over, hlines, shown_snoc_append]
  split <;> rfl

theorem Shows.new (boot : VGABuffer) (color_code : ColorCode) :
    Shows boot color_code .empty (.new color_code boot) where
  row := rfl
  col := rfl
  room := by decide
  color := rfl
  chars := by
    intro row col
    have hblank : shown BUFFER_HEIGHT Page.empty.lines row col = none := by
      rw [show Page.empty.lines = [] ++ [[]] from rfl, shown_snoc_nil]
      rfl
    rw [VGABuffer.over, hblank]
    rfl

/-- Every byte is written where the page has it. -/
theorem Shows.write_byte {boot : VGABuffer} {color_code : ColorCode} {page : Page} {writer : Writer}
    (h : Shows boot color_code page writer) (byte : UInt8) :
    ∃ next, writer.write_byte byte = ok next ∧ Shows boot color_code (page.put BUFFER_WIDTH byte) next := by
  have hroom := h.room
  by_cases hfeed : byte = 10
  · refine ⟨{ writer with position := ⟨(page.finished.length + 1) % BUFFER_HEIGHT, 0⟩ }, ?_, ?_⟩
    · rw [Writer.write_byte, if_pos hfeed, incr_row_eq h.row]
      rfl
    · rw [Page.put, if_pos hfeed]
      refine ⟨by simp, rfl, Nat.zero_lt_succ _, h.color, fun row col => ?_⟩
      rw [VGABuffer.over, Page.lines, shown_snoc_nil]
      exact h.chars row col
  · have hwrite : writer.buffer.write writer.position.row writer.position.col ⟨byte, writer.color_code⟩ = _ :=
      if_pos ⟨by rw [h.row]; exact Nat.mod_lt _ (by decide), by rw [h.col]; exact h.room⟩
    refine ⟨_, by
      rw [Writer.write_byte, if_neg hfeed, hwrite, bind_tc_ok, incr_col_eq h.row h.col h.room]; rfl, ?_⟩
    refine ⟨?_, ?_, ?_, h.color, fun row col => ?_⟩
    · rw [Page.put, if_neg hfeed]
      split <;> simp
    · rw [Page.put, if_neg hfeed]
      split <;> simp
    · rw [Page.put, if_neg hfeed]
      split
      · exact Nat.zero_lt_succ _
      · rw [List.length_append, List.length_singleton]
        omega
    · rw [over_put hfeed, ← h.chars, ← h.row, ← h.col, h.color]

theorem Shows.write_str {boot : VGABuffer} {color_code : ColorCode} {page : Page} {writer : Writer}
    (h : Shows boot color_code page writer) (s : List UInt8) :
    ∃ next, writer.write_str s = ok next ∧ Shows boot color_code (page.write BUFFER_WIDTH s) next :=
  foldlM_simulates (Shows boot color_code) (fun _ _ byte h => h.write_byte byte) s h

theorem Shows.print {boot : VGABuffer} {color_code : ColorCode} {page : Page} {writer : Writer}
    (h : Shows boot color_code page writer) (args : List (List UInt8)) :
    ∃ next, _print writer args = ok next ∧
      Shows boot color_code (page.write BUFFER_WIDTH args.flatten) next := by
  rw [← Page.foldl_write]
  exact foldlM_simulates (Shows boot color_code) (fun _ _ s h => h.write_str s) args h

/-- However much is printed in whatever pieces, no character is written off the screen.
The screen shows the text in lines of 80 columns, on the 25 rows in turn: in every cell
the last character that a line had there, and if none had, what was there at boot. So
the last 25 lines can all be read, though what is left of older ones may follow them. -/
theorem screen_shows (boot : VGABuffer) (prints : List (List (List UInt8))) :
    ∃ writer page, prints.foldlM _print (WRITER boot) = ok writer ∧
      page = Page.empty.write BUFFER_WIDTH prints.flatten.flatten ∧
      (∀ row col, writer.buffer.chars row col = boot.over (.new .LightBlue .Black) page row col) ∧
      (∀ i codes col byte, page.lines[i]? = some codes → page.lines.length ≤ i + BUFFER_HEIGHT →
        codes[col]? = some byte →
        writer.buffer.chars (i % BUFFER_HEIGHT) col = ⟨byte, .new .LightBlue .Black⟩) ∧
      writer.position.row < BUFFER_HEIGHT ∧ writer.position.col < BUFFER_WIDTH := by
  obtain ⟨writer, hwriter, hshows⟩ := foldlM_simulates (Shows boot (.new .LightBlue .Black))
    (fun _ _ args h => h.print args) prints (.new boot (.new .LightBlue .Black))
  refine ⟨writer, _, hwriter, ?_, hshows.chars, fun i codes col byte hline hrecent hbyte => ?_, ?_, ?_⟩
  · rw [List.flatten_flatten, ← Page.foldl_write, List.foldl_map]
  · rw [hshows.chars, VGABuffer.over, shown_recent hline hrecent hbyte]
    rfl
  · rw [hshows.row]
    exact Nat.mod_lt _ (by decide)
  · rw [hshows.col]
    exact hshows.room

end conc_os.vga
