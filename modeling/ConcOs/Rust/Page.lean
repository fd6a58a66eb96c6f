import Mathlib.Tactic

namespace terminal

/-- A text on lines of a fixed width: those that are finished, and the last one. -/
structure Page where
  finished : List (List UInt8)
  current : List UInt8
deriving DecidableEq

def Page.empty : Page := ⟨[], []⟩

/-- A line feed finishes the line, and so does the code that fills it. -/
def Page.put (width : Nat) (page : Page) (byte : UInt8) : Page :=
  if byte = 10 then ⟨page.finished ++ [page.current], []⟩
  else if page.current.length + 1 = width then ⟨page.finished ++ [page.current ++ [byte]], []⟩
  else ⟨page.finished, page.current ++ [byte]⟩

def Page.write (width : Nat) (page : Page) (bytes : List UInt8) : Page := bytes.foldl (Page.put width) page

theorem Page.foldl_write (width : Nat) (page : Page) (pieces : List (List UInt8)) :
    pieces.foldl (Page.write width) page = page.write width pieces.flatten := by
  rw [Page.write, List.foldl_flatten]
  rfl

def Page.lines (page : Page) : List (List UInt8) := page.finished ++ [page.current]

/-- The code that a screen shows in a cell if the lines are written to its rows in
turn, over and over, and no row is cleared: that of the last line which is on the row
and reaches the column. -/
def shown (height : Nat) (lines : List (List UInt8)) (row col : Nat) : Option UInt8 :=
  lines.zipIdx.foldl (fun cell entry => if entry.2 % height = row then entry.1[col]?.or cell else cell) none

theorem shown_snoc (height : Nat) (lines : List (List UInt8)) (codes : List UInt8) (row col : Nat) :
    shown height (lines ++ [codes]) row col =
      if lines.length % height = row then codes[col]?.or (shown height lines row col)
      else shown height lines row col := by
  rw [shown, List.zipIdx_append, List.foldl_append]
  simp only [List.zipIdx_singleton, List.foldl_cons, List.foldl_nil, Nat.zero_add]
  rfl

/-- An empty line hides nothing. -/
theorem shown_snoc_nil (height : Nat) (lines : List (List UInt8)) :
    shown height (lines ++ [[]]) = shown height lines := by
  funext row col
  rw [shown_snoc]
  split <;> simp

/-- Writing at the end of the last line changes one cell. -/
theorem shown_snoc_append (height : Nat) (lines : List (List UInt8)) (codes : List UInt8) (byte : UInt8)
    (row col : Nat) :
    shown height (lines ++ [codes ++ [byte]]) row col =
      if row = lines.length % height ∧ col = codes.length then some byte
      else shown height (lines ++ [codes]) row col := by
  rw [shown_snoc, shown_snoc]
  by_cases hrow : lines.length % height = row
  · rw [if_pos hrow, if_pos hrow]
    by_cases hcol : col = codes.length
    · rw [if_pos ⟨hrow.symm, hcol⟩, hcol]
      simp
    · rw [if_neg (fun h => hcol h.2)]
      congr 1
      rcases Nat.lt_or_gt_of_ne hcol with hlt | hgt
      · rw [List.getElem?_append_left hlt]
      · rw [List.getElem?_eq_none (by rw [List.length_append, List.length_singleton]; omega),
          List.getElem?_eq_none (by omega)]
  · rw [if_neg hrow, if_neg hrow, if_neg (fun h => hrow h.1.symm)]

/-- The last `height` lines are all there to be read. -/
theorem shown_recent {height : Nat} {lines : List (List UInt8)} {i : Nat} {codes : List UInt8} {col : Nat}
    {byte : UInt8} (hline : lines[i]? = some codes) (hrecent : lines.length ≤ i + height)
    (hbyte : codes[col]? = some byte) : shown height lines (i % height) col = some byte := by
  induction lines using List.reverseRecOn with
  | nil => cases hline
  | append_singleton lines last ih =>
    have hlt : i < (lines ++ [last]).length := (List.getElem?_eq_some_iff.mp hline).1
    simp only [List.length_append, List.length_singleton] at hlt hrecent
    rw [shown_snoc]
    rcases Nat.lt_or_ge i lines.length with hbefore | hlast
    · rw [List.getElem?_append_left hbefore] at hline
      -- a later line on the same row would be at least `height` lines below
      have hother : ¬ lines.length % height = i % height := by
        intro hsame
        have hdvd : height ∣ lines.length - i := (Nat.modEq_iff_dvd' (by omega)).mp hsame.symm
        have hle := Nat.le_of_dvd (by omega) hdvd
        omega
      rw [if_neg hother]
      exact ih hline (by omega)
    · obtain rfl : i = lines.length := by omega
      rw [List.getElem?_append_right le_rfl, Nat.sub_self, List.getElem?_cons_zero, Option.some.injEq] at hline
      rw [if_pos rfl, hline, hbyte, Option.some_or]

end terminal
