/-!
# Lines

A text is cut into lines at its line feeds. A line remembers how it ended, and a carriage return
directly before a line feed belongs to the ending, not to the line. Putting the lines together
again gives the text (`flatMap_chars_split`), and a text that ends with a line feed has no empty
line behind it.
-/

namespace MatlabEdit

/-- How a line ends. Only the last line of a text can end without a line feed. -/
inductive LineEnding where
  | none
  | lf
  | crlf
deriving DecidableEq, Repr

/-- The characters of an ending. -/
def LineEnding.chars : LineEnding → List Char
  | none => []
  | lf => ['\n']
  | crlf => ['\r', '\n']

/-- A line of a text, without its ending, and the ending. -/
structure Line where
  text : List Char
  ending : LineEnding
deriving DecidableEq, Repr

namespace Line

/-- The characters of a line, with those of its ending. -/
def chars (line : Line) : List Char := line.text ++ line.ending.chars

/-- The line that `text` and a line feed make. -/
def terminated (text : List Char) : Line :=
  if text.getLast? = some '\r' then ⟨text.dropLast, .crlf⟩ else ⟨text, .lf⟩

/-- The lines of a text. -/
def split (text : List Char) : List Line :=
  match _h : text.dropWhile (· != '\n') with
  | [] => if text.isEmpty then [] else [⟨text, .none⟩]
  | _ :: rest => terminated (text.takeWhile (· != '\n')) :: split rest
termination_by text.length
decreasing_by
  have hle := (List.dropWhile_suffix (l := text) (· != '\n')).length_le
  rw [_h, List.length_cons] at hle
  omega

/-- The carriage return that a line gives to its ending is not lost. -/
theorem chars_terminated (text : List Char) : (terminated text).chars = text ++ ['\n'] := by
  unfold terminated chars
  split
  · rename_i h
    obtain ⟨front, rfl⟩ := List.getLast?_eq_some_iff.mp h
    simp [LineEnding.chars]
  · rfl

/-- A text is made of its lines. -/
theorem flatMap_chars_split (text : List Char) : (split text).flatMap chars = text := by
  fun_induction split text with
  | case1 text h hempty =>
    rw [List.isEmpty_iff.mp hempty]
    rfl
  | case2 text h hempty => simp [chars, LineEnding.chars]
  | case3 text c rest h ih =>
    have hc : c = '\n' := by
      have hnot := List.head?_dropWhile_not (· != '\n') text
      rw [h] at hnot
      simpa using hnot
    subst hc
    rw [List.flatMap_cons, ih, chars_terminated, List.append_assoc]
    change text.takeWhile (· != '\n') ++ ('\n' :: rest) = text
    rw [← h]
    exact List.takeWhile_append_dropWhile

end Line

end MatlabEdit
