import MatlabEdit.Indent.Column
import MatlabEdit.Indent.Config
import MatlabEdit.Text.Line

/-!
# Laying out a document

A document is laid out line by line, from the top. What happens to a line is a `Piece`: it is kept
as it stands inside a block comment, it is emptied if it is blank, or it is placed at a column.
The column comes from the nearest line above that was placed, as it was placed.

The rule for a single line lets no bare `end` move to the right of where it was typed. In a
document nobody is typing, so each line is first moved under the line above, and where it stood
in the text does not count.
-/

namespace MatlabEdit

/-- What becomes of a line. -/
inductive Piece where
  /-- Part of a block comment, kept with its white space. -/
  | verbatim (line : Line)
  /-- A blank line, of which the ending is left. -/
  | blank (ending : LineEnding)
  /-- A line at a column. -/
  | placed (column : Column) (content : List Char) (ending : LineEnding)
deriving DecidableEq, Repr

/-- The characters of a piece. -/
def Piece.chars : Piece → List Char
  | verbatim line => line.chars
  | blank ending => ending.chars
  | placed column content ending => spaces column ++ content ++ ending.chars

/-- What is known of the lines above. -/
structure Layout where
  /-- The nearest line above that was placed; empty before the first. -/
  previous : List Char
  /-- How many block comments are open. -/
  depth : Nat
deriving DecidableEq, Repr

namespace Layout

/-- Nothing has been laid out yet. -/
def start : Layout := ⟨[], 0⟩

/-- How many block comments are open after a delimiter. -/
def depthAfter (depth : Nat) : Option BlockDelimiter → Nat
  | some .opening => depth + 1
  | some .closing => depth - 1
  | none => depth

/-- Whether a line belongs to a block comment: it is inside one, or opens one. -/
def inComment (layout : Layout) (line : Line) : Bool :=
  layout.depth > 0 || blockDelimiter? line.text == some .opening

/-- The column for the text `content` under the lines above. -/
def columnFor (layout : Layout) (config : IndentConfig) (content : List Char) : Column :=
  indentColumn config.unit (spaces (leadingWidth layout.previous) ++ content) layout.previous

/-- What becomes of the next line, and what is known below it. -/
def place (layout : Layout) (config : IndentConfig) (line : Line) : Piece × Layout :=
  if layout.inComment line then
    (.verbatim line, { layout with depth := depthAfter layout.depth (blockDelimiter? line.text) })
  else
    let content := trim line.text
    if content.isEmpty then (.blank line.ending, layout)
    else
      let column := layout.columnFor config content
      (.placed column content line.ending, { layout with previous := spaces column ++ content })

/-- What becomes of each of the next lines, and what is known below them. -/
def run (layout : Layout) (config : IndentConfig) : List Line → List Piece × Layout
  | [] => ([], layout)
  | line :: rest =>
    let (piece, below) := layout.place config line
    let (pieces, last) := below.run config rest
    (piece :: pieces, last)

/-- Every line becomes one piece. -/
theorem length_run (layout : Layout) (config : IndentConfig) (lines : List Line) :
    (layout.run config lines).1.length = lines.length := by
  induction lines generalizing layout with
  | nil => rfl
  | cons line rest ih => simp [run, ih]

/-- Laying out two lists of lines one after the other is laying out both at once. -/
theorem run_append (layout : Layout) (config : IndentConfig) (lines more : List Line) :
    layout.run config (lines ++ more) =
      ((layout.run config lines).1 ++ ((layout.run config lines).2.run config more).1,
        ((layout.run config lines).2.run config more).2) := by
  induction lines generalizing layout with
  | nil => rfl
  | cons line rest ih => simp [run, ih]

/-- A stray closing delimiter is no part of a comment, so only an open comment is ever closed. -/
theorem depth_pos_of_closing {layout : Layout} {line : Line} (h : layout.inComment line = true)
    (hc : blockDelimiter? line.text = some .closing) : 0 < layout.depth := by
  unfold inComment at h
  rw [hc] at h
  simpa using h

end Layout

/-- What becomes of each line of a text. -/
def layoutPieces (config : IndentConfig) (text : List Char) : List Piece :=
  (Layout.start.run config (Line.split text)).1

/-- The text, indented anew. Terminators and block comments are kept, blank lines are emptied, and
white space behind a line is dropped. -/
def reindent (config : IndentConfig) (text : String) : String :=
  String.ofList ((layoutPieces config text.toList).flatMap Piece.chars)

end MatlabEdit
