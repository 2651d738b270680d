import MatlabEdit.Span
import MatlabEdit.Proofs.Strip

/-!
# The outline of a document

A second account of the spans of a document, without a cursor and without any
looking around. The document is cut into lines, each line is trimmed, and the
trimmed text says what the line is: nothing, a delimiter, a magic, a comment, or
code that a comment may follow. All that is carried from one line to the next is
whether a block comment is open, and how deep, or else whether anything but
magics came before.
-/

namespace MatlabEdit.Outline

/-- Where the reading of a document stands between two lines. -/
inductive Mode where
  /-- No block comment is open. The flag says that only magics came before. -/
  | outside (onlyMagics : Bool)
  /-- A block comment is open that started at `opener`, with `depth` delimiters to be closed. -/
  | inside (opener depth : Nat)
deriving DecidableEq, Repr

/-- The text of an opening delimiter. -/
def opening : List UInt8 := [Byte.percent, Byte.openBrace]

/-- The text of a closing delimiter. -/
def closing : List UInt8 := [Byte.percent, Byte.closeBrace]

/-- Two comment signs, blanks, a letter, and anything. -/
def isMagicText (text : List UInt8) : Bool :=
  text.take 2 == [Byte.percent, Byte.percent] &&
    ((text.drop 2).dropWhile Byte.isBlank).head?.any Byte.isLetter

/-- The spans of a line outside every block comment, and the mode behind it. -/
def readOutside (onlyMagics : Bool) (start : Nat) (line : List UInt8) : List Span × Mode :=
  let text := Byte.trim line
  let first := start + Byte.indent line
  let stop := start + line.length
  if text = [] then ([], .outside onlyMagics)
  else if text = opening then ([], .inside first 1)
  else if text.head? = some Byte.percent then
    if onlyMagics && isMagicText text then ([⟨⟨first, stop⟩, .magic⟩], .outside onlyMagics)
    else ([⟨⟨first, stop⟩, .lineComment⟩], .outside false)
  else
    let sign := start + (line.takeWhile (· != Byte.percent)).length
    let comment : List Span := if sign < stop then [⟨⟨sign, stop⟩, .lineComment⟩] else []
    (⟨⟨first, sign⟩, .code⟩ :: comment, .outside false)

/-- The same inside a block comment, which only the last closing delimiter makes a span. -/
def readInside (opener depth start : Nat) (line : List UInt8) : List Span × Mode :=
  let text := Byte.trim line
  if text = opening then ([], .inside opener (depth + 1))
  else if text = closing then
    if depth = 1 then
      ([⟨⟨opener, start + Byte.indent line + 2⟩, .blockComment⟩], .outside false)
    else ([], .inside opener (depth - 1))
  else ([], .inside opener depth)

/-- The spans of a line that starts at `start`, and the mode behind it. -/
def readLine (mode : Mode) (start : Nat) (line : List UInt8) : List Span × Mode :=
  match mode with
  | .outside onlyMagics => readOutside onlyMagics start line
  | .inside opener depth => readInside opener depth start line

/-- The spans that are still to come when the document ends: a block comment that is still open
runs to the end. -/
def unfinished (size : Nat) : Mode → List Span
  | .outside _ => []
  | .inside opener _ => [⟨⟨opener, size⟩, .blockComment⟩]

/-- The spans of the lines that start at `start`, in a document of `size` bytes. Between two lines
stands a break of one byte. -/
def read (size : Nat) (mode : Mode) (start : Nat) : List (List UInt8) → List Span
  | [] => unfinished size mode
  | line :: rest =>
    (readLine mode start line).1
      ++ read size (readLine mode start line).2 (start + line.length + 1) rest

/-- Where the content of a document starts, and the content: all but one byte order mark. -/
def content : List UInt8 → Nat × List UInt8
  | 0xEF :: 0xBB :: 0xBF :: rest => (3, rest)
  | bytes => (0, bytes)

/-- The lines of a content: it is cut at each line feed and at each carriage return. -/
def lines (bytes : List UInt8) : List (List UInt8) := bytes.splitOnP Byte.isBreak

/-- The spans of a document, line by line. -/
def spans (bytes : List UInt8) : List Span :=
  read bytes.length (.outside true) (content bytes).1 (lines (content bytes).2)

/-! ## Laws of the parts -/

theorem ne_percent_of_isBlank {b : UInt8} (h : Byte.isBlank b = true) :
    (b != Byte.percent) = true := by
  rcases Byte.isBlank_iff.mp h with rfl | rfl | rfl | rfl <;> rfl

theorem lines_of_forall {line : List UInt8} (h : ∀ b ∈ line, Byte.isBreak b = false) :
    lines line = [line] :=
  List.splitOnP_eq_singleton h

theorem lines_append_cons {line : List UInt8} (h : ∀ b ∈ line, Byte.isBreak b = false) {b : UInt8}
    (hb : Byte.isBreak b = true) (tail : List UInt8) :
    lines (line ++ b :: tail) = line :: lines tail :=
  List.splitOnP_append_cons_of_forall_mem h b hb tail

/-- A blank line changes nothing, in any mode. -/
theorem readLine_of_blank (mode : Mode) (start : Nat) {line : List UInt8}
    (h : Byte.trim line = []) : readLine mode start line = ([], mode) := by
  cases mode with
  | outside onlyMagics => simp [readLine, readOutside, h]
  | inside opener depth => simp [readLine, readInside, h, opening, closing]

end MatlabEdit.Outline
