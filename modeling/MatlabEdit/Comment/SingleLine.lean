import MatlabEdit.Cursor.Lookaround
import MatlabEdit.Phase

/-!
# Cell magics and line comments

Both run from a comment sign to the end of the line. A magic has two signs, blanks if it likes,
and then a letter, and it stands in the preamble; every other line that starts a comment is a line
comment.
-/

namespace MatlabEdit.Cursor

variable {s : Source}

/-- Whether two comment signs, blanks and a letter stand at the cursor. -/
def isMagicStart (c : Cursor s) : Bool :=
  c.peek 0 == Byte.percent && c.peek 1 == Byte.percent &&
    Byte.isLetter (c.moveBy 2).skipBlanks.current

/-- The magic at the cursor, if the phase allows one and one stands there. -/
def magic? (phase : Phase) (c : Cursor s) : Option Span :=
  if phase.allowsMagic && c.isMagicStart then
    some (c.spanTo .magic (c.moveBy 2).skipBlanks.toBreak)
  else none

/-- The rest of the line as a comment. -/
def lineComment (c : Cursor s) : Span := c.spanTo .lineComment c.toBreak

/-- The body of a document holds no magics. -/
@[simp] theorem magic?_body (c : Cursor s) : c.magic? .body = none := rfl

theorem start_of_magic? {phase : Phase} {c : Cursor s} {span : Span}
    (h : c.magic? phase = some span) :
    span.start = c.pos ∧ span.kind = .magic := by
  unfold magic? at h
  split at h
  · cases h; exact ⟨rfl, rfl⟩
  · cases h

end MatlabEdit.Cursor
