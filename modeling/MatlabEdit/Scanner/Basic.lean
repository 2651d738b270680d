import MatlabEdit.Comment.Rule

/-!
# The scanner

A scanner is a cursor and the phase of the document there. It answers two questions.

* `comment?` is for a host with a grammar of its own: is there a comment right here? If there is
  none, the cursor stays, but a byte that is code ends the preamble.
* `next?` is for a document without a host: it passes over blank lines, takes a comment where
  there is one, and otherwise takes everything up to the next comment sign or line end as code. It
  knows nothing of string literals, so a comment sign between quotes starts a comment.
-/

namespace MatlabEdit

/-- A place in a document, and what is known there about its phase. -/
@[ext] structure Scanner (s : Source) where
  cursor : Cursor s
  phase : Phase
deriving DecidableEq

/-- The scanner at the start of a document. -/
def Source.scanner (s : Source) : Scanner s := ⟨s.cursor, .preamble⟩

/-- Where code that starts at the cursor ends: at the next comment sign or line end after it. At
least one byte is taken, so a NUL byte is passed as code. -/
def Cursor.codeStop {s : Source} (c : Cursor s) : Cursor s :=
  c.advance.skipWhile fun b => !(b == Byte.percent || Byte.isLineEnd b)

namespace Scanner

variable {s : Source}

/-- The phase once the byte at the cursor has been found to start no comment: a byte that is neither
blank nor a line end is code. -/
def phaseWithoutComment (t : Scanner s) : Phase :=
  if Byte.isBlank t.cursor.current || Byte.isLineEnd t.cursor.current then t.phase
  else t.phase.confirm

/-- The comment or magic at the cursor, with the scanner behind it. Without one the cursor stays. -/
def comment? (t : Scanner s) : Option Span × Scanner s :=
  if t.cursor.isAtEnd then (none, t)
  else if t.cursor.current == Byte.percent then
    match CommentRule.firstMatch CommentRule.all t.phase t.cursor with
    | (some span, phase) => (some span, ⟨t.cursor.moveTo span.stop, phase⟩)
    | (none, phase) => (none, ⟨t.cursor, phase⟩)
  else (none, ⟨t.cursor, t.phaseWithoutComment⟩)

/-- The next span, with the scanner behind it, or none if only blank lines are left. -/
def next? (t : Scanner s) : Option Span × Scanner s :=
  let t : Scanner s := ⟨t.cursor.skipBlankLines, t.phase⟩
  if t.cursor.isAtEnd then (none, t)
  else
    match t.comment? with
    | (some span, t') => (some span, t')
    | (none, t') =>
      (some (t'.cursor.spanTo .code t'.cursor.codeStop), ⟨t'.cursor.codeStop, t'.phase⟩)

/-! ## Comments -/

/-- At the end there is no comment, and nothing changes. -/
theorem comment?_of_isAtEnd {t : Scanner s} (h : t.cursor.isAtEnd = true) :
    t.comment? = (none, t) :=
  if_pos h

/-- A byte that is no comment sign starts no comment. -/
theorem comment?_of_ne {t : Scanner s} (h : t.cursor.isAtEnd = false)
    (hc : t.cursor.current ≠ Byte.percent) :
    t.comment? = (none, ⟨t.cursor, t.phaseWithoutComment⟩) := by
  rw [comment?, if_neg (by simp [h]), if_neg (by simpa using hc)]

/-- At a comment sign there always is a span: a magic, or else a block comment, or else the rest
of the line. -/
theorem comment?_of_eq {t : Scanner s} (hc : t.cursor.current = Byte.percent) :
    t.comment? =
      match t.cursor.magic? t.phase with
      | some span => (some span, ⟨t.cursor.moveTo span.stop, t.phase⟩)
      | none =>
        match t.cursor.blockComment? with
        | some span => (some span, ⟨t.cursor.moveTo span.stop, .body⟩)
        | none =>
          (some t.cursor.lineComment, ⟨t.cursor.moveTo t.cursor.lineComment.stop, .body⟩) := by
  have hne : t.cursor.current ≠ Byte.boundary := by rw [hc]; decide
  have he := Cursor.isAtEnd_eq_false_iff.mpr (Cursor.pos_lt_size_of_current_ne hne)
  rw [comment?, if_neg (by simp [he]), if_pos (by simp [hc]), CommentRule.firstMatch_all]
  cases t.cursor.magic? t.phase with
  | some span => rfl
  | none =>
    cases t.cursor.blockComment? with
    | some span => rfl
    | none => rfl

/-- Without a comment the cursor stays. -/
theorem cursor_of_comment?_none {t t' : Scanner s} (h : t.comment? = (none, t')) :
    t'.cursor = t.cursor := by
  unfold comment? at h
  split at h
  · rw [← (Prod.mk.inj h).2]
  · split at h
    · split at h
      · cases h
      · rw [← (Prod.mk.inj h).2]
    · rw [← (Prod.mk.inj h).2]

end Scanner

end MatlabEdit
