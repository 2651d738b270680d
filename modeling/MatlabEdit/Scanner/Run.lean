import MatlabEdit.Scanner.Progress

/-!
# All spans of a document

`Scanner.run` asks for spans until there are none, and says in which state the scanner is then.
The spans of a document are those of a run from its start. Of a document that is too long for a
machine, it finds those of what it keeps (`tokenizeKept`).
-/

namespace MatlabEdit

namespace Scanner

variable {s : Source}

/-- The spans from here to the end of the document, and the scanner behind them. -/
def run (t : Scanner s) : List Span × Scanner s :=
  match _h : t.next? with
  | (some span, t') =>
    let (spans, last) := t'.run
    (span :: spans, last)
  | (none, t') => ([], t')
termination_by s.size - t.cursor.pos
decreasing_by
  have := pos_lt_of_next?_some _h
  omega

theorem run_of_some {t t' : Scanner s} {span : Span} (h : t.next? = (some span, t')) :
    t.run = (span :: t'.run.1, t'.run.2) := by
  rw [run]
  split
  · rename_i h'
    rw [h] at h'
    cases h'
    rfl
  · rename_i h'
    rw [h] at h'
    cases h'

theorem run_of_none {t t' : Scanner s} (h : t.next? = (none, t')) : t.run = ([], t') := by
  rw [run]
  split
  · rename_i h'
    rw [h] at h'
    cases h'
  · rename_i h'
    rw [h] at h'
    cases h'
    rfl

/-- A run ends at the end of the document. -/
theorem isAtEnd_run (t : Scanner s) : t.run.2.cursor.isAtEnd = true := by
  fun_induction run t with
  | case1 t span t' h spans last hrun ih => simpa [hrun] using ih
  | case2 t t' h => exact (next?_none h).1

end Scanner

/-- The spans of a document, from a preamble at its start. -/
def Source.spans (s : Source) : List Span := s.scanner.run.1

/-- The spans of a text. -/
def tokenize (text : String) : List Span := (Source.ofString text).spans

/-- The spans that a machine finds in a text: those of what it keeps of it. -/
def tokenizeKept (text : String) : List Span := (Source.ofBytes (Source.kept text.toUTF8)).spans

theorem tokenizeKept_of_lt {text : String} (h : text.utf8ByteSize < UInt32.size) :
    tokenizeKept text = tokenize text := by
  have hkept : Source.kept text.toUTF8 = text.toUTF8 := Source.kept_of_lt h
  rw [tokenizeKept, hkept]
  rfl

end MatlabEdit
