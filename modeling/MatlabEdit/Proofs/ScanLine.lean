import MatlabEdit.Scanner.Run
import MatlabEdit.Proofs.Delimiter

/-!
# What the scanner makes of a line

From a cursor where no block comment is open, the scanner passes over blanks and
breaks, so it does not matter at which of them it stands (`run_eq_of_blanks`). At
the first byte that is neither, one of four things happens, each with its own
lemma: a magic, a block comment, a line comment, or code. The ends of all of them
are given by how the bytes ahead split, never by a search.
-/

namespace MatlabEdit

namespace Cursor

variable {s : Source}

/-- The bytes that `skipBlankLines` passes. -/
def isSkipped (b : UInt8) : Bool := Byte.isBlank b || Byte.isBreak b

theorem isSkipped_of_isBreak {b : UInt8} (h : Byte.isBreak b = true) : isSkipped b = true := by
  rw [isSkipped, h, Bool.or_true]

theorem isSkipped_of_isBlank {b : UInt8} (h : Byte.isBlank b = true) : isSkipped b = true := by
  rw [isSkipped, h, Bool.true_or]

/-- A byte at which no line ends is passed over only as a blank. -/
theorem isSkipped_of_not_isLineEnd {b : UInt8} (h : Byte.isLineEnd b = false) :
    isSkipped b = Byte.isBlank b := by
  have hbreak : Byte.isBreak b = false := (Bool.or_eq_false_iff.mp h).1
  rw [isSkipped, hbreak, Bool.or_false]

theorem rest_skipBlankLines (c : Cursor s) : c.skipBlankLines.rest = c.rest.dropWhile isSkipped :=
  rest_skipWhile _ c

theorem skipBlankLines_forward {c : Cursor s} {run tail : List UInt8} (hrest : c.rest = run ++ tail)
    (hrun : ∀ b ∈ run, isSkipped b = true) :
    (c.forward run.length).skipBlankLines = c.skipBlankLines := by
  refine eq_of_rest_eq ?_
  rw [rest_skipBlankLines, rest_skipBlankLines, rest_forward, hrest, List.drop_left,
    List.dropWhile_append_of_pos hrun]

theorem skipBlankLines_of_cons {c : Cursor s} {b : UInt8} {tail : List UInt8}
    (hrest : c.rest = b :: tail) (hb : isSkipped b = false) : c.skipBlankLines = c :=
  skipWhile_of_neg (by rw [current_of_rest_eq_cons hrest]; exact hb)

/-- A comment that starts on a line runs to the end of the line. -/
theorem toBreak_eq_forward {c : Cursor s} {run tail : List UInt8} (hrest : c.rest = run ++ tail)
    (hrun : ∀ b ∈ run, Byte.isBreak b = false)
    (htail : ∀ b, tail.head? = some b → Byte.isBreak b = true) :
    c.toBreak = c.forward run.length :=
  skipWhile_eq_forward hrest (fun b hb => by rw [hrun b hb]; rfl)
    fun b hb => by rw [htail b hb]; rfl

/-- Blanks on the way to the end of the line make no difference. -/
theorem toBreak_skipBlanks (c : Cursor s) : c.skipBlanks.toBreak = c.toBreak := by
  have key : ∀ l : List UInt8, (l.dropWhile Byte.isBlank).dropWhile (fun b => !Byte.isBreak b)
      = l.dropWhile fun b => !Byte.isBreak b := by
    intro l
    induction l with
    | nil => rfl
    | cons b l ih =>
      by_cases hb : Byte.isBlank b = true
      · have hbreak : (!Byte.isBreak b) = true := by
          rcases Byte.isBlank_iff.mp hb with rfl | rfl | rfl | rfl <;> decide
        rw [List.dropWhile_cons_of_pos hb, ih]
        exact (List.dropWhile_cons_of_pos (p := fun b => !Byte.isBreak b) hbreak).symm
      · rw [List.dropWhile_cons_of_neg hb]
  refine eq_of_rest_eq ?_
  rw [toBreak, skipBlanks, rest_skipWhile, rest_skipWhile, key, toBreak, rest_skipWhile]

/-- Code ends at the first comment sign or line end behind its first byte. -/
theorem codeStop_eq_forward {c : Cursor s} {b : UInt8} {run tail : List UInt8}
    (hrest : c.rest = b :: run ++ tail)
    (hrun : ∀ b ∈ run, b ≠ Byte.percent ∧ Byte.isLineEnd b = false)
    (htail : ∀ b, tail.head? = some b → b = Byte.percent ∨ Byte.isLineEnd b = true) :
    c.codeStop = c.forward (run.length + 1) := by
  have hnext : (c.forward 1).rest = run ++ tail := by rw [rest_forward, hrest]; rfl
  rw [codeStop, advance_eq_forward, skipWhile_eq_forward hnext, forward_forward, Nat.add_comm]
  · intro b hb
    obtain ⟨h1, h2⟩ := hrun b hb
    simp [h1, h2]
  · intro b hb
    rcases htail b hb with h | h
    · simp [h]
    · simp [h]

end Cursor

namespace Scanner

open Cursor

variable {s : Source}

/-- The next span only depends on where the blank lines end. -/
theorem run_congr {c d : Cursor s} (h : c.skipBlankLines = d.skipBlankLines) (phase : Phase) :
    run ⟨c, phase⟩ = run ⟨d, phase⟩ := by
  have hnext : next? ⟨c, phase⟩ = next? ⟨d, phase⟩ := by
    unfold next?
    dsimp only
    rw [h]
  -- both scanners answer alike, and from there on they are one
  rcases hd : next? ⟨d, phase⟩ with ⟨_ | span, t⟩
  · rw [run_of_none (hnext.trans hd), run_of_none hd]
  · rw [run_of_some (hnext.trans hd), run_of_some hd]

theorem run_eq_of_blanks {c : Cursor s} {run tail : List UInt8} (hrest : c.rest = run ++ tail)
    (hrun : ∀ b ∈ run, isSkipped b = true) (phase : Phase) :
    Scanner.run ⟨c, phase⟩ = Scanner.run ⟨c.forward run.length, phase⟩ :=
  run_congr (skipBlankLines_forward hrest hrun).symm phase

theorem run_of_isAtEnd {c : Cursor s} (h : c.isAtEnd = true) (phase : Phase) :
    (run ⟨c, phase⟩).1 = [] := by
  have hskip : c.skipBlankLines = c := skipWhile_of_isAtEnd h
  have hnext : next? ⟨c, phase⟩ = (none, ⟨c, phase⟩) := by
    unfold next?
    dsimp only
    rw [hskip, if_pos h]
  rw [run_of_none hnext]

/-! ## What starts at a byte -/

/-- Where something starts that is not passed over, the scanner asks for a comment first. -/
theorem next?_of_cons {c : Cursor s} {b : UInt8} {tail : List UInt8} (hrest : c.rest = b :: tail)
    (hb : isSkipped b = false) (phase : Phase) :
    next? ⟨c, phase⟩ =
      match comment? ⟨c, phase⟩ with
      | (some span, t) => (some span, t)
      | (none, t) =>
        (some (t.cursor.spanTo .code t.cursor.codeStop), ⟨t.cursor.codeStop, t.phase⟩) := by
  have he := isAtEnd_eq_false_iff.mpr (pos_lt_of_rest_eq_cons hrest)
  unfold next?
  dsimp only
  rw [skipBlankLines_of_cons hrest hb]
  exact if_neg (by rw [he]; decide)

theorem isSkipped_percent : isSkipped Byte.percent = false := by decide

variable {c stop : Cursor s} {tail : List UInt8}

theorem run_of_comment (hrest : c.rest = Byte.percent :: tail) {phase : Phase} {span : Span}
    {t : Scanner s} (h : comment? ⟨c, phase⟩ = (some span, t)) :
    (run ⟨c, phase⟩).1 = span :: t.run.1 := by
  rw [run_of_some (by rw [next?_of_cons hrest isSkipped_percent, h])]

theorem run_of_magic (hrest : c.rest = Byte.percent :: tail) {phase : Phase}
    (h : c.magic? phase = some (c.spanTo .magic stop)) :
    (run ⟨c, phase⟩).1 = c.spanTo .magic stop :: (run ⟨stop, phase⟩).1 := by
  have hcomment : comment? ⟨c, phase⟩ = (some (c.spanTo .magic stop), ⟨stop, phase⟩) := by
    rw [comment?_of_eq (current_of_rest_eq_cons hrest)]
    simp only [h]
    rw [show (c.spanTo .magic stop).stop = stop.pos from rfl, moveTo_pos]
  exact run_of_comment hrest hcomment

theorem run_of_blockComment (hrest : c.rest = Byte.percent :: tail) {phase : Phase}
    (hmagic : c.magic? phase = none)
    (h : c.blockComment? = some (c.spanTo .blockComment stop)) :
    (run ⟨c, phase⟩).1 = c.spanTo .blockComment stop :: (run ⟨stop, .body⟩).1 := by
  have hcomment : comment? ⟨c, phase⟩ = (some (c.spanTo .blockComment stop), ⟨stop, .body⟩) := by
    rw [comment?_of_eq (current_of_rest_eq_cons hrest)]
    simp only [hmagic, h]
    rw [show (c.spanTo .blockComment stop).stop = stop.pos from rfl, moveTo_pos]
  exact run_of_comment hrest hcomment

theorem run_of_lineComment (hrest : c.rest = Byte.percent :: tail) {phase : Phase}
    (hmagic : c.magic? phase = none) (hblock : c.blockComment? = none) :
    (run ⟨c, phase⟩).1 = c.spanTo .lineComment c.toBreak :: (run ⟨c.toBreak, .body⟩).1 := by
  have hcomment :
      comment? ⟨c, phase⟩ = (some (c.spanTo .lineComment c.toBreak), ⟨c.toBreak, .body⟩) := by
    rw [comment?_of_eq (current_of_rest_eq_cons hrest)]
    simp only [hmagic, hblock]
    rw [show c.lineComment.stop = c.toBreak.pos from rfl, moveTo_pos]
    rfl
  exact run_of_comment hrest hcomment

theorem run_of_code {b : UInt8} (hrest : c.rest = b :: tail) (hb : b ≠ Byte.percent)
    (hblank : Byte.isBlank b = false) (hend : Byte.isLineEnd b = false) (phase : Phase) :
    (run ⟨c, phase⟩).1 = c.spanTo .code c.codeStop :: (run ⟨c.codeStop, .body⟩).1 := by
  have hcur := current_of_rest_eq_cons hrest
  -- asking for a comment in vain ends the preamble
  have hphase : phaseWithoutComment ⟨c, phase⟩ = .body := by
    unfold phaseWithoutComment
    rw [if_neg (by simp [hcur, hblank, hend]), Phase.confirm_eq]
  have hcomment : comment? ⟨c, phase⟩ = (none, ⟨c, .body⟩) := by
    rw [comment?_of_ne (isAtEnd_eq_false_iff.mpr (pos_lt_of_rest_eq_cons hrest))
      (by rw [hcur]; exact hb), hphase]
  have hskip : isSkipped b = false := by rw [isSkipped_of_not_isLineEnd hend, hblank]
  rw [run_of_some (by rw [next?_of_cons hrest hskip, hcomment])]

end Scanner

end MatlabEdit
