import MatlabEdit.Scanner.Basic

/-!
# The scanner moves on

Every span that a scanner hands out starts at the scanner's cursor or behind it, holds at least
one byte, and ends where the scanner goes on. That bounds the number of spans of a document by the
number of its bytes.
-/

namespace MatlabEdit

namespace Cursor

variable {s : Source}

/-- A comment sign is inside the content, and no line ends at it. -/
theorem pos_lt_pos_toBreak {c : Cursor s} (hc : c.current = Byte.percent) :
    c.pos < c.toBreak.pos := by
  have hlt : c.pos < s.size := pos_lt_size_of_current_ne (by rw [hc]; decide)
  have hp : (!Byte.isBreak c.current) = true := by rw [hc]; decide
  rw [toBreak, skipWhile_of_pos hlt hp]
  exact pos_le_pos_skipWhile _ (c.next hlt)

/-- Two bytes further is further, where there is a byte to pass. -/
theorem pos_lt_pos_moveBy_two {c : Cursor s} (h : c.pos < s.size) : c.pos < (c.moveBy 2).pos := by
  rw [pos_moveBy_two]
  omega

theorem pos_lt_pos_codeStop {c : Cursor s} (h : c.pos < s.size) : c.pos < c.codeStop.pos := by
  unfold codeStop
  rw [advance_of_lt h]
  exact pos_le_pos_skipWhile _ (c.next h)

/-- What a magic covers: from the cursor to a cursor behind it. -/
theorem stop_of_magic? {phase : Phase} {c : Cursor s} {span : Span} (hc : c.pos < s.size)
    (h : c.magic? phase = some span) :
    ∃ stop : Cursor s, span.stop = stop.pos ∧ c.pos < stop.pos := by
  unfold magic? at h
  split at h
  · cases h
    refine ⟨_, rfl, ?_⟩
    exact Nat.lt_of_lt_of_le (pos_lt_pos_moveBy_two hc)
      (Nat.le_trans (pos_le_pos_skipWhile _ _) (pos_le_pos_skipWhile _ _))
  · cases h

/-- What a block comment covers: from the cursor to a cursor behind it. -/
theorem stop_of_blockComment? {c : Cursor s} {span : Span} (h : c.blockComment? = some span) :
    ∃ stop : Cursor s, span.stop = stop.pos ∧ c.pos < stop.pos := by
  unfold blockComment? at h
  split at h
  · rename_i ho
    cases h
    refine ⟨_, rfl, ?_⟩
    exact Nat.lt_of_lt_of_le (pos_lt_pos_moveBy_two (pos_lt_size_of_isDelimiter ho))
      (OpenBlock.pos_le_pos_finish (OpenBlock.opened c))
  · cases h

end Cursor

namespace Scanner

variable {s : Source}

/-- A comment starts at the cursor, holds at least one byte, and ends where the scanner goes on. -/
theorem comment?_some {t t' : Scanner s} {span : Span} (h : t.comment? = (some span, t')) :
    span.start = t.cursor.pos ∧ span.start < span.stop ∧ span.stop = t'.cursor.pos := by
  have land : ∀ {sp : Span} {phase : Phase}, sp.start = t.cursor.pos →
      (∃ stop : Cursor s, sp.stop = stop.pos ∧ t.cursor.pos < stop.pos) →
      (some sp, (⟨t.cursor.moveTo sp.stop, phase⟩ : Scanner s)) = (some span, t') →
      span.start = t.cursor.pos ∧ span.start < span.stop ∧ span.stop = t'.cursor.pos := by
    intro sp phase hstart ⟨stop, hstop, hlt⟩ heq
    obtain ⟨hsp, rfl⟩ := Prod.mk.inj heq
    cases hsp
    refine ⟨hstart, by omega, ?_⟩
    change span.stop = (t.cursor.moveTo span.stop).pos
    rw [hstop, Cursor.moveTo_pos]
  by_cases he : t.cursor.isAtEnd = true
  · rw [comment?_of_isAtEnd he] at h
    cases h
  by_cases hc : t.cursor.current = Byte.percent
  · have hlt := Cursor.isAtEnd_eq_false_iff.mp (by simpa using he)
    rw [comment?_of_eq hc] at h
    split at h
    · rename_i sp hm
      exact land (Cursor.start_of_magic? hm).1 (Cursor.stop_of_magic? hlt hm) h
    · split at h
      · rename_i sp hb
        exact land (Cursor.start_of_blockComment? hb).1 (Cursor.stop_of_blockComment? hb) h
      · exact land rfl ⟨t.cursor.toBreak, rfl, Cursor.pos_lt_pos_toBreak hc⟩ h
  · rw [comment?_of_ne (by simpa using he) hc] at h
    cases h

/-- A span starts at the scanner's cursor or behind it, holds at least one byte, and ends where the
scanner goes on. -/
theorem next?_some {t t' : Scanner s} {span : Span} (h : t.next? = (some span, t')) :
    t.cursor.pos ≤ span.start ∧ span.start < span.stop ∧ span.stop = t'.cursor.pos := by
  have hskip : t.cursor.pos ≤ t.cursor.skipBlankLines.pos := Cursor.pos_le_pos_skipWhile _ _
  unfold next? at h
  dsimp only at h
  split at h
  · cases h
  · rename_i he
    split at h
    · rename_i sp t₁ hsp
      cases h
      obtain ⟨h1, h2, h3⟩ := comment?_some hsp
      exact ⟨by rw [h1]; exact hskip, h2, h3⟩
    · rename_i t₁ hnone
      have hcur : t₁.cursor = t.cursor.skipBlankLines := cursor_of_comment?_none hnone
      have hlt : t₁.cursor.pos < s.size := by
        rw [hcur]
        exact Cursor.isAtEnd_eq_false_iff.mp (by simpa using he)
      cases h
      refine ⟨?_, Cursor.pos_lt_pos_codeStop hlt, rfl⟩
      change t.cursor.pos ≤ t₁.cursor.pos
      rw [hcur]
      exact hskip

/-- A scanner that hands out a span has moved on, and was not at the end. -/
theorem pos_lt_of_next?_some {t t' : Scanner s} {span : Span} (h : t.next? = (some span, t')) :
    t.cursor.pos < t'.cursor.pos ∧ t.cursor.pos < s.size := by
  obtain ⟨h1, h2, h3⟩ := next?_some h
  have := t'.cursor.pos_le_size
  omega

/-- A scanner that hands out nothing has come to the end, in the phase in which it was. -/
theorem next?_none {t t' : Scanner s} (h : t.next? = (none, t')) :
    t'.cursor.isAtEnd = true ∧ t'.phase = t.phase := by
  unfold next? at h
  dsimp only at h
  split at h
  · rename_i he
    cases h
    exact ⟨he, rfl⟩
  · split at h <;> cases h

end Scanner

end MatlabEdit
