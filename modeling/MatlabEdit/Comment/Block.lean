import MatlabEdit.Cursor.Lookaround
import MatlabEdit.Phase

/-!
# Block comments

A block comment runs from an opening delimiter to the closing delimiter that matches it. A
delimiter is a comment sign and a brace that have their line for themselves, and blocks nest. A
block that is never closed runs to the end of the document.

Reading a block is a sequence of steps on an `OpenBlock`: how many delimiters are still to be
closed, and where reading stands. Each step that goes on moves at least one byte
(`pos_lt_of_step`), so reading ends; and since the brace of a delimiter starts no delimiter,
passing one byte of an opening delimiter is enough.
-/

namespace MatlabEdit

namespace Cursor

variable {s : Source}

/-- Whether a delimiter with this brace stands at the cursor, alone on its line. -/
def isDelimiter (brace : UInt8) (c : Cursor s) : Bool :=
  c.peek 0 == Byte.percent && c.peek 1 == brace && c.precededByBlanks &&
    (c.moveBy 2).followedByBlanks

/-- Whether a block comment opens at the cursor. -/
def opensBlock (c : Cursor s) : Bool := c.isDelimiter Byte.openBrace

/-- Whether a block comment closes at the cursor. -/
def closesBlock (c : Cursor s) : Bool := c.isDelimiter Byte.closeBrace

theorem isDelimiter_iff {brace : UInt8} {c : Cursor s} :
    c.isDelimiter brace = true ↔
      c.peek 0 = Byte.percent ∧ c.peek 1 = brace ∧ c.precededByBlanks = true ∧
        (c.moveBy 2).followedByBlanks = true := by
  simp [isDelimiter, and_assoc]

/-- A delimiter starts with a comment sign, which no read outside the content gives. -/
theorem pos_lt_size_of_isDelimiter {brace : UInt8} {c : Cursor s} (h : c.isDelimiter brace = true) :
    c.pos < s.size := by
  have hp := (isDelimiter_iff.mp h).1
  rw [peek_zero] at hp
  exact pos_lt_size_of_current_ne (by rw [hp]; decide)

end Cursor

/-- A block comment of which a part has been read. -/
@[ext] structure OpenBlock (s : Source) where
  /-- How many delimiters are still to be closed. -/
  depth : Nat
  /-- Where reading goes on. -/
  cursor : Cursor s

namespace OpenBlock

variable {s : Source}

/-- The block that opens at the cursor, with its own delimiter read. -/
def opened (c : Cursor s) : OpenBlock s := ⟨1, c.moveBy 2⟩

/-- One step of reading: the block goes on, or it ends at a cursor. -/
def step (b : OpenBlock s) : OpenBlock s ⊕ Cursor s :=
  if b.cursor.isAtEnd then .inr b.cursor
  else if b.cursor.closesBlock then
    if b.depth = 1 then .inr (b.cursor.moveBy 2)
    else .inl ⟨b.depth - 1, (b.cursor.moveBy 2).advance⟩
  else if b.cursor.opensBlock then .inl ⟨b.depth + 1, b.cursor.advance⟩
  else .inl ⟨b.depth, b.cursor.advance⟩

/-- A step that goes on has passed a byte. -/
theorem pos_lt_of_step {b b' : OpenBlock s} (h : b.step = .inl b') :
    b.cursor.pos < s.size ∧ b.cursor.pos < b'.cursor.pos := by
  have hadv : b.cursor.pos < s.size → b.cursor.pos < b.cursor.advance.pos := fun hlt => by
    rw [Cursor.advance_of_lt hlt]
    exact Nat.lt_succ_self _
  unfold step at h
  split at h
  · cases h
  · rename_i he
    have hlt : b.cursor.pos < s.size := Cursor.isAtEnd_eq_false_iff.mp (by simpa using he)
    refine ⟨hlt, ?_⟩
    split at h
    · split at h
      · cases h
      · cases h
        have h2 := b.cursor.pos_moveBy_two
        have hle := (b.cursor.moveBy 2).pos_le_pos_advance
        exact Nat.lt_of_lt_of_le (by omega) hle
    · split at h <;> cases h <;> exact hadv hlt

/-- Where the block ends: just behind the delimiter that closes it, or at the end of the document.
-/
def finish (b : OpenBlock s) : Cursor s :=
  match _h : b.step with
  | .inl b' => b'.finish
  | .inr c => c
termination_by s.size - b.cursor.pos
decreasing_by
  have := pos_lt_of_step _h
  omega

theorem finish_of_step_inl {b b' : OpenBlock s} (h : b.step = .inl b') : b.finish = b'.finish := by
  rw [finish]
  split
  · rename_i h'
    rw [h] at h'
    cases h'
    rfl
  · rename_i h'
    rw [h] at h'
    cases h'

theorem finish_of_step_inr {b : OpenBlock s} {c : Cursor s} (h : b.step = .inr c) :
    b.finish = c := by
  rw [finish]
  split
  · rename_i h'
    rw [h] at h'
    cases h'
  · rename_i h'
    rw [h] at h'
    cases h'
    rfl

/-- A block never ends before the place that has been read up to. -/
theorem pos_le_pos_finish (b : OpenBlock s) : b.cursor.pos ≤ b.finish.pos := by
  fun_induction finish b with
  | case1 b b' h ih => exact Nat.le_trans (Nat.le_of_lt (pos_lt_of_step h).2) ih
  | case2 b c h =>
    unfold step at h
    split at h
    · cases h; exact Nat.le_refl _
    · split at h
      · split at h
        · cases h
          have h2 := b.cursor.pos_moveBy_two
          have := b.cursor.pos_le_size
          omega
        · cases h
      · split at h <;> cases h

end OpenBlock

namespace Cursor

variable {s : Source}

/-- The block comment that opens at the cursor. -/
def blockComment? (c : Cursor s) : Option Span :=
  if c.opensBlock then some (c.spanTo .blockComment (OpenBlock.opened c).finish) else none

theorem start_of_blockComment? {c : Cursor s} {span : Span} (h : c.blockComment? = some span) :
    span.start = c.pos ∧ span.kind = .blockComment := by
  unfold blockComment? at h
  split at h
  · cases h; exact ⟨rfl, rfl⟩
  · cases h

end Cursor

end MatlabEdit
