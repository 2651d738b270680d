import MatlabEdit.Source.Basic
import MatlabEdit.Span

/-!
# Cursors

A cursor is a position in a source. It lies in the content or at its end, and it can lie nowhere
else: every move clamps, and the bounds are part of the type. That is what makes `current` a plain
read of the buffer, since the buffer goes on past the end of the document.

Reading at the cursor and peeking at offset zero are two different reads, one of the buffer and
one of the content; `current_eq_byteAt` says that they agree, and it is the zero behind the
document that makes them agree at the end.

A cursor is a value. A scan that only tries something moves a cursor of its own, and whoever
called it still has the old one.
-/

namespace MatlabEdit

/-- A position in the content of `s`, or at its end. -/
@[ext] structure Cursor (s : Source) where
  /-- Byte offset into the document. -/
  pos : Nat
  contentStart_le_pos : s.contentStart ≤ pos
  pos_le_size : pos ≤ s.size
deriving DecidableEq

/-- The cursor at the first byte of the content. -/
def Source.cursor (s : Source) : Cursor s := ⟨s.contentStart, Nat.le_refl _, s.contentStart_le⟩

/-- The cursor at the end of the document. -/
def Source.cursorAtEnd (s : Source) : Cursor s := ⟨s.size, s.contentStart_le, Nat.le_refl _⟩

namespace Cursor

variable {s : Source}

/-! ## Reading -/

/-- The byte under the cursor. -/
def current (c : Cursor s) : UInt8 :=
  s.buffer.get c.pos (Nat.lt_of_le_of_lt c.pos_le_size s.size_lt)

/-- The byte `offset` places away, or the boundary byte where that is outside the content. -/
def peek (c : Cursor s) (offset : Int) : UInt8 :=
  match (c.pos : Int) + offset with
  | .ofNat i => s.byteAt i
  | .negSucc _ => Byte.boundary

/-- Whether the cursor is past the last byte. -/
def isAtEnd (c : Cursor s) : Bool := c.pos == s.size

/-- The zero behind the document is the boundary byte, so a read at the cursor is a read of the
content. -/
theorem current_eq_byteAt (c : Cursor s) : c.current = s.byteAt c.pos := by
  unfold current
  rcases Nat.lt_or_ge c.pos s.size with h | h
  · exact (Source.byteAt_of_lt c.contentStart_le_pos h).symm
  · rw [Source.byteAt_of_size_le h]
    exact s.buffer_eq_zero _ _ h

theorem peek_natCast (c : Cursor s) (k : Nat) : c.peek k = s.byteAt (c.pos + k) := rfl

@[simp] theorem peek_zero (c : Cursor s) : c.peek 0 = c.current := by
  rw [current_eq_byteAt]
  exact c.peek_natCast 0

theorem isAtEnd_iff {c : Cursor s} : c.isAtEnd = true ↔ c.pos = s.size := by
  simp [isAtEnd]

@[simp] theorem isAtEnd_cursorAtEnd : s.cursorAtEnd.isAtEnd = true := isAtEnd_iff.mpr rfl

theorem isAtEnd_eq_false_iff {c : Cursor s} : c.isAtEnd = false ↔ c.pos < s.size := by
  have := c.pos_le_size
  simp [isAtEnd]
  omega

theorem current_of_isAtEnd {c : Cursor s} (h : c.isAtEnd = true) : c.current = Byte.boundary := by
  rw [current_eq_byteAt]
  exact Source.byteAt_of_size_le (Nat.le_of_eq (isAtEnd_iff.mp h).symm)

/-- Only the end of the document and a NUL byte read as the boundary byte. -/
theorem pos_lt_size_of_current_ne {c : Cursor s} (h : c.current ≠ Byte.boundary) :
    c.pos < s.size := by
  apply isAtEnd_eq_false_iff.mp
  cases he : c.isAtEnd with
  | false => rfl
  | true => exact absurd (current_of_isAtEnd he) h

/-! ## Moving -/

/-- The cursor at offset `i`, or at the end of the content that is nearest to it. -/
def moveTo (_c : Cursor s) (i : Nat) : Cursor s where
  pos := max s.contentStart (min i s.size)
  contentStart_le_pos := Nat.le_max_left _ _
  pos_le_size := Nat.max_le.mpr ⟨s.contentStart_le, Nat.min_le_right _ _⟩

/-- The cursor `n` bytes further, backwards for a negative `n`, clamped like `moveTo`. -/
def moveBy (c : Cursor s) (n : Int) : Cursor s := c.moveTo ((c.pos : Int) + n).toNat

/-- The cursor one byte further, where there is a byte to pass. -/
def next (c : Cursor s) (h : c.pos < s.size) : Cursor s where
  pos := c.pos + 1
  contentStart_le_pos := Nat.le_succ_of_le c.contentStart_le_pos
  pos_le_size := h

/-- The cursor one byte back, where the content has a byte before it. -/
def prev (c : Cursor s) (h : s.contentStart < c.pos) : Cursor s where
  pos := c.pos - 1
  contentStart_le_pos := Nat.le_sub_one_of_lt h
  pos_le_size := Nat.le_trans (Nat.sub_le _ _) c.pos_le_size

/-- The cursor one byte further. At the end it stays. -/
def advance (c : Cursor s) : Cursor s :=
  if h : c.pos < s.size then c.next h else c

@[simp] theorem pos_cursor : s.cursor.pos = s.contentStart := rfl

@[simp] theorem pos_moveTo (c : Cursor s) (i : Nat) :
    (c.moveTo i).pos = max s.contentStart (min i s.size) := rfl

@[simp] theorem pos_next (c : Cursor s) (h : c.pos < s.size) : (c.next h).pos = c.pos + 1 := rfl

@[simp] theorem pos_prev (c : Cursor s) (h : s.contentStart < c.pos) : (c.prev h).pos = c.pos - 1 :=
  rfl

/-- A move within the content goes where it is sent. -/
theorem pos_moveTo_of_le {c : Cursor s} {i : Nat} (hs : s.contentStart ≤ i) (hi : i ≤ s.size) :
    (c.moveTo i).pos = i := by
  rw [pos_moveTo, Nat.min_eq_left hi, Nat.max_eq_right hs]

theorem moveTo_pos (c d : Cursor s) : c.moveTo d.pos = d :=
  Cursor.ext (pos_moveTo_of_le d.contentStart_le_pos d.pos_le_size)

/-- A move forward stops at the end of the document. -/
theorem pos_moveBy_natCast (c : Cursor s) (n : Nat) :
    (c.moveBy n).pos = min (c.pos + n) s.size := by
  have h : ((c.pos : Int) + n).toNat = c.pos + n := by omega
  have hs := c.contentStart_le_pos
  have hc := s.contentStart_le
  rw [moveBy, pos_moveTo, h]
  omega

theorem pos_moveBy_two (c : Cursor s) : (c.moveBy 2).pos = min (c.pos + 2) s.size :=
  c.pos_moveBy_natCast 2

theorem pos_advance (c : Cursor s) : c.advance.pos = min (c.pos + 1) s.size := by
  have := c.pos_le_size
  unfold advance
  split
  · rw [pos_next]; omega
  · omega

theorem advance_of_lt {c : Cursor s} (h : c.pos < s.size) : c.advance = c.next h := dif_pos h

theorem advance_of_isAtEnd {c : Cursor s} (h : c.isAtEnd = true) : c.advance = c :=
  dif_neg (Nat.not_lt.mpr (Nat.le_of_eq (isAtEnd_iff.mp h).symm))

theorem pos_le_pos_advance (c : Cursor s) : c.pos ≤ c.advance.pos := by
  have := c.pos_le_size
  rw [pos_advance]
  omega

/-! ## Text and spans -/

/-- The text from offset `start` up to the cursor. -/
def textFrom (c : Cursor s) (start : Nat) : String := s.slice start c.pos

/-- The span from the cursor `c` up to the cursor `stop`. -/
def spanTo (c : Cursor s) (kind : SpanKind) (stop : Cursor s) : Span := ⟨⟨c.pos, stop.pos⟩, kind⟩

end Cursor

end MatlabEdit
