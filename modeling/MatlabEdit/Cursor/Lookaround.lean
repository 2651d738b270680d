import MatlabEdit.Cursor.Skip

/-!
# What stands around a cursor on its line

A delimiter of a block comment has its line for itself. Deciding that takes a look in both
directions, up to the nearest line end. What lies outside the content reads as a line end, so the
look stops at the edges of the content as it does at a break.
-/

namespace MatlabEdit.Cursor

variable {s : Source}

/-- Whether nothing but blanks stands between the start of the line and the cursor. -/
def precededByBlanks (c : Cursor s) : Bool :=
  if h : s.contentStart < c.pos then
    let before := c.prev h
    if Byte.isLineEnd before.current then true
    else if Byte.isBlank before.current then before.precededByBlanks
    else false
  else true
termination_by c.pos
decreasing_by rw [pos_prev]; omega

/-- Whether nothing but blanks stands between the cursor and the end of the line. -/
def followedByBlanks (c : Cursor s) : Bool := Byte.isLineEnd c.skipBlanks.current

/-- A line starts where the content starts. -/
theorem precededByBlanks_cursor : s.cursor.precededByBlanks = true := by
  have h : ¬ s.contentStart < s.cursor.pos := Nat.lt_irrefl _
  rw [precededByBlanks, dif_neg h]

/-- A line starts behind every line end. -/
theorem precededByBlanks_next {c : Cursor s} (h : c.pos < s.size)
    (hc : Byte.isLineEnd c.current = true) : (c.next h).precededByBlanks = true := by
  have hlt : s.contentStart < (c.next h).pos := Nat.lt_succ_of_le c.contentStart_le_pos
  have hprev : (c.next h).prev hlt = c := Cursor.ext (Nat.add_sub_cancel ..)
  rw [precededByBlanks, dif_pos hlt]
  simp only [hprev, hc, if_true]

/-- A blank at the cursor changes nothing for what comes behind it. -/
theorem precededByBlanks_next_of_isBlank {c : Cursor s} (h : c.pos < s.size)
    (hc : Byte.isBlank c.current = true) :
    (c.next h).precededByBlanks = c.precededByBlanks := by
  have hlt : s.contentStart < (c.next h).pos := Nat.lt_succ_of_le c.contentStart_le_pos
  have hprev : (c.next h).prev hlt = c := Cursor.ext (Nat.add_sub_cancel ..)
  rw [precededByBlanks, dif_pos hlt]
  simp only [hprev, hc, Byte.isLineEnd_of_isBlank hc, if_true, if_false, Bool.false_eq_true]

/-- Behind any other byte, a cursor is not at the start of a line. -/
theorem precededByBlanks_next_of_neg {c : Cursor s} (h : c.pos < s.size)
    (he : Byte.isLineEnd c.current = false) (hb : Byte.isBlank c.current = false) :
    (c.next h).precededByBlanks = false := by
  have hlt : s.contentStart < (c.next h).pos := Nat.lt_succ_of_le c.contentStart_le_pos
  have hprev : (c.next h).prev hlt = c := Cursor.ext (Nat.add_sub_cancel ..)
  rw [precededByBlanks, dif_pos hlt]
  simp only [hprev, he, hb, if_false, Bool.false_eq_true]

/-- At a line end nothing follows on the line. -/
theorem followedByBlanks_of_isLineEnd {c : Cursor s} (hc : Byte.isLineEnd c.current = true) :
    c.followedByBlanks = true := by
  have hb : Byte.isBlank c.current = false := by
    cases hb : Byte.isBlank c.current with
    | false => rfl
    | true => rw [Byte.isLineEnd_of_isBlank hb] at hc; exact absurd hc (by decide)
  rw [followedByBlanks, skipBlanks, skipWhile_of_neg hb, hc]

theorem followedByBlanks_of_isBlank {c : Cursor s} (h : c.pos < s.size)
    (hc : Byte.isBlank c.current = true) : c.followedByBlanks = (c.next h).followedByBlanks := by
  rw [followedByBlanks, skipBlanks, skipWhile_of_pos h hc]
  rfl

theorem followedByBlanks_of_neg {c : Cursor s} (he : Byte.isLineEnd c.current = false)
    (hb : Byte.isBlank c.current = false) : c.followedByBlanks = false := by
  rw [followedByBlanks, skipBlanks, skipWhile_of_neg hb, he]

end MatlabEdit.Cursor
