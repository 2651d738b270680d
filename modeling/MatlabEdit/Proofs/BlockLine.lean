import MatlabEdit.Proofs.Delimiter

/-!
# Reading a block comment line by line

A block comment is read byte by byte, and at each byte both delimiters are tried.
Here that is cut into whole lines: from the start of a line, reading goes on at
the start of the next one, one level deeper behind an opening delimiter, one level
up behind a closing one, and at the same level behind every other line. Only the
delimiter that closes the outermost level stops it, and then within the line.

The two oddities of the byte loop vanish at this scale. An opening delimiter is
passed by one byte only, but its brace starts no delimiter; and the byte that is
skipped behind a closing delimiter is a blank or the line's end.
-/

namespace MatlabEdit.OpenBlock

open Cursor

variable {s : Source}

/-! ## One byte -/

theorem finish_of_isAtEnd {k : Nat} {c : Cursor s} (h : c.isAtEnd = true) :
    (OpenBlock.mk k c).finish = c :=
  finish_of_step_inr (by rw [step, if_pos h])

/-- Where no delimiter stands, a byte is passed. At the end that is no move at all. -/
theorem finish_of_neither {k : Nat} {c : Cursor s} (hclose : c.closesBlock = false)
    (hopen : c.opensBlock = false) :
    (OpenBlock.mk k c).finish = (OpenBlock.mk k (c.forward 1)).finish := by
  rw [← advance_eq_forward]
  cases he : c.isAtEnd with
  | true => rw [advance_of_isAtEnd he]
  | false => exact finish_of_step_inl (by simp [step, he, hclose, hopen])

theorem closesBlock_of_opensBlock {c : Cursor s} (h : c.opensBlock = true) :
    c.closesBlock = false := by
  -- the second byte cannot be both braces
  have h1 := (isDelimiter_iff.mp h).2.1
  cases hc : c.closesBlock with
  | false => rfl
  | true =>
    have h2 := (isDelimiter_iff.mp hc).2.1
    rw [h1] at h2
    exact absurd h2 (by decide)

theorem finish_of_opensBlock {k : Nat} {c : Cursor s} (h : c.opensBlock = true) :
    (OpenBlock.mk k c).finish = (OpenBlock.mk (k + 1) (c.forward 1)).finish := by
  have he := isAtEnd_eq_false_iff.mpr (pos_lt_size_of_isDelimiter h)
  rw [← advance_eq_forward]
  exact finish_of_step_inl (by simp [step, he, closesBlock_of_opensBlock h, h])

theorem finish_of_closesBlock_one {c : Cursor s} (h : c.closesBlock = true) :
    (OpenBlock.mk 1 c).finish = c.forward 2 := by
  have he := isAtEnd_eq_false_iff.mpr (pos_lt_size_of_isDelimiter h)
  exact finish_of_step_inr (by simp [step, he, h, moveBy_two])

theorem finish_of_closesBlock {k : Nat} {c : Cursor s} (h : c.closesBlock = true) (hk : k ≠ 1) :
    (OpenBlock.mk k c).finish = (OpenBlock.mk (k - 1) (c.forward 3)).finish := by
  have he := isAtEnd_eq_false_iff.mpr (pos_lt_size_of_isDelimiter h)
  -- two bytes for the delimiter, and one that the loop adds
  have hmove : (c.moveBy 2).advance = c.forward 3 := by
    rw [moveBy_two, advance_eq_forward, forward_forward]
  exact finish_of_step_inl (by simp [step, he, h, hk, hmove])

/-- What a step that goes on has found at its byte, and what it makes of it. -/
theorem step_eq_inl {b b' : OpenBlock s} (h : b.step = .inl b') :
    (b.cursor.closesBlock = true ∧ b.depth ≠ 1 ∧ b' = ⟨b.depth - 1, b.cursor.forward 3⟩) ∨
      (b.cursor.opensBlock = true ∧ b' = ⟨b.depth + 1, b.cursor.forward 1⟩) ∨
      (b.cursor.opensBlock = false ∧ b.cursor.closesBlock = false ∧
        b' = ⟨b.depth, b.cursor.forward 1⟩) := by
  unfold step at h
  split at h
  · cases h
  · split at h
    · rename_i hclose
      split at h
      · cases h
      · rename_i hdepth
        cases h
        exact .inl ⟨hclose, hdepth, by rw [moveBy_two, advance_eq_forward, forward_forward]⟩
    · rename_i hclose
      split at h
      · rename_i hopen
        cases h
        exact .inr (.inl ⟨hopen, by rw [advance_eq_forward]⟩)
      · rename_i hopen
        cases h
        exact .inr (.inr ⟨Bool.eq_false_iff.mpr hopen, Bool.eq_false_iff.mpr hclose,
          by rw [advance_eq_forward]⟩)

/-! ## A run of bytes without a delimiter -/

theorem finish_forward {k : Nat} {c : Cursor s} {m : Nat} :
    ∀ {n : Nat}, (∀ i, m ≤ i → i < m + n →
        (c.forward i).closesBlock = false ∧ (c.forward i).opensBlock = false) →
      (OpenBlock.mk k (c.forward m)).finish = (OpenBlock.mk k (c.forward (m + n))).finish := by
  intro n
  induction n with
  | zero => intro _; rfl
  | succ n ih =>
    intro h
    obtain ⟨hclose, hopen⟩ := h (m + n) (Nat.le_add_right m n) (Nat.lt_succ_self _)
    -- the run is passed but for its last byte, and then that one
    rw [ih fun i hm hi => h i hm (Nat.lt_succ_of_lt hi), finish_of_neither hclose hopen,
      forward_forward, Nat.add_assoc]

/-- On a line, only the place behind the leading blanks can hold a delimiter. -/
theorem neither_of_ne {c : Cursor s} {line tail : List UInt8} (hc : c.AtLine line tail) {i : Nat}
    (hi : i < line.length + 1)
    (h : i = Byte.indent line →
      Byte.trim line ≠ [Byte.percent, Byte.openBrace] ∧
        Byte.trim line ≠ [Byte.percent, Byte.closeBrace]) :
    (c.forward i).closesBlock = false ∧ (c.forward i).opensBlock = false := by
  have hle : i ≤ line.length := Nat.le_of_lt_succ hi
  constructor
  · refine Bool.eq_false_iff.mpr fun hclose => ?_
    obtain ⟨hind, htrim⟩ := (closesBlock_forward_iff hc hle).mp hclose
    exact (h hind).2 htrim
  · refine Bool.eq_false_iff.mpr fun hopen => ?_
    obtain ⟨hind, htrim⟩ := (opensBlock_forward_iff hc hle).mp hopen
    exact (h hind).1 htrim

/-- The place of a delimiter, and that it fits on its line. -/
theorem indent_add_two_le {line : List UInt8} {brace : UInt8}
    (h : Byte.trim line = [Byte.percent, brace]) : Byte.indent line + 2 ≤ line.length := by
  obtain ⟨post, hline, _⟩ := exists_margins Byte.isBlank line
  rw [Byte.trim] at h
  rw [h] at hline
  have hlen := congrArg List.length hline
  simp only [List.length_append, List.length_cons, List.length_nil] at hlen
  unfold Byte.indent
  omega

/-! ## One line -/

variable {c : Cursor s} {line tail : List UInt8}

theorem finish_line_of_other (hc : c.AtLine line tail)
    (hopen : Byte.trim line ≠ [Byte.percent, Byte.openBrace])
    (hclose : Byte.trim line ≠ [Byte.percent, Byte.closeBrace]) (k : Nat) :
    (OpenBlock.mk k c).finish = (OpenBlock.mk k (c.forward (line.length + 1))).finish := by
  have hrun := finish_forward (k := k) (c := c) (m := 0) (n := line.length + 1) fun i _ hi =>
    neither_of_ne hc (by omega) fun _ => ⟨hopen, hclose⟩
  rwa [forward_zero, Nat.zero_add] at hrun

/-- Reading comes to the place of the delimiter, whatever the delimiter is. -/
theorem finish_indent (hc : c.AtLine line tail) {brace : UInt8}
    (h : Byte.trim line = [Byte.percent, brace]) (k : Nat) :
    (OpenBlock.mk k c).finish = (OpenBlock.mk k (c.forward (Byte.indent line))).finish := by
  have hle := indent_add_two_le h
  have hrun := finish_forward (k := k) (c := c) (m := 0) (n := Byte.indent line) fun i _ hi =>
    neither_of_ne hc (by omega) fun heq => absurd heq (by omega)
  rwa [forward_zero, Nat.zero_add] at hrun

/-- And from behind its place on to the next line. -/
theorem finish_behind (hc : c.AtLine line tail) {m : Nat} (hm : Byte.indent line < m)
    (hle : m ≤ line.length + 1) (k : Nat) :
    (OpenBlock.mk k (c.forward m)).finish
      = (OpenBlock.mk k (c.forward (line.length + 1))).finish := by
  have hrun := finish_forward (k := k) (c := c) (m := m) (n := line.length + 1 - m) fun i hi hlt =>
    neither_of_ne hc (by omega) fun heq => absurd heq (by omega)
  rwa [Nat.add_sub_cancel' hle] at hrun

theorem finish_line_of_opening (hc : c.AtLine line tail)
    (h : Byte.trim line = [Byte.percent, Byte.openBrace]) (k : Nat) :
    (OpenBlock.mk k c).finish = (OpenBlock.mk (k + 1) (c.forward (line.length + 1))).finish := by
  have hle := indent_add_two_le h
  have hopen := (opensBlock_forward_iff hc (n := Byte.indent line) (by omega)).mpr ⟨rfl, h⟩
  rw [finish_indent hc h, finish_of_opensBlock hopen, forward_forward,
    finish_behind hc (by omega) (by omega)]

theorem finish_line_of_closing (hc : c.AtLine line tail)
    (h : Byte.trim line = [Byte.percent, Byte.closeBrace]) {k : Nat} (hk : k ≠ 1) :
    (OpenBlock.mk k c).finish = (OpenBlock.mk (k - 1) (c.forward (line.length + 1))).finish := by
  have hle := indent_add_two_le h
  have hclose := (closesBlock_forward_iff hc (n := Byte.indent line) (by omega)).mpr ⟨rfl, h⟩
  rw [finish_indent hc h, finish_of_closesBlock hclose hk, forward_forward,
    finish_behind hc (by omega) (by omega)]

theorem finish_line_of_closing_one (hc : c.AtLine line tail)
    (h : Byte.trim line = [Byte.percent, Byte.closeBrace]) :
    (OpenBlock.mk 1 c).finish = c.forward (Byte.indent line + 2) := by
  have hle := indent_add_two_le h
  have hclose := (closesBlock_forward_iff hc (n := Byte.indent line) (by omega)).mpr ⟨rfl, h⟩
  rw [finish_indent hc h, finish_of_closesBlock_one hclose, forward_forward]

/-- A block that opens on a line is read from the start of the next one. -/
theorem finish_opened (hc : c.AtLine line tail)
    (h : Byte.trim line = [Byte.percent, Byte.openBrace]) :
    (opened (c.forward (Byte.indent line))).finish
      = (OpenBlock.mk 1 (c.forward (line.length + 1))).finish := by
  have hle := indent_add_two_le h
  rw [opened, moveBy_two, forward_forward, finish_behind hc (by omega) (by omega)]

end MatlabEdit.OpenBlock
