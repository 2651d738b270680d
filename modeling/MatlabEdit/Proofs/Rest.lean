import MatlabEdit.Cursor.Skip

/-!
# What lies ahead of a cursor

The scanner reads forward through a cursor one byte at a time. Here that is put
as a list: `Cursor.rest` is everything from the cursor to the end of the
document, and every forward read and every forward move is an operation on it.

The one thing the list does not show is what stands *behind* the cursor on its
line, and only `precededByBlanks` ever asks for that.
-/

namespace MatlabEdit

/-- The bytes of a document, as a list. -/
def Source.byteList (s : Source) : List UInt8 := s.bytes.data.toList

theorem Source.length_byteList (s : Source) : s.byteList.length = s.size := by
  have := s.size_lt
  show s.bytes.size = s.size
  simp [Source.bytes]
  omega

namespace Cursor

variable {s : Source}

/-- The bytes from the cursor to the end of the document. -/
def rest (c : Cursor s) : List UInt8 := s.byteList.drop c.pos

theorem length_rest (c : Cursor s) : c.rest.length = s.size - c.pos := by
  simp [rest, Source.length_byteList]

theorem rest_of_isAtEnd {c : Cursor s} (h : c.isAtEnd = true) : c.rest = [] := by
  refine List.length_eq_zero_iff.mp ?_
  rw [length_rest, isAtEnd_iff.mp h, Nat.sub_self]

theorem isAtEnd_of_rest_eq_nil {c : Cursor s} (h : c.rest = []) : c.isAtEnd = true := by
  have hlen := c.length_rest
  have := c.pos_le_size
  rw [h, List.length_nil] at hlen
  exact isAtEnd_iff.mpr (by omega)

theorem rest_of_lt {c : Cursor s} (h : c.pos < s.size) : c.rest = c.current :: (c.next h).rest := by
  have hlen : c.pos < s.byteList.length := by rw [Source.length_byteList]; exact h
  have hbuf : c.pos < s.buffer.data.size := Nat.lt_trans h s.size_lt
  have hget : s.byteList[c.pos] = c.current := by
    -- the padding behind the document is never read
    show (s.buffer.extract 0 s.size).data.toList[c.pos] = s.buffer.data[c.pos]
    simp
  unfold rest
  rw [List.drop_eq_getElem_cons hlen, hget, pos_next]

/-- A byte ahead can only be there if the cursor is inside the document. -/
theorem pos_lt_of_rest_eq_cons {c : Cursor s} {b : UInt8} {tail : List UInt8}
    (h : c.rest = b :: tail) : c.pos < s.size := by
  have hlen := c.length_rest
  rw [h, List.length_cons] at hlen
  omega

theorem current_of_rest_eq_cons {c : Cursor s} {b : UInt8} {tail : List UInt8}
    (h : c.rest = b :: tail) : c.current = b := by
  rw [rest_of_lt (pos_lt_of_rest_eq_cons h)] at h
  exact (List.cons.inj h).1

theorem rest_next_of_rest_eq_cons {c : Cursor s} {b : UInt8} {tail : List UInt8}
    (h : c.rest = b :: tail) : (c.next (pos_lt_of_rest_eq_cons h)).rest = tail := by
  rw [rest_of_lt (pos_lt_of_rest_eq_cons h)] at h
  exact (List.cons.inj h).2

/-- The cursor reads the boundary byte where nothing is ahead. -/
theorem current_eq_headD (c : Cursor s) : c.current = c.rest.headD Byte.boundary := by
  cases h : c.rest with
  | nil => exact current_of_isAtEnd (isAtEnd_of_rest_eq_nil h)
  | cons b tail => exact current_of_rest_eq_cons h

theorem peek_one (c : Cursor s) : c.peek 1 = (c.rest.drop 1).headD Byte.boundary := by
  -- a peek past the end reads the boundary byte, as `headD` does
  have hpeek : c.peek 1 = s.byteAt (c.pos + 1) := c.peek_natCast 1
  rw [hpeek]
  cases h : c.rest with
  | nil =>
    have he := isAtEnd_iff.mp (isAtEnd_of_rest_eq_nil h)
    exact Source.byteAt_of_size_le (by omega)
  | cons b tail =>
    have hcur := current_eq_headD (c.next (pos_lt_of_rest_eq_cons h))
    rw [rest_next_of_rest_eq_cons h, current_eq_byteAt] at hcur
    exact hcur

/-! ## Moving forward -/

/-- A cursor is determined by what lies ahead of it. -/
theorem eq_of_rest_eq {c d : Cursor s} (h : c.rest = d.rest) : c = d := by
  have hc := c.length_rest
  have hd := d.length_rest
  have := c.pos_le_size
  have := d.pos_le_size
  rw [h] at hc
  exact Cursor.ext (by omega)

/-- The cursor `n` bytes further, or at the end. -/
def forward (c : Cursor s) (n : Nat) : Cursor s := c.moveBy n

theorem pos_forward (c : Cursor s) (n : Nat) : (c.forward n).pos = min (c.pos + n) s.size :=
  c.pos_moveBy_natCast n

theorem moveBy_two (c : Cursor s) : c.moveBy 2 = c.forward 2 := rfl

@[simp] theorem rest_forward (c : Cursor s) (n : Nat) : (c.forward n).rest = c.rest.drop n := by
  unfold rest
  rw [pos_forward, List.drop_drop]
  rcases Nat.le_total (c.pos + n) s.size with h | h
  · rw [Nat.min_eq_left h]
  · rw [Nat.min_eq_right h, List.drop_eq_nil_of_le (Nat.le_of_eq s.length_byteList),
      List.drop_eq_nil_of_le (by rw [s.length_byteList]; exact h)]

theorem pos_forward_of_le {c : Cursor s} {n : Nat} (h : n ≤ c.rest.length) :
    (c.forward n).pos = c.pos + n := by
  have := c.pos_le_size
  rw [length_rest] at h
  rw [pos_forward]
  omega

@[simp] theorem forward_zero (c : Cursor s) : c.forward 0 = c :=
  eq_of_rest_eq (by simp)

@[simp] theorem forward_forward (c : Cursor s) (m n : Nat) :
    (c.forward m).forward n = c.forward (m + n) :=
  eq_of_rest_eq (by simp)

theorem advance_eq_forward (c : Cursor s) : c.advance = c.forward 1 :=
  Cursor.ext (by rw [pos_advance, pos_forward])

theorem next_eq_forward {c : Cursor s} (h : c.pos < s.size) : c.next h = c.forward 1 := by
  rw [← advance_of_lt h, advance_eq_forward]

theorem isAtEnd_forward_of_le {c : Cursor s} {n : Nat} (h : c.rest.length ≤ n) :
    (c.forward n).isAtEnd = true :=
  isAtEnd_of_rest_eq_nil (by rw [rest_forward]; exact List.drop_eq_nil_of_le h)

/-! ## Skipping -/

@[simp] theorem rest_skipWhile (p : UInt8 → Bool) (c : Cursor s) :
    (c.skipWhile p).rest = c.rest.dropWhile p := by
  fun_induction skipWhile p c with
  | case1 c h hp ih => rw [ih, rest_of_lt h, List.dropWhile_cons_of_pos hp]
  | case2 c h hp => rw [rest_of_lt h, List.dropWhile_cons_of_neg hp]
  | case3 c h =>
    have := c.pos_le_size
    rw [rest_of_isAtEnd (isAtEnd_iff.mpr (by omega)), List.dropWhile_nil]

/-- A skip moves forward by the run that it passes. -/
theorem skipWhile_eq_forward {p : UInt8 → Bool} {c : Cursor s} {run tail : List UInt8}
    (hrest : c.rest = run ++ tail) (hrun : ∀ b ∈ run, p b = true)
    (htail : ∀ b, tail.head? = some b → p b = false) :
    c.skipWhile p = c.forward run.length := by
  refine eq_of_rest_eq ?_
  -- the run ends where the skip does
  have hstop : tail.dropWhile p = tail := by
    cases tail with
    | nil => rfl
    | cons b tail => exact List.dropWhile_cons_of_neg (by simp [htail b rfl])
  rw [rest_skipWhile, rest_forward, hrest, List.dropWhile_append_of_pos hrun, hstop,
    List.drop_left]

end Cursor

end MatlabEdit
