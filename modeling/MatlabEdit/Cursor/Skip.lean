import MatlabEdit.Cursor.Basic

/-!
# Passing over runs of bytes

One skip serves every consumer of the scanner: it passes the longest run of bytes of a class. What
it passes is of the class (`skipWhile_passes`), it stops at the end or at a byte that is not
(`skipWhile_stops`), and no other cursor has both properties (`skipWhile_eq`).
-/

namespace MatlabEdit.Cursor

variable {s : Source}

/-- The cursor behind the longest run of bytes with property `p` that starts at `c`. -/
def skipWhile (p : UInt8 → Bool) (c : Cursor s) : Cursor s :=
  if h : c.pos < s.size then
    if p c.current then skipWhile p (c.next h) else c
  else c
termination_by s.size - c.pos
decreasing_by rw [pos_next]; omega

theorem skipWhile_of_pos {p : UInt8 → Bool} {c : Cursor s} (h : c.pos < s.size)
    (hp : p c.current = true) : c.skipWhile p = (c.next h).skipWhile p := by
  rw [skipWhile, dif_pos h, if_pos hp]

theorem skipWhile_of_neg {p : UInt8 → Bool} {c : Cursor s} (hp : p c.current = false) :
    c.skipWhile p = c := by
  rw [skipWhile]
  split
  · rw [if_neg (by simp [hp])]
  · rfl

theorem skipWhile_of_isAtEnd {p : UInt8 → Bool} {c : Cursor s} (h : c.isAtEnd = true) :
    c.skipWhile p = c := by
  rw [skipWhile, dif_neg (Nat.not_lt.mpr (Nat.le_of_eq (isAtEnd_iff.mp h).symm))]

/-- A skip never goes back. -/
theorem pos_le_pos_skipWhile (p : UInt8 → Bool) (c : Cursor s) : c.pos ≤ (c.skipWhile p).pos := by
  fun_induction skipWhile p c with
  | case1 c h hp ih => exact Nat.le_trans (Nat.le_succ _) ih
  | case2 => exact Nat.le_refl _
  | case3 => exact Nat.le_refl _

/-- Every byte passed has the property. -/
theorem skipWhile_passes (p : UInt8 → Bool) (c : Cursor s) {i : Nat} (hi : c.pos ≤ i)
    (hi' : i < (c.skipWhile p).pos) : p (s.byteAt i) = true := by
  fun_induction skipWhile p c with
  | case1 c h hp ih =>
    rcases Nat.eq_or_lt_of_le hi with rfl | hlt
    · rwa [← current_eq_byteAt]
    · exact ih hlt hi'
  | case2 => omega
  | case3 => omega

/-- A skip stops at the end, or at a byte without the property. -/
theorem skipWhile_stops (p : UInt8 → Bool) (c : Cursor s) :
    (c.skipWhile p).isAtEnd = true ∨ p (c.skipWhile p).current = false := by
  fun_induction skipWhile p c with
  | case1 c h hp ih => exact ih
  | case2 c h hp => exact .inr (by simpa using hp)
  | case3 c h =>
    refine .inl (isAtEnd_iff.mpr ?_)
    have := c.pos_le_size
    omega

/-- A cursor that is reached over bytes with the property, and at which the run is over, is where
a skip ends. -/
theorem skipWhile_eq {p : UInt8 → Bool} {c d : Cursor s} (hle : c.pos ≤ d.pos)
    (hpass : ∀ i, c.pos ≤ i → i < d.pos → p (s.byteAt i) = true)
    (hstop : d.isAtEnd = true ∨ p d.current = false) : c.skipWhile p = d := by
  fun_induction skipWhile p c with
  | case1 c h hp ih =>
    refine ih ?_ (fun i hi => hpass i (Nat.le_of_succ_le hi))
    rcases Nat.eq_or_lt_of_le hle with heq | hlt
    · -- the run goes on at `c`, so it is not over at `d`
      have hcd : c = d := Cursor.ext heq
      subst hcd
      rcases hstop with he | hn
      · have := isAtEnd_iff.mp he
        omega
      · rw [hp] at hn
        exact absurd hn (by decide)
    · exact hlt
  | case2 c h hp =>
    rcases Nat.eq_or_lt_of_le hle with heq | hlt
    · exact Cursor.ext heq
    · have := hpass c.pos (Nat.le_refl _) hlt
      rw [← current_eq_byteAt] at this
      exact absurd this hp
  | case3 c h =>
    have := d.pos_le_size
    exact Cursor.ext (by omega)

/-- The cursor at the next line feed or carriage return, or at the end. -/
def toBreak (c : Cursor s) : Cursor s := c.skipWhile fun b => !Byte.isBreak b

/-- The cursor behind the blanks that start at `c`. -/
def skipBlanks (c : Cursor s) : Cursor s := c.skipWhile Byte.isBlank

/-- The cursor behind the blanks and line breaks that start at `c`. -/
def skipBlankLines (c : Cursor s) : Cursor s :=
  c.skipWhile fun b => Byte.isBlank b || Byte.isBreak b

end MatlabEdit.Cursor
