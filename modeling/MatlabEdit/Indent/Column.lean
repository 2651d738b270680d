import MatlabEdit.Indent.LinePattern

/-!
# The column of a line

The column of a line follows from the line itself and the line above it; nothing further up is
looked at.

1. A bare `case` directly under a `switch` stands one level inside it.
2. A bare `end` stands under the opener above it, or one level outside the line above, but never
   to the right of where it was typed.
3. Any other line stands where the line above stands, one level further in if that line opens a
   block, and one level further out if it is a bare keyword that pulls it out.

Columns are 32-bit words. Stepping in stops at the largest of them, and stepping out needs a whole
level to step over, so no step wraps around.
-/

namespace MatlabEdit

/-- How many white-space characters stand in front of a line. -/
abbrev Column := UInt32

namespace Column

/-- The column for a count, which stops at the largest column. -/
def clamp (n : Nat) : Column := UInt32.ofNat (min n (UInt32.size - 1))

/-- One level in. -/
def stepIn (unit column : Column) : Column := clamp (column.toNat + unit.toNat)

@[simp] theorem toNat_clamp (n : Nat) : (clamp n).toNat = min n (UInt32.size - 1) := by
  have h : min n (UInt32.size - 1) < UInt32.size :=
    Nat.lt_of_le_of_lt (Nat.min_le_right _ _) (by decide)
  exact UInt32.toNat_ofNat_of_lt' h

@[simp] theorem toNat_stepIn (unit column : Column) :
    (stepIn unit column).toNat = min (column.toNat + unit.toNat) (UInt32.size - 1) :=
  toNat_clamp _

/-- A column is the clamp of its own count. -/
theorem clamp_toNat (column : Column) : clamp column.toNat = column := by
  have h := column.toNat_lt_size
  apply UInt32.toNat.inj
  rw [toNat_clamp]
  omega

end Column

/-- The column at which a line stands. -/
def leadingWidth (line : List Char) : Column := Column.clamp (line.takeWhile isWhite).length

/-- The white space in front of a line at a column. -/
def spaces (column : Column) : List Char := List.replicate column.toNat ' '

/-- The column for a bare `end` that was typed at column `typed`. -/
def endColumn (unit : Column) (typed : Column) (previous : List Char) : Column :=
  let above := leadingWidth previous
  if opensBlock previous then min above typed
  else if unit ≤ above then min (above - unit) typed
  else 0

/-- The column for the line `current` below the line `previous`. -/
def indentColumn (unit : Column) (current previous : List Char) : Column :=
  let above := leadingWidth previous
  if isBareCase current && opensSwitch previous then Column.stepIn unit above
  else if isBareEnd current then endColumn unit (leadingWidth current) previous
  else
    let inner := if opensBlock previous then Column.stepIn unit above else above
    if isDedentTrigger current && unit ≤ inner then inner - unit else inner

/-! ## Laws of the parts -/

/-- A line of spaces and a text that starts with none stands at the column of the spaces. -/
theorem leadingWidth_spaces_append {column : Column} {text : List Char}
    (h : ∀ c, text.head? = some c → isWhite c = false) :
    leadingWidth (spaces column ++ text) = column := by
  have hrun : (spaces column ++ text).takeWhile isWhite = spaces column := by
    unfold spaces
    rw [List.takeWhile_append_of_pos (by
      intro c hc
      rw [(List.mem_replicate.mp hc).2]
      exact isWhite_space)]
    cases text with
    | nil => simp
    | cons c rest => simp [h c rfl]
  unfold leadingWidth
  rw [hrun, spaces, List.length_replicate, Column.clamp_toNat]

/-- Moving a line leaves what a trim of its front leaves. -/
theorem trimStart_spaces_append (column : Column) (text : List Char) :
    trimStart (spaces column ++ text) = trimStart text := by
  unfold trimStart spaces
  rw [List.dropWhile_append_of_pos]
  intro c hc
  rw [(List.mem_replicate.mp hc).2]
  exact isWhite_space

end MatlabEdit
