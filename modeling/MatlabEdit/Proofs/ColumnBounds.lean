import MatlabEdit.Proofs.Settled

/-!
# How far a line moves

A line stands where the line above stands, or it moves for a reason that can be seen on the
two lines. `Move` lists the reasons, each with the column that it leads to as a number, and
the rule knows no other (`move_indentColumn`). So a line moves by one level at most: what
goes in is led in by the line above, and what goes out is pulled out by its own word.

Columns are words, and what is said of the numbers holds of the words only if no step wraps
around. `indentColumn?` carries out the rule on integers and gives up at the first result
that is not a column. It never gives up, and it comes to the same column
(`indentColumn?_eq_some`).
-/

namespace MatlabEdit

/-! ## The rule on integers -/

namespace Column

/-- The column for an integer, if there is one. -/
def ofInt? (n : Int) : Option Column :=
  if 0 ≤ n ∧ n < UInt32.size then some (UInt32.ofNat n.toNat) else none

/-- One level in, or as far as there are columns. -/
def stepIn? (unit column : Column) : Option Column :=
  ofInt? (min ((column.toNat : Int) + unit.toNat) (UInt32.size - 1))

/-- One level out. -/
def stepOut? (unit column : Column) : Option Column := ofInt? ((column.toNat : Int) - unit.toNat)

theorem ofInt?_toNat (column : Column) : ofInt? column.toNat = some column := by
  have hlt := column.toNat_lt_size
  rw [ofInt?, if_pos ⟨by omega, by omega⟩, Int.toNat_natCast, UInt32.ofNat_toNat]

theorem stepIn?_eq_some (unit column : Column) :
    stepIn? unit column = some (stepIn unit column) := by
  have hsum : min ((column.toNat : Int) + unit.toNat) (UInt32.size - 1)
      = (stepIn unit column).toNat := by
    have hsize : 0 < UInt32.size := by decide
    rw [toNat_stepIn]
    omega
  rw [stepIn?, hsum, ofInt?_toNat]

/-- Stepping out needs a level to step over. -/
theorem stepOut?_eq_some {unit column : Column} (h : unit ≤ column) :
    stepOut? unit column = some (column - unit) := by
  have hdiff : (column.toNat : Int) - unit.toNat = (column - unit).toNat := by
    have hle := UInt32.le_iff_toNat_le.mp h
    rw [UInt32.toNat_sub_of_le _ _ h]
    omega
  rw [stepOut?, hdiff, ofInt?_toNat]

theorem toNat_min (a b : Column) : (min a b).toNat = min a.toNat b.toNat := by
  show (if a ≤ b then a else b).toNat = _
  split_ifs with hle
  · exact (Nat.min_eq_left (UInt32.le_iff_toNat_le.mp hle)).symm
  · rw [UInt32.le_iff_toNat_le] at hle
    omega

end Column

/-- The column for a bare `end`, on integers. -/
def endColumn? (unit typed : Column) (previous : List Char) : Option Column :=
  let above := leadingWidth previous
  if opensBlock previous then some (min above typed)
  else if unit ≤ above then (Column.stepOut? unit above).map fun column => min column typed
  else some 0

/-- The column for the line `current` below the line `previous`, on integers. -/
def indentColumn? (unit : Column) (current previous : List Char) : Option Column :=
  let above := leadingWidth previous
  if isBareCase current && opensSwitch previous then Column.stepIn? unit above
  else if isBareEnd current then endColumn? unit (leadingWidth current) previous
  else
    (if opensBlock previous then Column.stepIn? unit above else some above).bind fun inner =>
      if isDedentTrigger current && unit ≤ inner then Column.stepOut? unit inner else some inner

section Rule

variable {unit : Column} {current previous : List Char}

theorem endColumn?_eq_some (unit typed : Column) (previous : List Char) :
    endColumn? unit typed previous = some (endColumn unit typed previous) := by
  unfold endColumn? endColumn
  dsimp only
  split_ifs with hopens hle
  · rfl
  · rw [Column.stepOut?_eq_some hle]
    rfl
  · rfl

/-- **No step of the rule wraps around.** -/
theorem indentColumn?_eq_some (unit : Column) (current previous : List Char) :
    indentColumn? unit current previous = some (indentColumn unit current previous) := by
  have hinner : (if opensBlock previous then Column.stepIn? unit (leadingWidth previous)
      else some (leadingWidth previous))
      = some (if opensBlock previous then Column.stepIn unit (leadingWidth previous)
        else leadingWidth previous) := by
    split_ifs
    · exact Column.stepIn?_eq_some _ _
    · rfl
  unfold indentColumn? indentColumn
  dsimp only
  rw [hinner, Option.bind_some, Column.stepIn?_eq_some, endColumn?_eq_some]
  generalize (if opensBlock previous then Column.stepIn unit (leadingWidth previous)
    else leadingWidth previous) = inner
  split_ifs with hfirst hend hout
  · rfl
  · rfl
  · exact Column.stepOut?_eq_some (of_decide_eq_true (Bool.and_eq_true_iff.mp hout).2)
  · rfl

/-! ## The reasons to move -/

/-- Why the line `current` stands at a column below the line `previous`. -/
inductive Move (unit : Column) (current previous : List Char) : Nat → Prop where
  /-- A first `case` goes into its `switch`. -/
  | firstCase : isBareEnd current = false → isBareCase current = true →
      opensSwitch previous = true →
      Move unit current previous
        (min ((leadingWidth previous).toNat + unit.toNat) (UInt32.size - 1))
  /-- An `end` stands under the opener above it. -/
  | endUnder : isBareEnd current = true → opensBlock previous = true →
      Move unit current previous (min (leadingWidth previous).toNat (leadingWidth current).toNat)
  /-- An `end` leaves the block that the line above is in. -/
  | endOut : isBareEnd current = true → opensBlock previous = false →
      unit.toNat ≤ (leadingWidth previous).toNat →
      Move unit current previous
        (min ((leadingWidth previous).toNat - unit.toNat) (leadingWidth current).toNat)
  /-- An `end` stands at the left edge if there is no whole level to leave. -/
  | endAtEdge : isBareEnd current = true → opensBlock previous = false →
      (leadingWidth previous).toNat < unit.toNat → Move unit current previous 0
  /-- The line above opens a block, and the line is in it. -/
  | into : isBareEnd current = false → opensBlock previous = true →
      isDedentTrigger current = false →
      Move unit current previous
        (min ((leadingWidth previous).toNat + unit.toNat) (UInt32.size - 1))
  /-- The line above opens a block, and the line leaves it at once. -/
  | branch : isBareEnd current = false → opensBlock previous = true →
      isDedentTrigger current = true →
      Move unit current previous
        (min ((leadingWidth previous).toNat + unit.toNat) (UInt32.size - 1) - unit.toNat)
  /-- The line leaves the block that the line above is in. -/
  | out : isBareEnd current = false → opensBlock previous = false →
      isDedentTrigger current = true → unit.toNat ≤ (leadingWidth previous).toNat →
      Move unit current previous ((leadingWidth previous).toNat - unit.toNat)
  /-- The line is under the line above. -/
  | level : isBareEnd current = false → opensBlock previous = false →
      (isDedentTrigger current = true → (leadingWidth previous).toNat < unit.toNat) →
      Move unit current previous (leadingWidth previous).toNat

/-- An `end` moves for one of the reasons that are an `end`'s. -/
theorem move_endColumn (h : isBareEnd current = true) :
    Move unit current previous (endColumn unit (leadingWidth current) previous).toNat := by
  unfold endColumn
  dsimp only
  split_ifs with hopens hle
  · rw [Column.toNat_min]
    exact .endUnder h hopens
  · rw [Column.toNat_min, UInt32.toNat_sub_of_le _ _ hle]
    exact .endOut h (Bool.eq_false_iff.mpr hopens) (UInt32.le_iff_toNat_le.mp hle)
  · rw [UInt32.le_iff_toNat_le, Nat.not_le] at hle
    exact .endAtEdge h (Bool.eq_false_iff.mpr hopens) hle

/-- **The rule moves a line for one of these reasons.** -/
theorem move_indentColumn (unit : Column) (current previous : List Char) :
    Move unit current previous (indentColumn unit current previous).toNat := by
  cases hend : isBareEnd current with
  | true =>
    rw [indentColumn_of_isBareEnd hend]
    exact move_endColumn hend
  | false =>
    unfold indentColumn
    dsimp only
    rw [hend, if_neg Bool.false_ne_true]
    split_ifs with hfirst hopens hout hout
    · obtain ⟨hcase, hswitch⟩ := Bool.and_eq_true_iff.mp hfirst
      rw [Column.toNat_stepIn]
      exact .firstCase hend hcase hswitch
    · obtain ⟨hdedent, hle⟩ := Bool.and_eq_true_iff.mp hout
      rw [UInt32.toNat_sub_of_le _ _ (of_decide_eq_true hle), Column.toNat_stepIn]
      exact .branch hend hopens hdedent
    · -- behind a step in there is a whole level to step over
      have hlt := unit.toNat_lt_size
      have hle : unit ≤ Column.stepIn unit (leadingWidth previous) := by
        rw [UInt32.le_iff_toNat_le, Column.toNat_stepIn]
        omega
      rw [decide_eq_true hle, Bool.and_true, Bool.not_eq_true] at hout
      rw [Column.toNat_stepIn]
      exact .into hend hopens hout
    · obtain ⟨hdedent, hle⟩ := Bool.and_eq_true_iff.mp hout
      have hle := of_decide_eq_true hle
      rw [UInt32.toNat_sub_of_le _ _ hle]
      exact .out hend (Bool.eq_false_iff.mpr hopens) hdedent (UInt32.le_iff_toNat_le.mp hle)
    · refine .level hend (Bool.eq_false_iff.mpr hopens) fun hdedent => ?_
      rw [hdedent, Bool.true_and, decide_eq_true_iff, UInt32.le_iff_toNat_le, Nat.not_le] at hout
      exact hout

namespace Move

variable {r : Nat}

theorem le_add (h : Move unit current previous r) :
    r ≤ (leadingWidth previous).toNat + unit.toNat := by
  cases h <;> omega

/-- Only a line that is pulled out comes to stand further out. -/
theorem isDedentTrigger_of_lt (h : Move unit current previous r)
    (hlt : r < (leadingWidth previous).toNat) : isDedentTrigger current = true := by
  cases h with
  | endUnder hend | endOut hend | endAtEdge hend => exact isDedentTrigger_of_isBareEnd hend
  | branch _ _ hdedent | out _ _ hdedent => exact hdedent
  | firstCase | into =>
    have hsize := (leadingWidth previous).toNat_lt_size
    omega
  | level => omega

/-- A line comes to stand further in behind an opener, or as a first `case`. -/
theorem opens_of_lt (h : Move unit current previous r) (hlt : (leadingWidth previous).toNat < r) :
    opensBlock previous = true ∧ isDedentTrigger current = false ∨
      isBareCase current = true ∧ opensSwitch previous = true := by
  cases h with
  | firstCase _ hcase hswitch => exact .inr ⟨hcase, hswitch⟩
  | into _ hopens hdedent => exact .inl ⟨hopens, hdedent⟩
  | endUnder | endOut | endAtEdge | branch | out | level => omega

theorem le_add_of_not_end (h : Move unit current previous r) (hend : isBareEnd current = false) :
    (leadingWidth previous).toNat ≤ r + unit.toNat := by
  have hsize := (leadingWidth previous).toNat_lt_size
  cases h with
  | endUnder htrue | endOut htrue | endAtEdge htrue =>
    rw [hend] at htrue
    cases htrue
  | firstCase | into | branch | out | level => omega

/-- An `end` is never moved to the right of where it was typed. -/
theorem le_of_end (h : Move unit current previous r) (hend : isBareEnd current = true) :
    r ≤ (leadingWidth current).toNat := by
  cases h with
  | endUnder | endOut | endAtEdge => omega
  | firstCase hfalse | into hfalse | branch hfalse | out hfalse | level hfalse =>
    rw [hend] at hfalse
    cases hfalse

end Move

/-- **A line moves for a visible reason and by one level at most.** -/
theorem indentColumn_within_one_level (unit : Column) (current previous : List Char) :
    (indentColumn unit current previous).toNat ≤ (leadingWidth previous).toNat + unit.toNat ∧
      ((indentColumn unit current previous).toNat < (leadingWidth previous).toNat →
        isDedentTrigger current = true) ∧
      ((leadingWidth previous).toNat < (indentColumn unit current previous).toNat →
        opensBlock previous = true ∧ isDedentTrigger current = false ∨
          isBareCase current = true ∧ opensSwitch previous = true) ∧
      (isBareEnd current = false →
        (leadingWidth previous).toNat
          ≤ (indentColumn unit current previous).toNat + unit.toNat) ∧
      (isBareEnd current = true →
        (indentColumn unit current previous).toNat ≤ (leadingWidth current).toNat) ∧
      indentColumn? unit current previous = some (indentColumn unit current previous) := by
  have hmove := move_indentColumn unit current previous
  exact ⟨hmove.le_add, hmove.isDedentTrigger_of_lt, hmove.opens_of_lt, hmove.le_add_of_not_end,
    hmove.le_of_end, indentColumn?_eq_some unit current previous⟩

/-- A step in that stops at the largest column, so that the way back ends to the left of the line
above, a first `case`, and an `end` that was typed further out. -/
theorem indentColumn_within_one_level_corners :
    ((indentColumn 4294967295 "else".toList "  if x".toList).toNat
          < (leadingWidth "  if x".toList).toNat ∧ isDedentTrigger "else".toList = true) ∧
      (isBareEnd "else".toList = false ∧ (leadingWidth "  if x".toList).toNat
          ≤ (indentColumn 4294967295 "else".toList "  if x".toList).toNat + 4294967295) ∧
      ((leadingWidth "switch x, end".toList).toNat
          < (indentColumn 4 "case".toList "switch x, end".toList).toNat ∧
        (opensBlock "switch x, end".toList = true ∧ isDedentTrigger "case".toList = false ∨
          isBareCase "case".toList = true ∧ opensSwitch "switch x, end".toList = true)) ∧
      (isBareEnd " end".toList = true ∧
        (indentColumn 2 " end".toList "      y".toList).toNat
          ≤ (leadingWidth " end".toList).toNat) := by
  have hbranch := indentColumn_within_one_level 4294967295 "else".toList "  if x".toList
  have hfirst := indentColumn_within_one_level 4 "case".toList "switch x, end".toList
  have hend := indentColumn_within_one_level 2 " end".toList "      y".toList
  have hlt : (indentColumn 4294967295 "else".toList "  if x".toList).toNat
      < (leadingWidth "  if x".toList).toNat := by decide +kernel
  have hnot : isBareEnd "else".toList = false := by decide
  have hgt : (leadingWidth "switch x, end".toList).toNat
      < (indentColumn 4 "case".toList "switch x, end".toList).toNat := by decide +kernel
  have hbare : isBareEnd " end".toList = true := by decide
  exact ⟨⟨hlt, hbranch.2.1 hlt⟩, ⟨hnot, hbranch.2.2.2.1 hnot⟩, ⟨hgt, hfirst.2.2.1 hgt⟩,
    ⟨hbare, hend.2.2.2.2.1 hbare⟩⟩

end Rule

end MatlabEdit
