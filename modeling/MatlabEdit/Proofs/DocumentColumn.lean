import MatlabEdit.Proofs.WellNested
import MatlabEdit.Proofs.Place

/-!
# The column of a line in a document

In a document a line is moved under the line above before its column is computed. So an
`end` is not held back by where it was typed, and it steps out like every other word that
is pulled out. What is left of the rules is one law (`Expects.toNat_columnFor`): a line
stands at the depth that the line above leads to, or one level further out. A first `case`
is the exception (`toNat_columnFor_of_firstCase`). Of the lines further up nothing is seen,
so lines that stand below layouts that resemble each other stand alike (`Resembles.run_eq`).

Columns are multiples of the unit here, as long as the depth fits a column: then no step
into a block stops short at the largest column, and the step out of it comes back to where
the header stands.
-/

namespace MatlabEdit

/-! ## Patterns do not see indentation -/

section Patterns

variable (column : Column) (text : List Char)

@[simp] theorem opensBlock_spaces_append :
    opensBlock (spaces column ++ text) = opensBlock text := by
  simp only [opensBlock, afterKeyword?, trimStart_spaces_append]

@[simp] theorem opensSwitch_spaces_append :
    opensSwitch (spaces column ++ text) = opensSwitch text := by
  simp only [opensSwitch, afterKeyword?, trimStart_spaces_append]

@[simp] theorem isLone_spaces_append (word : String) :
    isLone word (spaces column ++ text) = isLone word text := by
  simp only [isLone, trimStart_spaces_append]

@[simp] theorem isBareCase_spaces_append :
    isBareCase (spaces column ++ text) = isBareCase text := isLone_spaces_append column text "case"

@[simp] theorem isBareEnd_spaces_append :
    isBareEnd (spaces column ++ text) = isBareEnd text := isLone_spaces_append column text "end"

@[simp] theorem isDedentTrigger_spaces_append :
    isDedentTrigger (spaces column ++ text) = isDedentTrigger text := by
  rw [Bool.eq_iff_iff, isDedentTrigger_iff, isDedentTrigger_iff, trimStart_spaces_append]

end Patterns

/-! ## What is expected of the next line -/

/-- Between two lines, with no comment open: a line at depth `d` is expected next. -/
structure Layout.Expects (layout : Layout) (unit d : Nat) : Prop where
  depth_eq : layout.depth = 0
  column_eq : (leadingWidth layout.previous).toNat
    + (if opensBlock layout.previous then unit else 0) = d * unit

namespace Layout

variable {layout : Layout} {config : IndentConfig} {d : Nat} {text : List Char}

theorem expects_start (unit : Nat) : start.Expects unit 0 where
  depth_eq := rfl
  column_eq := by
    rw [Nat.zero_mul]
    rfl

/-- The column one level inside, before a dedent takes it back, is that of the depth. -/
theorem Expects.toNat_inner (h : layout.Expects config.unit.toNat d)
    (hfits : d * config.unit.toNat < UInt32.size) :
    (if opensBlock layout.previous then Column.stepIn config.unit (leadingWidth layout.previous)
      else leadingWidth layout.previous).toNat = d * config.unit.toNat := by
  have hcolumn := h.column_eq
  cases hopens : opensBlock layout.previous with
  | true =>
    rw [hopens, if_pos rfl] at hcolumn
    rw [if_pos rfl, Column.toNat_stepIn]
    omega
  | false =>
    rw [hopens, if_neg Bool.false_ne_true] at hcolumn
    rw [if_neg Bool.false_ne_true]
    omega

/-- There is a level to step over everywhere but at depth 0. -/
theorem unit_le_iff {column : Column} (h : column.toNat = d * config.unit.toNat) :
    config.unit ≤ column ↔ d ≠ 0 := by
  have hunit := config.unit_pos
  rw [UInt32.le_iff_toNat_le, h]
  constructor
  · rintro hle rfl
    omega
  · intro hne
    exact Nat.le_mul_of_pos_left _ (Nat.pos_of_ne_zero hne)

theorem toNat_stepOut {column : Column} (h : column.toNat = (d + 1) * config.unit.toNat) :
    (column - config.unit).toNat = d * config.unit.toNat := by
  have hle : config.unit ≤ column := (unit_le_iff h).mpr (Nat.succ_ne_zero d)
  rw [UInt32.toNat_sub_of_le _ _ hle, h, Nat.succ_mul]
  exact Nat.add_sub_cancel _ _

/-- An `end` that stands under the line above. -/
theorem Expects.toNat_endColumn (h : layout.Expects config.unit.toNat d) :
    (endColumn config.unit (leadingWidth layout.previous) layout.previous).toNat
      = (d - 1) * config.unit.toNat := by
  have hcolumn := h.column_eq
  have hunit := config.unit_pos
  unfold endColumn
  dsimp only
  generalize leadingWidth layout.previous = above at hcolumn ⊢
  -- the line above is the header or a word, or it ends a body
  cases hopens : opensBlock layout.previous with
  | true =>
    rw [hopens, if_pos rfl] at hcolumn
    rw [if_pos rfl]
    show (if above ≤ above then above else above).toNat = _
    rw [ite_self]
    cases d with
    | zero => omega
    | succ d =>
      rw [Nat.succ_mul] at hcolumn
      exact Nat.add_right_cancel hcolumn
  | false =>
    rw [hopens, if_neg Bool.false_ne_true, Nat.add_zero] at hcolumn
    rw [if_neg Bool.false_ne_true]
    cases d with
    | zero =>
      rw [if_neg fun hle => (unit_le_iff hcolumn).mp hle rfl, Nat.zero_mul]
      rfl
    | succ d =>
      have hback := toNat_stepOut hcolumn
      have hle : above - config.unit ≤ above := by
        rw [UInt32.le_iff_toNat_le, hback, hcolumn]
        exact Nat.mul_le_mul_right _ (Nat.le_succ d)
      rw [if_pos ((unit_le_iff hcolumn).mpr (Nat.succ_ne_zero d))]
      show (if above - config.unit ≤ above then above - config.unit else above).toNat = _
      rw [if_pos hle, hback]
      rfl

/-- **A line stands at the depth that is expected**, or one level further out if it is pulled
out. -/
theorem Expects.toNat_columnFor (h : layout.Expects config.unit.toNat d)
    (hfits : d * config.unit.toNat < UInt32.size) (htrim : trim text = text)
    (hcase : (isBareCase text && opensSwitch layout.previous) = false) :
    (layout.columnFor config text).toNat
      = (if isDedentTrigger text then d - 1 else d) * config.unit.toNat := by
  have hwidth : leadingWidth (spaces (leadingWidth layout.previous) ++ text)
      = leadingWidth layout.previous :=
    leadingWidth_spaces_append (ends_of_trim htrim).1
  have hinner := h.toNat_inner hfits
  simp only [columnFor, indentColumn, isBareCase_spaces_append, isBareEnd_spaces_append,
    isDedentTrigger_spaces_append, hcase, Bool.false_eq_true, if_false, hwidth]
  cases hend : isBareEnd text with
  | true =>
    rw [if_pos rfl, isDedentTrigger_of_isBareEnd hend, if_pos rfl]
    exact h.toNat_endColumn
  | false =>
    rw [if_neg Bool.false_ne_true]
    generalize (if opensBlock layout.previous then
      Column.stepIn config.unit (leadingWidth layout.previous)
        else leadingWidth layout.previous) = inner at hinner ⊢
    cases isDedentTrigger text with
    | false => exact hinner
    | true =>
      rw [Bool.true_and, if_pos rfl]
      cases d with
      | zero =>
        rw [if_neg fun hle => (unit_le_iff hinner).mp (of_decide_eq_true hle) rfl]
        exact hinner
      | succ d =>
        rw [if_pos (decide_eq_true ((unit_le_iff hinner).mpr (Nat.succ_ne_zero d)))]
        exact toNat_stepOut hinner

/-- A first `case` stands one level inside its `switch`. -/
theorem toNat_columnFor_of_firstCase
    (hcolumn : (leadingWidth layout.previous).toNat = d * config.unit.toNat)
    (hfits : (d + 1) * config.unit.toNat < UInt32.size)
    (hcase : (isBareCase text && opensSwitch layout.previous) = true) :
    (layout.columnFor config text).toNat = (d + 1) * config.unit.toNat := by
  simp only [columnFor, indentColumn, isBareCase_spaces_append, hcase, if_true, Column.toNat_stepIn]
  rw [Nat.succ_mul] at hfits ⊢
  omega

/-! ## What a line sees of the lines above -/

/-- Two layouts that no line below can tell apart. Of the line above, its column is seen, and
whether it opens a block or a `switch`. -/
structure Resembles (layout layout' : Layout) : Prop where
  depth_eq : layout'.depth = layout.depth
  width_eq : leadingWidth layout'.previous = leadingWidth layout.previous
  opensBlock_eq : opensBlock layout'.previous = opensBlock layout.previous
  opensSwitch_eq : opensSwitch layout'.previous = opensSwitch layout.previous

namespace Resembles

variable {layout' : Layout}

theorem refl (layout : Layout) : layout.Resembles layout := ⟨rfl, rfl, rfl, rfl⟩

theorem columnFor_eq (h : layout.Resembles layout') (config : IndentConfig) (text : List Char) :
    layout'.columnFor config text = layout.columnFor config text := by
  unfold columnFor indentColumn endColumn
  rw [h.width_eq, h.opensBlock_eq, h.opensSwitch_eq]

/-- Below either of them the same becomes of a line, and nothing below it can tell them apart. -/
theorem place (h : layout.Resembles layout') (config : IndentConfig) (line : Line) :
    (layout'.place config line).1 = (layout.place config line).1 ∧
      (layout.place config line).2.Resembles (layout'.place config line).2 := by
  have hin : layout'.inComment line = layout.inComment line := by
    rw [inComment, inComment, h.depth_eq]
  cases hcomment : layout.inComment line with
  | true =>
    rw [place_of_inComment hcomment, place_of_inComment (hin.trans hcomment), h.depth_eq]
    exact ⟨rfl, rfl, h.width_eq, h.opensBlock_eq, h.opensSwitch_eq⟩
  | false =>
    by_cases hblank : trim line.text = []
    · rw [place_of_blank hcomment hblank, place_of_blank (hin.trans hcomment) hblank]
      exact ⟨rfl, h⟩
    · rw [place_of_text hcomment hblank, place_of_text (hin.trans hcomment) hblank,
        h.columnFor_eq]
      exact ⟨rfl, h.depth_eq, rfl, rfl, rfl⟩

theorem run_eq {layout layout' : Layout} (h : layout.Resembles layout') (config : IndentConfig)
    (ls : List Line) : (layout'.run config ls).1 = (layout.run config ls).1 := by
  induction ls generalizing layout layout' with
  | nil => rfl
  | cons line rest ih =>
    obtain ⟨hpiece, hbelow⟩ := h.place config line
    rw [run_cons, run_cons, hpiece, ih hbelow]

end Resembles

/-- The first line of a document stands at its left edge. -/
theorem columnFor_start (config : IndentConfig) {text : List Char} (htrim : trim text = text) :
    start.columnFor config text = 0 := by
  have hswitch : opensSwitch start.previous = false := by decide
  have hcolumn := (expects_start config.unit.toNat).toNat_columnFor
    (by rw [Nat.zero_mul]; decide) htrim (by rw [hswitch, Bool.and_false])
  rw [Nat.zero_sub, ite_self, Nat.zero_mul] at hcolumn
  exact UInt32.toNat.inj hcolumn

end Layout

end MatlabEdit
