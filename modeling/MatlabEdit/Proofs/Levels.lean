import Mathlib.Data.List.Chain
import MatlabEdit.Proofs.DocumentColumn
import MatlabEdit.Proofs.Margins

/-!
# Nesting levels

The layout counts in columns: it compares them with the unit, adds the unit and takes it
away. What it computes is a number of levels all the same, and the levels follow from the
texts on the lines alone (`levels`). A line is one level inside a line that opens a block,
a word that is pulled out is one level further out, and there is no level below 0.

So the column of a line is its level times the unit, for every unit for which that fits a
column (`columns_reindent_eq_levels`). One line moves the level by one at most, and that is
why as many levels as there are lines are enough to ask for.
-/

namespace MatlabEdit

/-! ## Levels of texts -/

/-- The level of the line `current` below the line `previous`, which is at `level`. -/
def levelBelow (level : Nat) (previous current : List Char) : Nat :=
  if isBareCase current && opensSwitch previous then level + 1
  else
    let inner := if opensBlock previous then level + 1 else level
    if isDedentTrigger current then inner - 1 else inner

/-- The levels of the texts of a list, each below the one before it. -/
def levelsBelow (level : Nat) (previous : List Char) : List (List Char) → List Nat
  | [] => []
  | current :: rest =>
    levelBelow level previous current ::
      levelsBelow (levelBelow level previous current) current rest

/-- What stands on a line that is no comment and not blank. -/
def Line.body? : Line × LineRole → Option (List Char)
  | (line, role) => if role = .text then some (trim line.text) else none

theorem Line.body?_text (line : Line) : body? (line, .text) = some (trim line.text) := rfl

theorem Line.body?_of_ne {role : LineRole} (h : role ≠ .text) (line : Line) :
    body? (line, role) = none := if_neg h

/-- The texts on the lines of a document, without the blank lines and the comments. -/
def bodies (text : List Char) : List (List Char) :=
  (Line.roles 0 (Line.split text)).filterMap Line.body?

/-- The levels of these lines. -/
def levels (text : List Char) : List Nat := levelsBelow 0 [] (bodies text)

/-- Where a line starts that is no comment and not blank. -/
def Line.column? : Line × LineRole → Option Nat
  | (line, role) => if role = .text then some (line.text.takeWhile isWhite).length else none

theorem Line.column?_text (line : Line) :
    column? (line, .text) = some (line.text.takeWhile isWhite).length := rfl

theorem Line.column?_of_ne {role : LineRole} (h : role ≠ .text) (line : Line) :
    column? (line, role) = none := if_neg h

/-- The columns of the lines of a document, without the blank lines and the comments. -/
def columns (text : List Char) : List Nat :=
  (Line.roles 0 (Line.split text)).filterMap Line.column?

section Levels

variable {level : Nat} {previous current : List Char}

theorem levelBelow_le (level : Nat) (previous current : List Char) :
    levelBelow level previous current ≤ level + 1 := by
  unfold levelBelow
  dsimp only
  split_ifs <;> omega

theorem le_levelBelow (level : Nat) (previous current : List Char) :
    level ≤ levelBelow level previous current + 1 := by
  unfold levelBelow
  dsimp only
  split_ifs <;> omega

/-- Nothing opens a level above the first line. -/
theorem levelBelow_nil (current : List Char) : levelBelow 0 [] current = 0 := by
  have hopens : opensBlock [] = false := by decide
  have hswitch : opensSwitch [] = false := by decide
  simp [levelBelow, hopens, hswitch]

theorem levelBelow_spaces_append (column : Column) :
    levelBelow level (spaces column ++ previous) current = levelBelow level previous current := by
  rw [levelBelow, levelBelow, opensBlock_spaces_append, opensSwitch_spaces_append]

theorem levelsBelow_spaces_append (column : Column) (texts : List (List Char)) :
    levelsBelow level (spaces column ++ previous) texts = levelsBelow level previous texts := by
  cases texts with
  | nil => rfl
  | cons current rest => rw [levelsBelow, levelsBelow, levelBelow_spaces_append]

theorem length_levelsBelow (texts : List (List Char)) (level : Nat) (previous : List Char) :
    (levelsBelow level previous texts).length = texts.length := by
  induction texts generalizing level previous with
  | nil => rfl
  | cons current rest ih => rw [levelsBelow, List.length_cons, ih, List.length_cons]

/-- Two levels of which none is more than one level from the other. -/
def Adjacent (a b : Nat) : Prop := a ≤ b + 1 ∧ b ≤ a + 1

theorem isChain_levelsBelow (texts : List (List Char)) (level : Nat) (previous : List Char) :
    (level :: levelsBelow level previous texts).IsChain Adjacent := by
  induction texts generalizing level previous with
  | nil => exact .singleton _
  | cons current rest ih =>
    exact .cons_cons ⟨le_levelBelow level previous current, levelBelow_le level previous current⟩
      (ih _ _)

theorem getElem?_levelsBelow_le {i n : Nat} (texts : List (List Char)) (level : Nat)
    (previous : List Char) (h : (levelsBelow level previous texts)[i]? = some n) :
    n ≤ level + i + 1 := by
  induction texts generalizing level previous i with
  | nil => cases h
  | cons current rest ih =>
    have hle := levelBelow_le level previous current
    cases i with
    | zero =>
      obtain rfl := Option.some.inj h
      exact hle
    | succ i =>
      have := ih _ _ h
      omega

/-- The first line is at level 0, and every line below it goes one level further in at most. -/
theorem getElem?_levels_le {text : List Char} {i n : Nat} (h : (levels text)[i]? = some n) :
    n ≤ i := by
  unfold levels at h
  cases hbodies : bodies text with
  | nil =>
    rw [hbodies] at h
    cases h
  | cons current rest =>
    rw [hbodies, levelsBelow, levelBelow_nil] at h
    cases i with
    | zero =>
      obtain rfl := Option.some.inj h
      exact Nat.le_refl 0
    | succ i =>
      have := getElem?_levelsBelow_le _ _ _ h
      omega

end Levels

/-! ## Columns are levels -/

namespace Layout

variable {layout : Layout} {config : IndentConfig} {level : Nat}

/-- **The column of a line is its level times the unit**, if that of the line above is. -/
theorem toNat_columnFor_eq_levelBelow {text : List Char} (hdepth : layout.depth = 0)
    (hcolumn : (leadingWidth layout.previous).toNat = level * config.unit.toNat)
    (hfits : (level + 1) * config.unit.toNat < UInt32.size) (htrim : trim text = text) :
    (layout.columnFor config text).toNat
      = levelBelow level layout.previous text * config.unit.toNat := by
  unfold levelBelow
  cases hcase : isBareCase text && opensSwitch layout.previous with
  | true =>
    rw [if_pos rfl]
    exact toNat_columnFor_of_firstCase hcolumn hfits hcase
  | false =>
    rw [if_neg Bool.false_ne_true]
    have hexpects : layout.Expects config.unit.toNat
        (if opensBlock layout.previous then level + 1 else level) := by
      refine ⟨hdepth, ?_⟩
      rw [hcolumn]
      split_ifs
      · rw [Nat.succ_mul]
      · rfl
    refine hexpects.toNat_columnFor ?_ htrim hcase
    have hle : (if opensBlock layout.previous then level + 1 else level) ≤ level + 1 := by
      split_ifs <;> omega
    exact Nat.lt_of_le_of_lt (Nat.mul_le_mul_right _ hle) hfits

theorem columns_run (config : IndentConfig) (ls : List Line) : ∀ (layout : Layout) (level : Nat),
    (leadingWidth layout.previous).toNat = level * config.unit.toNat →
      (level + ((Line.roles layout.depth ls).filterMap Line.body?).length) * config.unit.toNat
        < UInt32.size →
      (Line.roles layout.depth ((layout.run config ls).1.map Piece.line)).filterMap Line.column?
        = (levelsBelow level layout.previous
            ((Line.roles layout.depth ls).filterMap Line.body?)).map (· * config.unit.toNat) := by
  induction ls with
  | nil => exact fun _ _ _ _ => rfl
  | cons line rest ih =>
    intro layout level hcolumn hfits
    rw [roles_run_cons]
    rw [Line.roles, ← depth_place layout config line] at hfits ⊢
    have hbelow := ih (layout.place config line).2
    by_cases hrole : line.role layout.depth = .text
    · rw [hrole, List.filterMap_cons_some (Line.body?_text line), List.length_cons] at hfits
      have hprevious : (layout.place config line).2.previous
          = spaces (layout.columnFor config (trim line.text)) ++ trim line.text := by
        rw [place_of_textLine hrole]
      have hline : (layout.place config line).1.line.text
          = spaces (layout.columnFor config (trim line.text)) ++ trim line.text := by
        rw [place_of_textLine hrole]
        rfl
      have hhead := (ends_of_trim (trim_trim line.text)).1
      have hle := levelBelow_le level layout.previous (trim line.text)
      have hplaced := toNat_columnFor_eq_levelBelow (depth_of_role_text hrole) hcolumn
        (Nat.lt_of_le_of_lt (Nat.mul_le_mul_right _ (by omega)) hfits) (trim_trim line.text)
      -- the lines below are counted from this one, at its level
      have htail := hbelow (levelBelow level layout.previous (trim line.text))
        (by rw [hprevious, leadingWidth_spaces_append hhead, hplaced])
        (Nat.lt_of_le_of_lt (Nat.mul_le_mul_right _ (by omega)) hfits)
      rw [hprevious, levelsBelow_spaces_append] at htail
      rw [hrole, List.filterMap_cons_some (Line.column?_text _), hline,
        List.filterMap_cons_some (Line.body?_text line), levelsBelow, List.map_cons, htail,
        takeWhile_append_of_head? (by simp [spaces]) hhead, spaces, List.length_replicate, hplaced]
    · rw [List.filterMap_cons_none (Line.body?_of_ne hrole line)] at hfits
      rw [previous_place_of_ne hrole] at hbelow
      rw [List.filterMap_cons_none (Line.column?_of_ne hrole _),
        List.filterMap_cons_none (Line.body?_of_ne hrole line)]
      exact hbelow level hcolumn hfits

end Layout

theorem columns_reindent {config : IndentConfig} {text : String}
    (hfits : (bodies text.toList).length * config.unit.toNat < UInt32.size) :
    columns (reindent config text).toList = (levels text.toList).map (· * config.unit.toNat) := by
  have hrun := Layout.columns_run config (Line.split text.toList) Layout.start 0
    (Nat.zero_mul _).symm (by rwa [Nat.zero_add])
  rw [columns, filterMap_roles_reindent config text fun _ hrole => Line.column?_of_ne hrole _]
  exact hrun

/-- **The levels of the lines do not depend on the unit.** They begin at 0, no line is more than one
level from the next or deeper than there are lines above it, and the column of a line is its level
times the unit, if one level for each line fits a column. -/
theorem columns_reindent_eq_levels (text : String) :
    (levels text.toList).length = (bodies text.toList).length ∧
      (∀ config : IndentConfig, (bodies text.toList).length * config.unit.toNat < UInt32.size →
        columns (reindent config text).toList
          = (levels text.toList).map (· * config.unit.toNat)) ∧
      (∀ level, (levels text.toList).head? = some level → level = 0) ∧
      (levels text.toList).IsChain Adjacent ∧
      (∀ (i level : Nat), (levels text.toList)[i]? = some level → level ≤ i) ∧
      ∀ u v : IndentConfig, (bodies text.toList).length * u.unit.toNat < UInt32.size →
        (bodies text.toList).length * v.unit.toNat < UInt32.size → ∀ (i column column' : Nat),
          (columns (reindent u text).toList)[i]? = some column →
          (columns (reindent v text).toList)[i]? = some column' →
            column * v.unit.toNat = column' * u.unit.toNat := by
  refine ⟨length_levelsBelow _ 0 [], fun config hfits => columns_reindent hfits, ?_,
    (isChain_levelsBelow _ 0 []).tail, fun _ _ h => getElem?_levels_le h, ?_⟩
  · intro level h
    rw [List.head?_eq_getElem?] at h
    exact Nat.le_zero.mp (getElem?_levels_le h)
  · intro u v hu hv i column column' hcolumn hcolumn'
    rw [columns_reindent hu, List.getElem?_map] at hcolumn
    rw [columns_reindent hv, List.getElem?_map] at hcolumn'
    obtain ⟨level, hlevel, rfl⟩ := Option.map_eq_some_iff.mp hcolumn
    obtain ⟨level', hlevel', rfl⟩ := Option.map_eq_some_iff.mp hcolumn'
    -- both are the same level of the same line
    rw [hlevel] at hlevel'
    obtain rfl := Option.some.inj hlevel'
    rw [Nat.mul_assoc, Nat.mul_assoc, Nat.mul_comm u.unit.toNat]

/-- A first `case` goes in and a comment is passed over. The same levels make other columns. -/
theorem columns_reindent_eq_levels_switch :
    (bodies "switch x\n case\ny\n%\x7b\nz\n%\x7d\n  end\n".toList).length * 4 < UInt32.size ∧
      levels "switch x\n case\ny\n%\x7b\nz\n%\x7d\n  end\n".toList = [0, 1, 2, 1] ∧
      columns (reindent default "switch x\n case\ny\n%\x7b\nz\n%\x7d\n  end\n").toList
        = [0, 4, 8, 4] ∧ 8 * 1 = 2 * 4 := by
  have hlevels : levels "switch x\n case\ny\n%\x7b\nz\n%\x7d\n  end\n".toList = [0, 1, 2, 1] := by
    decide +kernel
  obtain ⟨_, hcolumns, _, _, _, hunits⟩ :=
    columns_reindent_eq_levels "switch x\n case\ny\n%\x7b\nz\n%\x7d\n  end\n"
  refine ⟨by decide +kernel, hlevels, ?_, ?_⟩
  · rw [hcolumns default (by decide +kernel), hlevels]
    rfl
  · exact hunits default ⟨1, by decide⟩ (by decide +kernel) (by decide +kernel) 2 8 2
      (by decide +kernel) (by decide +kernel)

end MatlabEdit
