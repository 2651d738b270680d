import Mathlib.Data.List.Chain
import MatlabEdit.Proofs.DocumentColumn
import MatlabEdit.Proofs.Margins

/-!
# Settled lines

One rule serves an editor, which asks for the column of a line while it is typed, and the
layout, which moves all lines of a document. A line is `Settled` below another one if it
stands at the column that the rule gives it there, so that asking again moves nothing.

The rule looks at where a line stands for a bare `end` only, and there it takes the smaller
of two columns, that of the line and one that follows from the line above
(`exists_cap`). So a line that is moved to its column is settled there
(`indentColumn_moved`).

The layout does not ask about the line that it prints. It asks about the same text under the
line above, where no `end` is held back. But it puts the text at the answer, which is a move
to its column again, and so every line of the result is settled below the nearest one above
it (`isChain_run`).
-/

namespace MatlabEdit

/-- The line stands at the column that it is given below the line `above`. -/
def Settled (unit : Column) (above line : List Char) : Prop :=
  leadingWidth line = indentColumn unit line above

/-- The line, moved to a column. -/
def moved (column : Column) (line : List Char) : List Char := spaces column ++ trimStart line

/-- The line, if it is no comment and not blank. -/
def Line.code? : Line × LineRole → Option (List Char)
  | (line, role) => if role = .text then some line.text else none

theorem Line.code?_text (line : Line) : code? (line, .text) = some line.text := rfl

theorem Line.code?_of_ne {role : LineRole} (h : role ≠ .text) (line : Line) :
    code? (line, role) = none := if_neg h

/-- The lines of a document, without the blank lines and the comments. -/
def codeLines (text : List Char) : List (List Char) :=
  (Line.roles 0 (Line.split text)).filterMap Line.code?

/-! ## Moving a line -/

section Moved

variable (column : Column) (line : List Char)

theorem trimStart_trimStart : trimStart (trimStart line) = trimStart line :=
  dropWhile_eq_self_of_head? fun _ h => isWhite_of_head?_trimStart h

theorem trimStart_moved : trimStart (moved column line) = trimStart line := by
  rw [moved, trimStart_spaces_append, trimStart_trimStart]

theorem leadingWidth_moved : leadingWidth (moved column line) = column :=
  leadingWidth_spaces_append fun _ h => isWhite_of_head?_trimStart h

theorem isLone_moved (word : String) : isLone word (moved column line) = isLone word line := by
  rw [isLone, isLone, trimStart_moved]

theorem isDedentTrigger_moved : isDedentTrigger (moved column line) = isDedentTrigger line := by
  rw [Bool.eq_iff_iff, isDedentTrigger_iff, isDedentTrigger_iff, trimStart_moved]

end Moved

variable {unit : Column} {current previous : List Char}

/-- Where a bare `end` may stand at most, and it stands there unless it was typed further out. -/
theorem exists_cap (unit : Column) (previous : List Char) :
    ∃ cap, ∀ typed, endColumn unit typed previous = min cap typed := by
  unfold endColumn
  dsimp only
  split_ifs with hopens hle
  · exact ⟨leadingWidth previous, fun _ => rfl⟩
  · exact ⟨leadingWidth previous - unit, fun _ => rfl⟩
  · exact ⟨0, fun typed => (if_pos (UInt32.le_iff_toNat_le.mpr (Nat.zero_le _))).symm⟩

theorem endColumn_endColumn (unit typed : Column) (previous : List Char) :
    endColumn unit (endColumn unit typed previous) previous = endColumn unit typed previous := by
  obtain ⟨cap, hcap⟩ := exists_cap unit previous
  rw [hcap, hcap]
  show (if cap ≤ (if cap ≤ typed then cap else typed) then cap
      else (if cap ≤ typed then cap else typed))
    = if cap ≤ typed then cap else typed
  by_cases hle : cap ≤ typed
  · rw [if_pos hle, ite_self]
  · rw [if_neg hle, if_neg hle]

/-- A bare `end` is no bare `case`. -/
theorem indentColumn_of_isBareEnd (h : isBareEnd current = true) :
    indentColumn unit current previous = endColumn unit (leadingWidth current) previous := by
  have hcase : isBareCase current = false := by
    rw [isBareCase, isLone, isLone_iff.mp h]
    decide
  unfold indentColumn
  dsimp only
  rw [hcase, h]
  rfl

/-- Where any other line stands makes no difference to the rule. -/
theorem indentColumn_moved_of_not_end (h : isBareEnd current = false) (column : Column) :
    indentColumn unit (moved column current) previous = indentColumn unit current previous := by
  have hcase : isBareCase (moved column current) = isBareCase current :=
    isLone_moved column current "case"
  have hend : isBareEnd (moved column current) = isBareEnd current :=
    isLone_moved column current "end"
  unfold indentColumn
  dsimp only
  rw [hcase, hend, h, isDedentTrigger_moved]
  rfl

/-- **A line that is moved to its column is settled there.** -/
theorem indentColumn_moved (unit : Column) (current previous : List Char) :
    indentColumn unit (moved (indentColumn unit current previous) current) previous
      = indentColumn unit current previous := by
  cases h : isBareEnd current with
  | false => exact indentColumn_moved_of_not_end h _
  | true =>
    have hmoved : ∀ column, isBareEnd (moved column current) = true := fun column =>
      (isLone_moved column current "end").trans h
    rw [indentColumn_of_isBareEnd h, indentColumn_of_isBareEnd (hmoved _), leadingWidth_moved,
      endColumn_endColumn]

/-! ## The lines of a document -/

namespace Layout

variable {config : IndentConfig} {layout : Layout}

/-- A line that is placed is settled below the line above it. -/
theorem settled_columnFor {text : List Char} (htrim : trim text = text) :
    Settled config.unit layout.previous (spaces (layout.columnFor config text) ++ text) := by
  have hhead := (ends_of_trim htrim).1
  have hstart : trimStart text = text := dropWhile_eq_self_of_head? hhead
  -- the column is asked for under the line above
  have hmoved : ∀ column, moved column (spaces (leadingWidth layout.previous) ++ text)
      = spaces column ++ text := by
    intro column
    rw [moved, trimStart_spaces_append, hstart]
  have hsettled := indentColumn_moved config.unit
    (spaces (leadingWidth layout.previous) ++ text) layout.previous
  rw [hmoved] at hsettled
  rw [Settled, leadingWidth_spaces_append hhead]
  exact hsettled.symm

/-- And so is every line below it, by induction on the lines. -/
theorem isChain_run (config : IndentConfig) (ls : List Line) : ∀ layout : Layout,
    (layout.previous :: (Line.roles layout.depth
      ((layout.run config ls).1.map Piece.line)).filterMap Line.code?).IsChain
        (Settled config.unit) := by
  induction ls with
  | nil => exact fun _ => .singleton _
  | cons line rest ih =>
    intro layout
    have hbelow := ih (layout.place config line).2
    rw [roles_run_cons]
    by_cases hrole : line.role layout.depth = .text
    · rw [hrole, List.filterMap_cons_some (Line.code?_text _)]
      rw [place_of_textLine hrole] at hbelow ⊢
      exact .cons_cons (settled_columnFor (trim_trim line.text)) hbelow
    · rw [List.filterMap_cons_none (Line.code?_of_ne hrole _)]
      rwa [previous_place_of_ne hrole] at hbelow

end Layout

theorem isChain_codeLines_reindent (config : IndentConfig) (text : String) :
    ([] :: codeLines (reindent config text).toList).IsChain (Settled config.unit) := by
  rw [codeLines, filterMap_roles_reindent config text fun _ hrole => Line.code?_of_ne hrole _]
  exact Layout.isChain_run config (Line.split text.toList) Layout.start

/-- **The line rule and the layout agree.** A line that is moved to its column has that column
again, whatever the unit. In a document that the layout has moved, every line that is no comment and
not blank has the column that it would be given below the nearest such line above it, and the first
one that which it would be given below an empty line. -/
theorem indentColumn_settles :
    (∀ (unit : Column) (current previous : List Char),
        indentColumn unit (spaces (indentColumn unit current previous) ++ trimStart current)
            previous
          = indentColumn unit current previous) ∧
      ∀ (config : IndentConfig) (text : String),
        ([] :: codeLines (reindent config text).toList).IsChain fun above line =>
          leadingWidth line = indentColumn config.unit line above :=
  ⟨indentColumn_moved, isChain_codeLines_reindent⟩

end MatlabEdit
