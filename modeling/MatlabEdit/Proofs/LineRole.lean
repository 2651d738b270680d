import MatlabEdit.Proofs.Place

/-!
# What a line is

A line belongs to a block comment, or it is blank, or there is a text on it. Which of
the three it is follows from the line and from the delimiters above it, so it can be
said without laying anything out (`Line.roles`), and the layout goes by it
(`place_of_comment`, `place_of_blankLine`, `place_of_textLine`).

Lines keep their roles in the result (`roles_run_cons`).
-/

namespace MatlabEdit

/-- What a line is to the indentation. -/
inductive LineRole where
  /-- It opens a block comment, or one is open above it. -/
  | comment
  /-- There is nothing on it but white space. -/
  | blank
  | text
deriving DecidableEq, Repr

namespace Line

/-- The role of a line below `depth` open block comments. -/
def role (depth : Nat) (line : Line) : LineRole :=
  if 0 < depth ∨ trim line.text = ['%', '{'] then .comment
  else if trim line.text = [] then .blank
  else .text

/-- How many block comments are open below the line. -/
def depthBelow (depth : Nat) (line : Line) : Nat :=
  if trim line.text = ['%', '{'] then depth + 1
  else if trim line.text = ['%', '}'] then depth - 1
  else depth

/-- Lines and their roles, below `depth` open block comments. -/
def roles (depth : Nat) : List Line → List (Line × LineRole)
  | [] => []
  | line :: rest => (line, line.role depth) :: roles (line.depthBelow depth) rest

variable {depth : Nat} {line line' : Line}

/-- The role is that of what a trim leaves. -/
theorem role_congr (h : trim line'.text = trim line.text) : line'.role depth = line.role depth := by
  rw [role, role, h]

theorem depthBelow_congr (h : trim line'.text = trim line.text) :
    line'.depthBelow depth = line.depthBelow depth := by
  rw [depthBelow, depthBelow, h]

theorem role_eq_comment_iff :
    line.role depth = .comment ↔ 0 < depth ∨ trim line.text = ['%', '{'] := by
  unfold role
  split_ifs <;> simp_all

theorem role_eq_blank_iff :
    line.role depth = .blank ↔ line.role depth ≠ .comment ∧ trim line.text = [] := by
  unfold role
  split_ifs <;> simp_all

theorem role_eq_text_iff :
    line.role depth = .text ↔ line.role depth ≠ .comment ∧ trim line.text ≠ [] := by
  unfold role
  split_ifs <;> simp_all

theorem roles_append (depth : Nat) (ls more : List Line) :
    ∃ below, roles depth (ls ++ more) = roles depth ls ++ roles below more := by
  induction ls generalizing depth with
  | nil => exact ⟨depth, rfl⟩
  | cons line rest ih =>
    obtain ⟨below, hrest⟩ := ih (line.depthBelow depth)
    exact ⟨below, congrArg _ hrest⟩

end Line

/-! ## The layout goes by the roles -/

namespace Layout

variable {config : IndentConfig} {layout : Layout} {line : Line}

theorem depthAfter_eq (depth : Nat) (line : Line) :
    depthAfter depth (blockDelimiter? line.text) = line.depthBelow depth := by
  unfold Line.depthBelow
  split_ifs with hopening hclosing
  · rw [blockDelimiter?_eq_opening_iff.mpr hopening, depthAfter]
  · rw [blockDelimiter?_eq_closing_iff.mpr hclosing, depthAfter]
  · cases hdelim : blockDelimiter? line.text with
    | none => rfl
    | some delim =>
      cases delim with
      | opening => exact absurd (blockDelimiter?_eq_opening_iff.mp hdelim) hopening
      | closing => exact absurd (blockDelimiter?_eq_closing_iff.mp hdelim) hclosing

theorem inComment_iff_role : layout.inComment line = true ↔ line.role layout.depth = .comment := by
  rw [Line.role_eq_comment_iff, ← blockDelimiter?_eq_opening_iff, inComment, Bool.or_eq_true,
    decide_eq_true_iff, beq_iff_eq]

theorem inComment_eq_false_iff_role :
    layout.inComment line = false ↔ line.role layout.depth ≠ .comment := by
  rw [← Bool.not_eq_true, inComment_iff_role]

theorem place_of_comment (h : line.role layout.depth = .comment) :
    layout.place config line
      = (.verbatim line, { layout with depth := line.depthBelow layout.depth }) := by
  rw [place_of_inComment (inComment_iff_role.mpr h), depthAfter_eq]

theorem place_of_blankLine (h : line.role layout.depth = .blank) :
    layout.place config line = (.blank line.ending, layout) := by
  obtain ⟨hrole, hblank⟩ := Line.role_eq_blank_iff.mp h
  exact place_of_blank (inComment_eq_false_iff_role.mpr hrole) hblank

/-- No comment is open around a line of text. -/
theorem depth_of_role_text (h : line.role layout.depth = .text) : layout.depth = 0 := by
  have hnot := (Line.role_eq_text_iff.mp h).1
  rw [ne_eq, Line.role_eq_comment_iff, not_or] at hnot
  omega

theorem place_of_textLine (h : line.role layout.depth = .text) :
    layout.place config line =
      (.placed (layout.columnFor config (trim line.text)) (trim line.text) line.ending,
        { layout with
          previous := spaces (layout.columnFor config (trim line.text)) ++ trim line.text }) := by
  obtain ⟨hrole, htext⟩ := Line.role_eq_text_iff.mp h
  exact place_of_text (inComment_eq_false_iff_role.mpr hrole) htext

/-- Only a line of text is looked at from below. -/
theorem previous_place_of_ne (h : line.role layout.depth ≠ .text) :
    (layout.place config line).2.previous = layout.previous := by
  cases hrole : line.role layout.depth with
  | comment => rw [place_of_comment hrole]
  | blank => rw [place_of_blankLine hrole]
  | text => exact absurd hrole h

/-- Below a line that is no comment none is open, for a stray closing delimiter closes nothing. -/
theorem depth_place (layout : Layout) (config : IndentConfig) (line : Line) :
    (layout.place config line).2.depth = line.depthBelow layout.depth := by
  cases h : layout.inComment line with
  | true => rw [place_of_comment (inComment_iff_role.mp h)]
  | false =>
    rw [depth_place_of_notComment h, ← depthAfter_eq]
    have hnot := inComment_eq_false_iff_role.mp h
    rw [ne_eq, Line.role_eq_comment_iff, not_or, Nat.not_lt, Nat.le_zero] at hnot
    obtain ⟨hdepth, hopening⟩ := hnot
    rw [hdepth]
    cases hdelim : blockDelimiter? line.text with
    | none => rfl
    | some delim =>
      cases delim with
      | opening => exact absurd (blockDelimiter?_eq_opening_iff.mp hdelim) hopening
      | closing => rfl

/-- The lines of the result have the roles of the old ones. -/
theorem roles_run_cons (layout : Layout) (config : IndentConfig) (line : Line) (rest : List Line) :
    Line.roles layout.depth ((layout.run config (line :: rest)).1.map Piece.line)
      = ((layout.place config line).1.line, line.role layout.depth)
        :: Line.roles (layout.place config line).2.depth
          (((layout.place config line).2.run config rest).1.map Piece.line) := by
  rw [run_cons, List.map_cons, Line.roles, Line.role_congr trim_place,
    Line.depthBelow_congr trim_place, depth_place]

end Layout

end MatlabEdit
