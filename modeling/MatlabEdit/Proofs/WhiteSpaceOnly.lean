import Mathlib.Data.List.Forall2
import MatlabEdit.Proofs.Margins

/-!
# Indentation moves white space only

Nothing of a text is lost. Each line leaves one piece of the result, and its role says
what that piece may be (`Line.Moved`): a line of a comment is kept, a blank line leaves
its ending, and of a line with a text on it only the white space around the text changes.

So a filter that drops this white space anyway finds the same in the result as in the
text (`filter_flatten`). One such filter looks for characters that are no white space,
and another for line feeds, of which no line has one before its ending.
-/

namespace MatlabEdit

/-- What a line may leave in the result. -/
inductive Line.Moved : Line × LineRole → List Char → Prop where
  | kept (line : Line) : Moved (line, .comment) line.chars
  | emptied {line : Line} : trim line.text = [] → Moved (line, .blank) line.ending.chars
  | moved (line : Line) (n : Nat) :
    Moved (line, .text) (List.replicate n ' ' ++ trim line.text ++ line.ending.chars)

/-- The characters of a text that are no white space. -/
def ink (text : List Char) : List Char := text.filter fun c => !isWhite c

/-- How a line ends, if it does and is no part of a comment. -/
def Line.outerEnding? : Line × LineRole → Option LineEnding
  | (line, role) => if role = .comment ∨ line.ending = .none then none else some line.ending

/-- The endings of the lines of a text outside its comments. -/
def outerEndings (text : List Char) : List LineEnding :=
  (Line.roles 0 (Line.split text)).filterMap Line.outerEnding?

/-! ## One line -/

namespace Line

variable {entry : Line × LineRole} {out : List Char} {p : Char → Bool}

theorem Moved.filter_eq (h : Moved entry out) (hspace : p ' ' = false)
    (hwhite : ∀ c ∈ entry.1.text, isWhite c = true → p c = false) :
    out.filter p = entry.1.chars.filter p := by
  have htrim : (trim entry.1.text).filter p = entry.1.text.filter p := filter_strip hwhite
  cases h with
  | kept line => rfl
  | @emptied line hblank =>
    rw [hblank] at htrim
    rw [chars, List.filter_append, ← htrim]
    rfl
  | moved line n =>
    have hfront : (List.replicate n ' ').filter p = [] := by simp [hspace]
    rw [chars, List.filter_append, List.filter_append, List.filter_append, hfront, htrim]
    rfl

/-- What the layout makes of a line. -/
theorem moved_place (layout : Layout) (config : IndentConfig) (line : Line) :
    Moved (line, line.role layout.depth) (layout.place config line).1.chars := by
  cases hrole : line.role layout.depth with
  | comment =>
    rw [Layout.place_of_comment hrole]
    exact .kept line
  | blank =>
    rw [Layout.place_of_blankLine hrole]
    exact .emptied (role_eq_blank_iff.mp hrole).2
  | text =>
    rw [Layout.place_of_textLine hrole]
    exact .moved line _

/-! ## All lines -/

theorem map_fst_roles (ls : List Line) (depth : Nat) : (roles depth ls).map Prod.fst = ls := by
  induction ls generalizing depth with
  | nil => rfl
  | cons line rest ih => rw [roles, List.map_cons, ih]

theorem moved_run (config : IndentConfig) (ls : List Line) : ∀ layout : Layout,
    List.Forall₂ Moved (roles layout.depth ls) ((layout.run config ls).1.map Piece.chars) := by
  induction ls with
  | nil => exact fun _ => .nil
  | cons line rest ih =>
    intro layout
    rw [Layout.run_cons, List.map_cons, roles, ← Layout.depth_place layout config line]
    exact .cons (moved_place layout config line) (ih _)

theorem filter_flatten {entries : List (Line × LineRole)} {outs : List (List Char)}
    (h : List.Forall₂ Moved entries outs) (hspace : p ' ' = false)
    (hwhite : ∀ entry ∈ entries, ∀ c ∈ entry.1.text, isWhite c = true → p c = false) :
    outs.flatten.filter p = ((entries.map Prod.fst).flatMap chars).filter p := by
  induction h with
  | nil => rfl
  | @cons entry out entries outs hentry _ ih =>
    have hhead := hentry.filter_eq hspace (hwhite entry List.mem_cons_self)
    have htail := ih fun e he => hwhite e (List.mem_cons_of_mem _ he)
    rw [List.flatten_cons, List.filter_append, hhead, htail, List.map_cons, List.flatMap_cons,
      List.filter_append]

theorem filter_moved {text : List Char} {outs : List (List Char)}
    (h : List.Forall₂ Moved (roles 0 (split text)) outs) (hspace : p ' ' = false)
    (hwhite : ∀ line ∈ split text, ∀ c ∈ line.text, isWhite c = true → p c = false) :
    outs.flatten.filter p = text.filter p := by
  rw [filter_flatten h hspace ?_, map_fst_roles, flatMap_chars_split]
  intro entry hentry
  have hmem := List.mem_map_of_mem (f := Prod.fst) hentry
  rw [map_fst_roles] at hmem
  exact hwhite entry.1 hmem

theorem outerEndings_run (config : IndentConfig) (ls : List Line) : ∀ layout : Layout,
    (roles layout.depth ((layout.run config ls).1.map Piece.line)).filterMap outerEnding?
      = (roles layout.depth ls).filterMap outerEnding? := by
  induction ls with
  | nil => exact fun _ => rfl
  | cons line rest ih =>
    intro layout
    have hhead : outerEnding? ((layout.place config line).1.line, line.role layout.depth)
        = outerEnding? (line, line.role layout.depth) := by
      rw [outerEnding?, outerEnding?, Layout.ending_place]
    rw [Layout.roles_run_cons, List.filterMap_cons, hhead, ih, Layout.depth_place, roles,
      List.filterMap_cons]

end Line

/-- **Indentation moves white space only.** Every line leaves one piece, in the order of the lines,
and the pieces make the result. So there are as many line feeds, the same endings outside comments,
and the same characters that are no white space. -/
theorem reindent_moves_white_space (config : IndentConfig) (text : String) :
    (∃ outs, List.Forall₂ Line.Moved (Line.roles 0 (Line.split text.toList)) outs ∧
        (reindent config text).toList = outs.flatten) ∧
      (reindent config text).toList.count '\n' = text.toList.count '\n' ∧
      outerEndings (reindent config text).toList = outerEndings text.toList ∧
      ink (reindent config text).toList = ink text.toList := by
  have hmoved : List.Forall₂ Line.Moved (Line.roles 0 (Line.split text.toList))
      ((layoutPieces config text.toList).map Piece.chars) := Line.moved_run config _ Layout.start
  have hout : (reindent config text).toList
      = ((layoutPieces config text.toList).map Piece.chars).flatten := by
    rw [reindent, String.toList_ofList, List.flatMap_def]
  refine ⟨⟨_, hmoved, hout⟩, ?_, ?_, ?_⟩
  · -- no line has a line feed before its ending
    rw [hout, List.count_eq_length_filter, List.count_eq_length_filter,
      Line.filter_moved hmoved (by decide)]
    intro line hline c hc _
    refine beq_eq_false_iff_ne.mpr ?_
    rintro rfl
    exact ((Line.cuts_split text.toList).cut line hline).noFeed hc
  · rw [outerEndings, filterMap_roles_reindent config text]
    · exact Line.outerEndings_run config _ Layout.start
    · intro role _
      exact if_pos (.inr rfl)
  · rw [hout]
    refine Line.filter_moved hmoved (by decide) ?_
    intro line _ c _ hwhite
    rw [hwhite]
    rfl

end MatlabEdit
