import MatlabEdit.Proofs.LineRole
import MatlabEdit.Proofs.TameText
import MatlabEdit.Proofs.WellNested

/-!
# White space around the lines

Whether a line belongs to a comment, whether it is blank and where it is placed follows
from what a trim leaves of it and from what is known of the lines above. So other white
space around a line changes nothing, neither for the line nor below it
(`place_eq_of_respaced`), unless the line belongs to a comment and is kept as it is.

For texts that takes one more thing: the lines with their new margins must be the lines
that the new text is cut into. They are, but for a last line without an ending, which is
there only as long as there is white space on it (`exists_eq_split_append`), and which leaves
nothing in the result.

The result of an indentation is a text with other margins itself, whatever the unit, so
indenting it again with another unit comes to the same as using that unit from the start.
And what the layout does to its lines can be read off the result, cut into lines again
(`filterMap_roles_reindent`).
-/

namespace MatlabEdit

/-! ## The lines of a text -/

/-- A line as it is cut from a text: what belongs to its ending is not in its text. -/
structure Line.Cut (line : Line) : Prop where
  noFeed : '\n' ∉ line.text
  noReturn : line.ending = .lf → line.text.getLast? ≠ some '\r'

/-- The text is made of these lines. Whether an empty line follows the last line feed is left open.
-/
structure Line.Cuts (text : List Char) (ls : List Line) : Prop where
  flatMap_chars : ls.flatMap Line.chars = text
  cut : ∀ line ∈ ls, line.Cut
  ended : Line.Ended ls

namespace Line

theorem Cut.whole {line : Line} (h : line.Cut) (hending : line.ending ≠ .none) : line.Whole :=
  ⟨h.noFeed, hending, h.noReturn⟩

theorem cut_terminated {run : List Char} (hrun : '\n' ∉ run) : (terminated run).Cut := by
  unfold terminated
  split
  · exact ⟨fun h => hrun (List.dropLast_subset _ h), fun h => nomatch h⟩
  · rename_i hlast
    exact ⟨hrun, fun _ => hlast⟩

theorem cut_of_ending_none {text : List Char} (h : '\n' ∉ text) : (⟨text, .none⟩ : Line).Cut :=
  ⟨h, fun hending => nomatch hending⟩

/-- The lines that the indentation works on. -/
theorem cuts_split (text : List Char) : Cuts text (split text) := by
  refine ⟨flatMap_chars_split text, ?_, ?_⟩
  · fun_induction split text with
    | case1 => exact fun _ h => absurd h List.not_mem_nil
    | case2 text hdrop =>
      intro line hline
      rw [List.mem_singleton.mp hline]
      refine cut_of_ending_none fun hmem => ?_
      exact absurd (List.dropWhile_eq_nil_iff.mp hdrop _ hmem) (by decide)
    | case3 text c rest hdrop ih =>
      intro line hline
      rcases List.mem_cons.mp hline with rfl | hline
      · exact cut_terminated (lineFeed_notMem_takeWhile text)
      · exact ih line hline
  · fun_induction split text with
    | case1 => trivial
    | case2 => exact ⟨fun _ => rfl, trivial⟩
    | case3 text c rest hdrop ih => exact ⟨fun hnone => absurd hnone (ending_terminated _), ih⟩

end Line

/-- Cut again, a text may have lost an empty last line. -/
theorem Line.exists_eq_split_append {ls : List Line} (hcut : ∀ line ∈ ls, line.Cut)
    (hended : Line.Ended ls) :
    ∃ n, ls = Line.split (ls.flatMap Line.chars) ++ List.replicate n ⟨[], .none⟩ := by
  induction ls with
  | nil =>
    refine ⟨0, ?_⟩
    rw [List.flatMap_nil, Line.split]
    rfl
  | cons line rest ih =>
    have hline := hcut line List.mem_cons_self
    by_cases hending : line.ending = .none
    · -- the last line, which is cut off only if there is something on it
      obtain ⟨text, ending⟩ := line
      obtain rfl : ending = .none := hending
      obtain rfl := hended.1 rfl
      have hdrop : text.dropWhile (· != '\n') = [] :=
        List.dropWhile_eq_nil_iff.mpr fun c hc => bne_iff_ne.mpr fun heq => hline.noFeed (heq ▸ hc)
      have hchars : [(⟨text, .none⟩ : Line)].flatMap Line.chars = text := by
        simp [Line.chars, LineEnding.chars]
      rw [hchars, Line.split]
      split
      · cases text with
        | nil => exact ⟨1, rfl⟩
        | cons c text => exact ⟨0, rfl⟩
      · rename_i hcons
        rw [hdrop] at hcons
        cases hcons
    · obtain ⟨n, hrest⟩ := ih (fun l hl => hcut l (List.mem_cons_of_mem _ hl)) hended.2
      refine ⟨n, ?_⟩
      rw [List.flatMap_cons, Line.split_chars_append (hline.whole hending), List.cons_append,
        ← hrest]

/-- The layout prints nothing for a line on which there is nothing. -/
theorem Layout.flatMap_run_replicate (config : IndentConfig) (n : Nat) : ∀ layout : Layout,
    (layout.run config (List.replicate n ⟨[], .none⟩)).1.flatMap Piece.chars = [] := by
  induction n with
  | zero => exact fun _ => rfl
  | succ n ih =>
    intro layout
    rw [List.replicate_succ, run_cons, List.flatMap_cons, ih, List.append_nil]
    cases hin : layout.inComment ⟨[], .none⟩ with
    | true =>
      rw [place_of_inComment hin]
      rfl
    | false =>
      rw [place_of_blank hin rfl]
      rfl

theorem reindent_of_cuts (config : IndentConfig) {text : String} {ls : List Line}
    (h : Line.Cuts text.toList ls) :
    reindent config text
      = String.ofList ((Layout.start.run config ls).1.flatMap Piece.chars) := by
  obtain ⟨n, hls⟩ := Line.exists_eq_split_append h.cut h.ended
  rw [h.flatMap_chars] at hls
  rw [reindent, layoutPieces, hls, Layout.run_append, List.flatMap_append,
    Layout.flatMap_run_replicate, List.append_nil]

/-! ## Other margins -/

/-- The line with other white space around it. -/
def Line.Respaced (line line' : Line) : Prop :=
  ∃ front back, IsMargin front ∧ IsMargin back ∧
    line'.text = front ++ trim line.text ++ back ∧ line'.ending = line.ending

theorem isMargin_nil : IsMargin [] := by
  intro c hc
  cases hc

/-- The lines with other white space around some of them, but none that are kept as part of a
comment. -/
inductive Layout.Respaced (config : IndentConfig) : Layout → List Line → List Line → Prop where
  | nil (layout : Layout) : Respaced config layout [] []
  | same {layout : Layout} {line : Line} {rest rest' : List Line} :
      Respaced config (layout.place config line).2 rest rest' →
      Respaced config layout (line :: rest) (line :: rest')
  | other {layout : Layout} {line line' : Line} {rest rest' : List Line} :
      (layout.place config line).1 ≠ .verbatim line → line.Respaced line' →
      Respaced config (layout.place config line).2 rest rest' →
      Respaced config layout (line :: rest) (line' :: rest')

/-- The text with other white space around some of its lines. -/
def Respaced (config : IndentConfig) (text text' : String) : Prop :=
  ∃ ls ls', Line.Cuts text.toList ls ∧ Layout.start.Respaced config ls ls' ∧
    text'.toList = ls'.flatMap Line.chars

namespace Line.Respaced

variable {line line' : Line}

theorem trim_eq (h : line.Respaced line') : trim line'.text = trim line.text := by
  obtain ⟨front, back, hfront, hback, htext, _⟩ := h
  rw [htext, trim_margins hfront hback (Layout.trim_trim _)]

theorem ending_eq (h : line.Respaced line') : line'.ending = line.ending := by
  obtain ⟨_, _, _, _, _, hending⟩ := h
  exact hending

/-- The line is still one that a cut leaves as it is. -/
theorem cut (h : line.Respaced line') (hcut : line.Cut) : line'.Cut := by
  obtain ⟨front, back, hfront, hback, htext, _⟩ := h
  have hfeed : '\n' ∉ trim line.text := fun hmem => hcut.noFeed (mem_of_mem_strip hmem)
  obtain ⟨hnoFeed, hnoReturn⟩ := cut_margins hfront hback hfeed (Layout.trim_trim _)
  rw [← htext] at hnoFeed hnoReturn
  exact ⟨hnoFeed, fun _ => hnoReturn⟩

end Line.Respaced

namespace Layout

variable {config config' : IndentConfig} {layout layout' : Layout} {line line' : Line}
  {ls ls' : List Line}

theorem inComment_congr (hdepth : layout'.depth = layout.depth)
    (htrim : trim line'.text = trim line.text) :
    layout'.inComment line' = layout.inComment line := by
  unfold inComment blockDelimiter?
  rw [hdepth, htrim]

/-- **Other white space around a line changes nothing**, if the line is not kept as it is. -/
theorem place_eq_of_respaced (hnot : (layout.place config line).1 ≠ .verbatim line)
    (h : line.Respaced line') : layout.place config line' = layout.place config line := by
  have hin : layout.inComment line = false := by
    rwa [ne_eq, place_eq_verbatim_iff, Bool.not_eq_true] at hnot
  have hin' : layout.inComment line' = false := (inComment_congr rfl h.trim_eq).trans hin
  by_cases hblank : trim line.text = []
  · rw [place_of_blank hin hblank, place_of_blank hin' (h.trim_eq.trans hblank), h.ending_eq]
  · rw [place_of_text hin hblank, place_of_text hin' (by rwa [h.trim_eq]), h.trim_eq, h.ending_eq]

namespace Respaced

theorem run_eq (h : layout.Respaced config ls ls') :
    (layout.run config ls').1 = (layout.run config ls).1 := by
  induction h with
  | nil => rfl
  | same _ ih => rw [run_cons, run_cons, ih]
  | other hnot hline _ ih => rw [run_cons, run_cons, place_eq_of_respaced hnot hline, ih]

theorem cut (h : layout.Respaced config ls ls') (hcut : ∀ line ∈ ls, line.Cut) :
    ∀ line ∈ ls', line.Cut := by
  induction h with
  | nil => exact hcut
  | same _ ih =>
    intro line hline
    rcases List.mem_cons.mp hline with rfl | hline
    · exact hcut line List.mem_cons_self
    · exact ih (fun l hl => hcut l (List.mem_cons_of_mem _ hl)) line hline
  | other _ hother _ ih =>
    intro line hline
    rcases List.mem_cons.mp hline with rfl | hline
    · exact hother.cut (hcut _ List.mem_cons_self)
    · exact ih (fun l hl => hcut l (List.mem_cons_of_mem _ hl)) line hline

theorem eq_nil (h : layout.Respaced config [] ls') : ls' = [] := by
  cases h
  rfl

theorem ended (h : layout.Respaced config ls ls') (hended : Line.Ended ls) : Line.Ended ls' := by
  induction h with
  | nil => trivial
  | same htail ih =>
    refine ⟨fun hnone => ?_, ih hended.2⟩
    rw [hended.1 hnone] at htail
    exact htail.eq_nil
  | other _ hother htail ih =>
    refine ⟨fun hnone => ?_, ih hended.2⟩
    rw [hended.1 (hother.ending_eq.symm.trans hnone)] at htail
    exact htail.eq_nil

end Respaced

/-! ## The result has other margins -/

/-- How many comments are open does not depend on the unit, nor on the lines that were placed. -/
theorem depth_place_congr (hdepth : layout'.depth = layout.depth) :
    (layout'.place config' line).2.depth = (layout.place config line).2.depth := by
  rw [depth_place, depth_place, hdepth]

theorem isMargin_spaces (column : Column) : IsMargin (spaces column) := by
  intro c hc
  rw [(List.mem_replicate.mp hc).2]
  decide

theorem respaced_place (h : layout.inComment line = false) :
    line.Respaced (layout.place config line).1.line := by
  by_cases hblank : trim line.text = []
  · rw [place_of_blank h hblank]
    exact ⟨[], [], isMargin_nil, isMargin_nil, by rw [hblank]; rfl, rfl⟩
  · rw [place_of_text h hblank]
    exact ⟨_, [], isMargin_spaces _, isMargin_nil, (List.append_nil _).symm, rfl⟩

theorem respaced_run (config config' : IndentConfig) (ls : List Line) : ∀ {layout layout' : Layout},
    layout'.depth = layout.depth →
      layout.Respaced config ls ((layout'.run config' ls).1.map Piece.line) := by
  induction ls with
  | nil => exact fun {layout _} _ => .nil layout
  | cons line rest ih =>
    intro layout layout' hdepth
    have hin : layout'.inComment line = layout.inComment line := inComment_congr hdepth rfl
    have hbelow : (layout'.place config' line).2.depth = (layout.place config line).2.depth :=
      depth_place_congr hdepth
    have htail := ih hbelow
    rw [run_cons, List.map_cons]
    cases h : layout.inComment line with
    | true =>
      rw [place_of_inComment (hin.trans h)] at htail ⊢
      exact .same htail
    | false =>
      have hnot : (layout.place config line).1 ≠ .verbatim line := by
        rw [ne_eq, place_eq_verbatim_iff, h]
        decide
      exact .other hnot (respaced_place (hin.trans h)) htail

end Layout

/-! ## Reading the result -/

/-- What is read off lines is read off their text, if an empty last line says nothing. -/
theorem Line.filterMap_roles_split {α : Type} {ls : List Line} (hcut : ∀ line ∈ ls, line.Cut)
    (hended : Line.Ended ls) {f : Line × LineRole → Option α}
    (hf : ∀ role ≠ .text, f (⟨[], .none⟩, role) = none) (depth : Nat) :
    (roles depth (split (ls.flatMap chars))).filterMap f = (roles depth ls).filterMap f := by
  have hempty : ∀ n depth, (roles depth (List.replicate n ⟨[], .none⟩)).filterMap f = [] := by
    intro n
    induction n with
    | zero => exact fun _ => rfl
    | succ n ih =>
      intro depth
      have hrole : (⟨[], .none⟩ : Line).role depth ≠ .text := fun h => (role_eq_text_iff.mp h).2 rfl
      rw [List.replicate_succ, roles, List.filterMap_cons_none (hf _ hrole), ih]
  obtain ⟨n, hls⟩ := exists_eq_split_append hcut hended
  obtain ⟨below, hroles⟩ :=
    roles_append depth (split (ls.flatMap chars)) (List.replicate n ⟨[], .none⟩)
  rw [← hls] at hroles
  rw [hroles, List.filterMap_append, hempty, List.append_nil]

theorem filterMap_roles_reindent {α : Type} (config : IndentConfig) (text : String)
    {f : Line × LineRole → Option α} (hf : ∀ role ≠ .text, f (⟨[], .none⟩, role) = none) :
    (Line.roles 0 (Line.split (reindent config text).toList)).filterMap f
      = (Line.roles 0
          ((Layout.start.run config (Line.split text.toList)).1.map Piece.line)).filterMap f := by
  have hcuts := Line.cuts_split text.toList
  have hspaced : Layout.start.Respaced config (Line.split text.toList)
      ((Layout.start.run config (Line.split text.toList)).1.map Piece.line) :=
    Layout.respaced_run config config _ rfl
  rw [reindent_eq, String.toList_ofList]
  exact Line.filterMap_roles_split (hspaced.cut hcuts.cut) (hspaced.ended hcuts.ended) hf 0

/-! ## Texts -/

theorem reindent_eq_of_respaced {config : IndentConfig} {text text' : String}
    (h : Respaced config text text') : reindent config text' = reindent config text := by
  obtain ⟨ls, ls', hcuts, hls, htext⟩ := h
  have hcuts' : Line.Cuts text'.toList ls' := ⟨htext.symm, hls.cut hcuts.cut, hls.ended hcuts.ended⟩
  rw [reindent_of_cuts config hcuts, reindent_of_cuts config hcuts', hls.run_eq]

theorem respaced_reindent (config config' : IndentConfig) (text : String) :
    Respaced config text (reindent config' text) := by
  refine ⟨_, _, Line.cuts_split text.toList, Layout.respaced_run config config' _ rfl, ?_⟩
  rw [reindent_eq, String.toList_ofList]

/-- **Indentation forgets the white space that was around the lines.** So it makes no difference
whether the text was indented before, by the same unit or by another. -/
theorem reindent_forgets_margins (config : IndentConfig) (text : String) :
    (∀ text', Respaced config text text' → reindent config text' = reindent config text) ∧
      ∀ config', reindent config (reindent config' text) = reindent config text :=
  ⟨fun _ h => reindent_eq_of_respaced h,
    fun config' => reindent_eq_of_respaced (respaced_reindent config config' text)⟩

/-- A comment that is kept, a blank line, and a last line that is blank and without an ending. -/
theorem reindent_forgets_margins_mixed :
    Respaced default "  x\r\n%\x7b\n y\n%\x7d\n\t\n end\n  "
        "x \r\n%\x7b\n y\n%\x7d\n\n\u3000end\n" ∧
      reindent default "x \r\n%\x7b\n y\n%\x7d\n\n\u3000end\n"
        = reindent default "  x\r\n%\x7b\n y\n%\x7d\n\t\n end\n  " := by
  have hsplit : Line.split "  x\r\n%\x7b\n y\n%\x7d\n\t\n end\n  ".toList
      = [⟨"  x".toList, .crlf⟩, ⟨"%\x7b".toList, .lf⟩, ⟨" y".toList, .lf⟩, ⟨"%\x7d".toList, .lf⟩,
        ⟨"\t".toList, .lf⟩, ⟨" end".toList, .lf⟩, ⟨"  ".toList, .none⟩] := by
    decide +kernel
  have hx : Line.Respaced ⟨"  x".toList, .crlf⟩ ⟨"x ".toList, .crlf⟩ :=
    ⟨[], [' '], isMargin_nil, by decide, by decide +kernel, rfl⟩
  have hblank : Line.Respaced ⟨"\t".toList, .lf⟩ ⟨[], .lf⟩ :=
    ⟨[], [], isMargin_nil, isMargin_nil, by decide +kernel, rfl⟩
  have hend : Line.Respaced ⟨" end".toList, .lf⟩ ⟨"\u3000end".toList, .lf⟩ :=
    ⟨['\u3000'], [], by decide, isMargin_nil, by decide +kernel, rfl⟩
  have hlast : Line.Respaced ⟨"  ".toList, .none⟩ ⟨[], .none⟩ :=
    ⟨[], [], isMargin_nil, isMargin_nil, by decide +kernel, rfl⟩
  have h : Respaced default "  x\r\n%\x7b\n y\n%\x7d\n\t\n end\n  "
      "x \r\n%\x7b\n y\n%\x7d\n\n\u3000end\n" := by
    refine ⟨_, _, hsplit ▸ Line.cuts_split _, .other ?_ hx (.same (.same (.same (.other ?_ hblank
      (.other ?_ hend (.other ?_ hlast (.nil _))))))), ?_⟩ <;> decide +kernel
  exact ⟨h, (reindent_forgets_margins default _).1 _ h⟩

end MatlabEdit
