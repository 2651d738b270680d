import MatlabEdit.Proofs.Settled

/-!
# Seams

A text can be laid out in pieces where nothing that is known of the lines above a seam is seen
by the lines below it. What is known there is how many comments are open, and the last line
that was placed (`depth_run`, `previous_run`), and the lines below see no more of that line
than its column and whether it opens a block or a `switch`.

A new layout has no comment open, and above its first line there is an empty one, at the
left edge. So a layout passes for a new one if no comment is open and the last line stands
at the left edge and opens nothing (`EndsAtTop`). And every other layout can be told from a
new one: by a line with white space in front, by a text, or by a first `case`
(`looksFresh_iff`). So the pieces make the whole at these seams and at no others.
-/

namespace MatlabEdit

/-! ## What tells a layout from a new one -/

namespace Layout

variable {config : IndentConfig} {layout : Layout}

/-- No text can tell that it does not stand at the start of a document. -/
def LooksFresh (config : IndentConfig) (layout : Layout) : Prop :=
  ∀ text : List Char, (start.run config (Line.split text)).1.flatMap Piece.chars
    = (layout.run config (Line.split text)).1.flatMap Piece.chars

theorem flatMap_run_text {line : Line} (config : IndentConfig)
    (h : line.role layout.depth = .text) :
    (layout.run config [line]).1.flatMap Piece.chars
      = spaces (layout.columnFor config (trim line.text)) ++ trim line.text
        ++ line.ending.chars := by
  rw [run_cons, place_of_textLine h]
  exact List.append_nil _

/-- A text that is not pulled out stands where the line above leads to. -/
theorem columnFor_of_not_dedent {text : List Char} (hdedent : isDedentTrigger text = false) :
    layout.columnFor config text
      = if opensBlock layout.previous then Column.stepIn config.unit (leadingWidth layout.previous)
        else leadingWidth layout.previous := by
  have hcase : isBareCase text = false := Bool.eq_false_iff.mpr fun hbare => by
    rw [isDedentTrigger_of_isBareCase hbare] at hdedent
    cases hdedent
  have hend : isBareEnd text = false := Bool.eq_false_iff.mpr fun hbare => by
    rw [isDedentTrigger_of_isBareEnd hbare] at hdedent
    cases hdedent
  unfold columnFor indentColumn
  dsimp only
  rw [isBareCase_spaces_append, isBareEnd_spaces_append, isDedentTrigger_spaces_append, hcase, hend,
    hdedent]
  rfl

theorem toNat_stepIn_pos (config : IndentConfig) (column : Column) :
    0 < (Column.stepIn config.unit column).toNat := by
  have hunit := config.unit_pos
  have hsize : 1 < UInt32.size := by decide
  rw [Column.toNat_stepIn]
  omega

namespace LooksFresh

/-- A text of one line has the same column below either. -/
theorem columnFor_eq_zero (h : layout.LooksFresh config) (hdepth : layout.depth = 0)
    {text : List Char} (hsplit : Line.split text = [⟨text, .none⟩]) (htrim : trim text = text)
    (hrole : (⟨text, .none⟩ : Line).role 0 = .text) : layout.columnFor config text = 0 := by
  have htold := h text
  rw [hsplit, flatMap_run_text config hrole, flatMap_run_text config (by rw [hdepth]; exact hrole),
    htrim, columnFor_start config htrim, List.append_left_inj, List.append_left_inj] at htold
  have hlen := congrArg List.length htold
  rw [spaces, spaces, List.length_replicate, List.length_replicate] at hlen
  exact UInt32.toNat.inj hlen.symm

/-- An open comment is told by a line with white space in front. -/
theorem depth_eq_zero (h : layout.LooksFresh config) : layout.depth = 0 := by
  by_contra hdepth
  have htold := h [' ', 'x']
  have hsplit : Line.split [' ', 'x'] = [⟨[' ', 'x'], .none⟩] := by decide +kernel
  rw [hsplit, flatMap_run_text config (by decide), columnFor_start config (trim_trim _), run_cons,
    place_of_inComment (inComment_of_depth_pos (Nat.pos_of_ne_zero hdepth))] at htold
  have heq : ['x'] = [' ', 'x'] := htold
  exact absurd heq (by decide)

/-- The column of the line above and what it opens are told by a text and by a first `case`. -/
theorem resembles (h : layout.LooksFresh config) : start.Resembles layout := by
  have hdepth := h.depth_eq_zero
  have htext : layout.columnFor config ['x'] = 0 :=
    h.columnFor_eq_zero hdepth (by decide +kernel) rfl (by decide)
  have hcase : layout.columnFor config "case".toList = 0 :=
    h.columnFor_eq_zero hdepth (by decide +kernel) rfl (by decide)
  rw [columnFor_of_not_dedent (by decide)] at htext
  have hopens : opensBlock layout.previous = false := by
    refine Bool.eq_false_iff.mpr fun hopens => ?_
    have hpos := toNat_stepIn_pos config (leadingWidth layout.previous)
    rw [if_pos hopens] at htext
    rw [htext] at hpos
    exact absurd hpos (by decide)
  have hswitch : opensSwitch layout.previous = false := by
    refine Bool.eq_false_iff.mpr fun hswitch => ?_
    have hpos := toNat_stepIn_pos config (leadingWidth layout.previous)
    have hbare : isBareCase "case".toList = true := by decide
    unfold columnFor indentColumn at hcase
    dsimp only at hcase
    rw [isBareCase_spaces_append, hbare, hswitch, if_pos (by decide)] at hcase
    rw [hcase] at hpos
    exact absurd hpos (by decide)
  rw [hopens, if_neg Bool.false_ne_true] at htext
  exact ⟨hdepth, htext, hopens, hswitch⟩

end LooksFresh

theorem looksFresh_iff (config : IndentConfig) (layout : Layout) :
    layout.LooksFresh config ↔ start.Resembles layout :=
  ⟨LooksFresh.resembles, fun h text => by rw [h.run_eq config]⟩

end Layout

/-! ## Below some lines -/

namespace Layout

variable {config : IndentConfig}

theorem run_cons_snd (config : IndentConfig) (layout : Layout) (line : Line) (rest : List Line) :
    (layout.run config (line :: rest)).2 = ((layout.place config line).2.run config rest).2 := rfl

theorem depth_run (config : IndentConfig) (ls : List Line) : ∀ layout : Layout,
    (layout.run config ls).2.depth
      = ls.foldl (fun depth line => line.depthBelow depth) layout.depth := by
  induction ls with
  | nil => exact fun _ => rfl
  | cons line rest ih =>
    intro layout
    rw [run_cons_snd, ih, depth_place, List.foldl_cons]

/-- The last line that was placed is the last one of the result that is no comment and not blank. -/
theorem previous_run (config : IndentConfig) (ls : List Line) : ∀ layout : Layout,
    (layout.run config ls).2.previous
      = ((Line.roles layout.depth ((layout.run config ls).1.map Piece.line)).filterMap
          Line.code?).getLast?.getD layout.previous := by
  induction ls with
  | nil => exact fun _ => rfl
  | cons line rest ih =>
    intro layout
    have hbelow := ih (layout.place config line).2
    rw [run_cons_snd, roles_run_cons]
    by_cases hrole : line.role layout.depth = .text
    · rw [hrole, List.filterMap_cons_some (Line.code?_text _), List.getLast?_cons, Option.getD_some]
      rw [place_of_textLine hrole] at hbelow ⊢
      exact hbelow
    · rw [List.filterMap_cons_none (Line.code?_of_ne hrole _), ← previous_place_of_ne hrole]
      exact hbelow

end Layout

/-- How many block comments are open below a text. -/
def openComments (text : List Char) : Nat :=
  (Line.split text).foldl (fun depth line => line.depthBelow depth) 0

/-- Below the text a document could begin: no comment is open, and the last line of the result that
is no comment and not blank, if there is one, stands at the left edge and opens neither a block nor
a `switch`. -/
structure EndsAtTop (config : IndentConfig) (text : String) : Prop where
  closed : openComments text.toList = 0
  last : ∀ line, (codeLines (reindent config text).toList).getLast? = some line →
    leadingWidth line = 0 ∧ opensBlock line = false ∧ opensSwitch line = false

theorem endsAtTop_iff (config : IndentConfig) (text : String) :
    EndsAtTop config text ↔
      Layout.start.Resembles (Layout.start.run config (Line.split text.toList)).2 := by
  have hdepth := Layout.depth_run config (Line.split text.toList) Layout.start
  have hprevious := Layout.previous_run config (Line.split text.toList) Layout.start
  have hcode : codeLines (reindent config text).toList
      = (Line.roles 0 ((Layout.start.run config (Line.split text.toList)).1.map
          Piece.line)).filterMap Line.code? :=
    filterMap_roles_reindent config text fun _ hrole => Line.code?_of_ne hrole _
  rw [show Layout.start.depth = 0 from rfl, ← hcode] at hprevious
  constructor
  · rintro ⟨hclosed, hlast⟩
    cases hline : (codeLines (reindent config text).toList).getLast? with
    | none =>
      rw [hline, Option.getD_none] at hprevious
      exact ⟨hdepth.trans hclosed, by rw [hprevious], by rw [hprevious], by rw [hprevious]⟩
    | some line =>
      obtain ⟨hwidth, hopens, hswitch⟩ := hlast line hline
      rw [hline, Option.getD_some] at hprevious
      rw [← hprevious] at hwidth hopens hswitch
      exact ⟨hdepth.trans hclosed, hwidth, hopens, hswitch⟩
  · rintro ⟨hclosed, hwidth, hopens, hswitch⟩
    refine ⟨hdepth.symm.trans hclosed, fun line hline => ?_⟩
    rw [hline, Option.getD_some] at hprevious
    rw [hprevious] at hwidth hopens hswitch
    exact ⟨hwidth, hopens, hswitch⟩

/-! ## Texts -/

/-- Behind a line feed the lines begin anew. -/
theorem Line.split_append {front : List Char} (h : front = [] ∨ front.getLast? = some '\n')
    (back : List Char) : split (front ++ back) = split front ++ split back := by
  fun_induction split front with
  | case1 front hdrop hempty =>
    rw [List.isEmpty_iff.mp hempty]
    rfl
  | case2 front hdrop hne =>
    -- there is no line feed in a line without an ending
    have hlast := h.resolve_left fun hnil => hne (by rw [hnil]; rfl)
    have hmem := List.mem_of_getLast? hlast
    exact absurd (List.dropWhile_eq_nil_iff.mp hdrop _ hmem) (by decide)
  | case3 front c rest hdrop ih =>
    have hfront := takeWhile_append_lineFeed hdrop
    have hchars := chars_terminated (front.takeWhile (· != '\n'))
    have hwhole : (terminated (front.takeWhile (· != '\n'))).Whole :=
      (cut_terminated (lineFeed_notMem_takeWhile front)).whole (ending_terminated _)
    have hrest : rest = [] ∨ rest.getLast? = some '\n' := by
      cases rest with
      | nil => exact .inl rfl
      | cons d rest =>
        right
        rw [hfront] at h
        simpa using h
    conv => lhs; rw [hfront]
    rw [show front.takeWhile (· != '\n') ++ '\n' :: rest ++ back
        = (terminated (front.takeWhile (· != '\n'))).chars ++ (rest ++ back) by
      rw [hchars]; simp, split_chars_append hwhole, ih hrest, List.cons_append]

/-- The text above the seam is laid out as it is, and the text below it from what is known there. -/
theorem toList_reindent_append (config : IndentConfig) {front : String}
    (h : front = "" ∨ front.toList.getLast? = some '\n') (back : String) :
    (reindent config (front ++ back)).toList
      = (reindent config front).toList
        ++ ((Layout.start.run config (Line.split front.toList)).2.run config
          (Line.split back.toList)).1.flatMap Piece.chars := by
  have hlines : Line.split (front ++ back).toList
      = Line.split front.toList ++ Line.split back.toList := by
    rw [String.toList_append]
    refine Line.split_append (h.imp_left fun hempty => ?_) _
    rw [hempty]
    rfl
  rw [reindent, reindent, String.toList_ofList, String.toList_ofList, layoutPieces, hlines,
    Layout.run_append, List.flatMap_append]
  rfl

/-- **A text can be laid out in two pieces where nothing of the first is seen from the second**, and
nowhere else: at any other seam between two lines there are pieces that do not make the whole. -/
theorem reindent_append (config : IndentConfig) (front : String)
    (h : front = "" ∨ front.toList.getLast? = some '\n') :
    EndsAtTop config front ↔
      ∀ back, reindent config (front ++ back) = reindent config front ++ reindent config back := by
  rw [endsAtTop_iff, ← Layout.looksFresh_iff config]
  constructor
  · intro hfresh back
    rw [← String.toList_inj, String.toList_append, toList_reindent_append config h, ← hfresh]
    rw [reindent, reindent, String.toList_ofList, String.toList_ofList]
    rfl
  · intro happend text
    have hback := congrArg String.toList (happend (String.ofList text))
    rw [toList_reindent_append config h, String.toList_append, List.append_right_inj,
      String.toList_ofList, reindent, String.toList_ofList, String.toList_ofList] at hback
    exact hback.symm

/-- The seam is below a blank line and a comment, and the text below it begins with white space. -/
theorem reindent_append_comment :
    ("if x\n y\nend\n%\x7b\n %\x7b\n%\x7d\n%\x7d\n\t\n".toList.getLast? = some '\n') ∧
      EndsAtTop default "if x\n y\nend\n%\x7b\n %\x7b\n%\x7d\n%\x7d\n\t\n" ∧
      ∀ back, reindent default ("if x\n y\nend\n%\x7b\n %\x7b\n%\x7d\n%\x7d\n\t\n" ++ back)
        = "if x\n    y\nend\n%\x7b\n %\x7b\n%\x7d\n%\x7d\n\n" ++ reindent default back := by
  have hend : "if x\n y\nend\n%\x7b\n %\x7b\n%\x7d\n%\x7d\n\t\n".toList.getLast? = some '\n' := by
    decide +kernel
  have hcode : (codeLines (reindent default
      "if x\n y\nend\n%\x7b\n %\x7b\n%\x7d\n%\x7d\n\t\n").toList).getLast? = some "end".toList := by
    decide +kernel
  have htop : EndsAtTop default "if x\n y\nend\n%\x7b\n %\x7b\n%\x7d\n%\x7d\n\t\n" := by
    refine ⟨by decide +kernel, fun line hline => ?_⟩
    obtain rfl := Option.some.inj (hcode.symm.trans hline)
    decide +kernel
  have hfront : reindent default "if x\n y\nend\n%\x7b\n %\x7b\n%\x7d\n%\x7d\n\t\n"
      = "if x\n    y\nend\n%\x7b\n %\x7b\n%\x7d\n%\x7d\n\n" := by
    decide +kernel
  refine ⟨hend, htop, fun back => ?_⟩
  rw [← hfront]
  exact (reindent_append default _ (.inr hend)).mp htop back

end MatlabEdit
