import MatlabEdit.Proofs.DocumentColumn

/-!
# The canonical layout

A well-nested program comes out as it ought to be, however it was typed
(`reindent_document`). The column of a line is computed from one line above it, so what has
to hold between two lines is a statement about that line (`Layout.Expects`): it stands one
level further out than the depth that is expected if it opens a block, and at that depth
if it does not. A header and a word lead from the first case to the second depth, an `end`
leads back, and a plain line keeps to its depth.

The depth times the unit must fit a column. Then no step into a block stops short at the
largest column, and the step out of it comes back to where the header stands.
-/

namespace MatlabEdit

/-- A level that is not deeper fits a column if the deeper one does. -/
theorem fits_of_le {d n m unit : Nat} (h : n ≤ m) (hfits : (d + m) * unit < UInt32.size) :
    (d + n) * unit < UInt32.size :=
  Nat.lt_of_le_of_lt (Nat.mul_le_mul_right unit (Nat.add_le_add_left h d)) hfits

/-! ## Lines and what they yield -/

/-- Where a line at depth `d` is expected, these lines come out as `out`, and a line at depth `d'`
is expected below them. -/
def Yields (config : IndentConfig) (d d' : Nat) (ls out : List Line) : Prop :=
  ∀ layout : Layout, layout.Expects config.unit.toNat d →
    (layout.run config ls).1.map Piece.line = out ∧
      (layout.run config ls).2.Expects config.unit.toNat d'

namespace Yields

variable {config : IndentConfig} {d d' d'' : Nat} {ls ls' out out' : List Line}

theorem nil : Yields config d d [] [] := fun _ h => ⟨rfl, h⟩

theorem append (h : Yields config d d' ls out) (h' : Yields config d' d'' ls' out') :
    Yields config d d'' (ls ++ ls') (out ++ out') := by
  intro layout hlayout
  obtain ⟨hout, hbelow⟩ := h layout hlayout
  obtain ⟨hout', hbelow'⟩ := h' _ hbelow
  rw [Layout.run_append, List.map_append, hout, hout']
  exact ⟨rfl, hbelow'⟩

theorem blank (spacing : Spacing) : Yields config d d [spacing.line []] [⟨[], spacing.ending⟩] := by
  intro layout hlayout
  have htrim : trim (spacing.line []).text = [] := spacing.trim_line rfl
  have hin : layout.inComment (spacing.line []) = false := by
    refine Bool.eq_false_iff.mpr fun hin => ?_
    have hdelim := blockDelimiter?_eq_opening_iff.mp
      ((Layout.inComment_iff_opening hlayout.depth_eq).mp hin)
    rw [htrim] at hdelim
    exact absurd hdelim (by decide)
  have hplace : layout.place config (spacing.line []) = (.blank spacing.ending, layout) :=
    Layout.place_of_blank hin htrim
  refine ⟨?_, ?_⟩
  · rw [Layout.run_cons, hplace]
    rfl
  · show (layout.place config (spacing.line [])).2.Expects _ _
    rw [hplace]
    exact hlayout

/-- A line of text is placed, and what is expected below it is counted from where it stands. -/
theorem row {text : List Char} {depth : Nat} (spacing : Spacing) (htrim : trim text = text)
    (hne : text ≠ []) (hdelim : text ≠ ['%', '\x7b'])
    (hcolumn : ∀ layout : Layout, layout.Expects config.unit.toNat d →
      (layout.columnFor config text).toNat = depth * config.unit.toNat)
    (hbelow : depth * config.unit.toNat + (if opensBlock text then config.unit.toNat else 0)
      = d' * config.unit.toNat) :
    Yields config d d' [spacing.line text]
      [canonicalLine config.unit.toNat depth text spacing.ending] := by
  intro layout hlayout
  have htext : trim (spacing.line text).text = text := spacing.trim_line htrim
  have hin : layout.inComment (spacing.line text) = false := by
    refine Bool.eq_false_iff.mpr fun hin => hdelim ?_
    rw [← htext]
    exact blockDelimiter?_eq_opening_iff.mp ((Layout.inComment_iff_opening hlayout.depth_eq).mp hin)
  have hplace : layout.place config (spacing.line text)
      = (.placed (layout.columnFor config text) text spacing.ending,
        { layout with previous := spaces (layout.columnFor config text) ++ text }) := by
    rw [Layout.place_of_text hin (by rwa [htext]), htext]
    rfl
  refine ⟨?_, ?_⟩
  · rw [Layout.run_cons, hplace]
    show [(⟨spaces (layout.columnFor config text) ++ text, spacing.ending⟩ : Line)] = _
    rw [spaces, hcolumn layout hlayout]
    rfl
  · show (layout.place config (spacing.line text)).2.Expects _ _
    rw [hplace]
    refine ⟨hlayout.depth_eq, ?_⟩
    show (leadingWidth (spaces _ ++ text)).toNat
      + (if opensBlock (spaces _ ++ text) then _ else 0) = _
    rw [leadingWidth_spaces_append (ends_of_trim htrim).1, opensBlock_spaces_append,
      hcolumn layout hlayout, hbelow]

/-- Where a line that is no first `case` stands. -/
theorem columnFor_of_expects {text : List Char} (htrim : trim text = text)
    (hcase : isBareCase text = false) (hfits : d * config.unit.toNat < UInt32.size)
    {layout : Layout} (h : layout.Expects config.unit.toNat d) :
    (layout.columnFor config text).toNat
      = (if isDedentTrigger text then d - 1 else d) * config.unit.toNat :=
  h.toNat_columnFor hfits htrim (by rw [hcase, Bool.false_and])

/-- A plain line and a header keep to the depth, and the header opens the next one. -/
theorem phrase {opens : Bool} (spacing : Spacing) (phrase : Phrase opens)
    (hfits : d * config.unit.toNat < UInt32.size)
    (hbelow : d * config.unit.toNat + (if opens then config.unit.toNat else 0)
      = d' * config.unit.toNat) :
    Yields config d d' [spacing.line phrase.text]
      [canonicalLine config.unit.toNat d phrase.text spacing.ending] := by
  have hcase : isBareCase phrase.text = false := Bool.eq_false_iff.mpr fun hbare =>
    absurd (isDedentTrigger_of_isBareCase hbare) (by rw [phrase.notDedent]; decide)
  refine row spacing phrase.content.trim_eq phrase.content.ne_nil phrase.content.notOpening ?_ ?_
  · intro layout h
    rw [columnFor_of_expects phrase.content.trim_eq hcase hfits h, phrase.notDedent]
    rfl
  · rwa [phrase.opensBlock_eq]

theorem plain (spacing : Spacing) (phrase : Phrase false)
    (hfits : d * config.unit.toNat < UInt32.size) :
    Yields config d d [spacing.line phrase.text]
      [canonicalLine config.unit.toNat d phrase.text spacing.ending] :=
  .phrase spacing phrase hfits (Nat.add_zero _)

theorem header (spacing : Spacing) (phrase : Phrase true)
    (hfits : d * config.unit.toNat < UInt32.size) :
    Yields config d (d + 1) [spacing.line phrase.text]
      [canonicalLine config.unit.toNat d phrase.text spacing.ending] :=
  .phrase spacing phrase hfits (Nat.succ_mul _ _).symm

/-- A word closes a body and opens another. -/
theorem word (spacing : Spacing) (word : BranchWord)
    (hfits : (d + 1) * config.unit.toNat < UInt32.size) :
    Yields config (d + 1) (d + 1) [spacing.line word.text]
      [canonicalLine config.unit.toNat d word.text spacing.ending] := by
  have htrim : trim word.text = word.text := by cases word <;> rfl
  have hne : word.text ≠ [] := by cases word <;> decide
  have hdelim : word.text ≠ ['%', '\x7b'] := by cases word <;> decide
  have hopens : opensBlock word.text = true := by cases word <;> decide
  have hdedent : isDedentTrigger word.text = true := by cases word <;> decide
  have hcase : isBareCase word.text = false := by cases word <;> decide
  refine row spacing htrim hne hdelim ?_ ?_
  · intro layout h
    rw [columnFor_of_expects htrim hcase hfits h, hdedent]
    rfl
  · rw [hopens, if_pos rfl, Nat.succ_mul]

theorem close (spacing : Spacing) (hfits : (d + 1) * config.unit.toNat < UInt32.size) :
    Yields config (d + 1) d [spacing.line endText]
      [canonicalLine config.unit.toNat d endText spacing.ending] := by
  have hopens : opensBlock endText = false := by decide
  have hdedent : isDedentTrigger endText = true := by decide
  refine row spacing rfl (by decide) (by decide) ?_ ?_
  · intro layout h
    rw [columnFor_of_expects rfl (by decide) hfits h, hdedent]
    rfl
  · rw [hopens]
    exact Nat.add_zero _

end Yields

/-! ## Comments are kept -/

/-- Below `layout` these lines are kept, and lead to `below`. -/
def Keeps (config : IndentConfig) (layout below : Layout) (ls : List Line) : Prop :=
  (layout.run config ls).1.map Piece.line = ls ∧ (layout.run config ls).2 = below

namespace Keeps

variable {config : IndentConfig} {layout below last : Layout} {ls ls' : List Line}

theorem append (h : Keeps config layout below ls) (h' : Keeps config below last ls') :
    Keeps config layout last (ls ++ ls') := by
  obtain ⟨hlines, hbelow⟩ := h
  obtain ⟨hlines', hlast⟩ := h'
  unfold Keeps
  rw [Layout.run_append, List.map_append, hlines, hbelow, hlines']
  exact ⟨rfl, hlast⟩

theorem line {line : Line} (h : layout.inComment line = true) :
    Keeps config layout
      { layout with depth := Layout.depthAfter layout.depth (blockDelimiter? line.text) }
      [line] := by
  unfold Keeps
  rw [Layout.run_cons]
  show [(layout.place config line).1.line] = _ ∧ (layout.place config line).2 = _
  rw [Layout.place_of_inComment h]
  exact ⟨rfl, rfl⟩

theorem opening (spacing : Spacing) {previous : List Char} {k : Nat} :
    Keeps config ⟨previous, k⟩ ⟨previous, k + 1⟩ [spacing.line ['%', '\x7b']] := by
  have hdelim : blockDelimiter? (spacing.line ['%', '\x7b']).text = some .opening :=
    blockDelimiter?_eq_opening_iff.mpr (spacing.trim_line rfl)
  have hin : (⟨previous, k⟩ : Layout).inComment (spacing.line ['%', '\x7b']) = true := by
    simp [Layout.inComment, hdelim]
  have h : Keeps config ⟨previous, k⟩ _ _ := line hin
  rwa [hdelim] at h

theorem closing (spacing : Spacing) {previous : List Char} {k : Nat} :
    Keeps config ⟨previous, k + 1⟩ ⟨previous, k⟩ [spacing.line ['%', '\x7d']] := by
  have hdelim : blockDelimiter? (spacing.line ['%', '\x7d']).text = some .closing :=
    blockDelimiter?_eq_closing_iff.mpr (spacing.trim_line rfl)
  have hin : (⟨previous, k + 1⟩ : Layout).inComment (spacing.line ['%', '\x7d']) = true :=
    Layout.inComment_of_depth_pos (Nat.succ_pos k)
  have h : Keeps config ⟨previous, k + 1⟩ _ _ := line hin
  rwa [hdelim] at h

theorem body {previous : List Char} (body : CommentBody) :
    ∀ k, Keeps config ⟨previous, k + 1⟩ ⟨previous, k + 1⟩ body.lines := by
  induction body with
  | nil => intro k; exact ⟨rfl, rfl⟩
  | line l rest ih =>
    intro k
    have h : Keeps config ⟨previous, k + 1⟩ _ [l.line] :=
      line (Layout.inComment_of_depth_pos (Nat.succ_pos k))
    rw [l.notDelimiter] at h
    exact h.append (ih k)
  | nested start inner stop rest ihInner ihRest =>
    intro k
    have hinner := (opening start).append (ihInner (k + 1))
    have hrest := (closing stop).append (ihRest k)
    exact hinner.append hrest

theorem comment {previous : List Char} (comment : Comment) :
    Keeps config ⟨previous, 0⟩ ⟨previous, 0⟩ comment.lines :=
  (opening comment.opening).append ((body comment.body 0).append (closing comment.closing))

end Keeps

theorem Yields.comment {config : IndentConfig} {d : Nat} (comment : Comment) :
    Yields config d d comment.lines comment.lines := by
  intro layout hlayout
  obtain ⟨previous, depth⟩ := layout
  obtain rfl : depth = 0 := hlayout.depth_eq
  obtain ⟨hlines, hbelow⟩ : Keeps config ⟨previous, 0⟩ ⟨previous, 0⟩ comment.lines :=
    .comment comment
  refine ⟨hlines, ?_⟩
  rw [hbelow]
  exact hlayout

/-! ## Programs -/

mutual

/-- By induction on the program. Below a header, its body is one level deeper, and the words and
the `end` come back from there. -/
theorem Program.yields (config : IndentConfig) : ∀ (program : Program) (d : Nat),
    (d + program.nesting) * config.unit.toNat < UInt32.size →
      Yields config d d program.lines (program.canonical config.unit.toNat d)
  | .nil, _, _ => .nil
  | .cons item rest, d, hfits => by
    have hitem := fits_of_le (Nat.le_max_left item.nesting rest.nesting) hfits
    have hrest := fits_of_le (Nat.le_max_right item.nesting rest.nesting) hfits
    exact (item.yields config d hitem).append (rest.yields config d hrest)

theorem Item.yields (config : IndentConfig) : ∀ (item : Item) (d : Nat),
    (d + item.nesting) * config.unit.toNat < UInt32.size →
      Yields config d d item.lines (item.canonical config.unit.toNat d)
  | .plain spacing phrase, _, hfits => .plain spacing phrase hfits
  | .blank spacing, _, _ => .blank spacing
  | .comment comment, _, _ => .comment comment
  | .block spacing header body branches, d, hfits => by
    have hdeeper :
        (d + 1 + max body.nesting branches.nesting) * config.unit.toNat < UInt32.size := by
      rwa [Nat.add_right_comm]
    have hheader := fits_of_le (Nat.zero_le _) hfits
    have hbody := fits_of_le (Nat.le_max_left body.nesting branches.nesting) hdeeper
    have hbranches := fits_of_le (Nat.le_max_right body.nesting branches.nesting) hdeeper
    -- the body stays one level in, and the branches come back out
    have hinner := (body.yields config (d + 1) hbody).append (branches.yields config d hbranches)
    exact (Yields.header spacing header hheader).append hinner

theorem Branches.yields (config : IndentConfig) : ∀ (branches : Branches) (d : Nat),
    (d + 1 + branches.nesting) * config.unit.toNat < UInt32.size →
      Yields config (d + 1) d branches.lines (branches.canonical config.unit.toNat d)
  | .close spacing, _, hfits => .close spacing hfits
  | .branch spacing word body rest, d, hfits => by
    have hword := fits_of_le (Nat.zero_le _) hfits
    have hbody := fits_of_le (Nat.le_max_left body.nesting rest.nesting) hfits
    have hrest := fits_of_le (Nat.le_max_right body.nesting rest.nesting) hfits
    have hinner := (body.yields config (d + 1) hbody).append (rest.yields config d hrest)
    exact (Yields.word spacing word hword).append hinner

end

/-- **Every well-nested program comes out as it ought to be**, if its deepest level fits a
column. -/
theorem reindent_document (config : IndentConfig) (program : Program)
    (hfits : program.nesting * config.unit.toNat < UInt32.size) :
    reindent config (document program.lines)
      = document (program.canonical config.unit.toNat 0) := by
  have hyields := program.yields config 0 (by rwa [Nat.zero_add])
  obtain ⟨hlines, _⟩ := hyields Layout.start (Layout.expects_start _)
  rw [reindent_eq, document, String.toList_ofList, Line.split_flatMap_chars program.whole_lines,
    hlines, document]

/-- A condition with a comment in its first body and nothing in its second. -/
def sampleProgram : Program :=
  let tab : Spacing := ⟨['\t'], [' '], .crlf, by decide, by decide, by decide⟩
  let bare : Spacing := ⟨[], [], .lf, by decide, by decide, by decide⟩
  .cons (.block tab ⟨"if x".toList, by decide, by decide, by decide⟩
      (.cons (.comment ⟨tab, .nil, bare⟩)
        (.cons (.plain bare ⟨"y = 1".toList, by decide, by decide, by decide⟩) .nil))
      (.branch bare .onElse .nil (.close tab)))
    (.cons (.blank tab) .nil)

theorem reindent_document_sample :
    sampleProgram.nesting * (default : IndentConfig).unit.toNat < UInt32.size ∧
      document sampleProgram.lines
        = "\tif x \r\n\t%\x7b \r\n%\x7d\ny = 1\nelse\n\tend \r\n\t \r\n" ∧
      reindent default (document sampleProgram.lines)
        = "if x\r\n\t%\x7b \r\n%\x7d\n    y = 1\nelse\nend\r\n\r\n" :=
  ⟨by decide +kernel, by decide +kernel,
    (reindent_document default sampleProgram (by decide +kernel)).trans (by decide +kernel)⟩

end MatlabEdit
