import MatlabEdit.Proofs.TameText

/-!
# Which lines belong to block comments

The scanner finds block comments byte by byte, and the indentation finds them line by
line, with a count of its own. On a tame text the two agree: a line is kept as it
stands exactly when one of its bytes lies in the span of a block comment
(`verbatim_iff_overlaps`).

Between two lines the two accounts are tied by `Mode.Matches`. The scanner's depth is
the count, and an open comment started no later than the next line does.
-/

namespace MatlabEdit

open Outline

def ByteRange.Overlaps (a b : ByteRange) : Prop := ∃ i, a.Holds i ∧ b.Holds i

/-- The bytes of the `i`-th line of a document, with those of its ending. -/
def Line.range (ls : List Line) (i : Nat) : ByteRange :=
  ⟨(encode ((ls.take i).flatMap Line.chars)).length,
    (encode ((ls.take (i + 1)).flatMap Line.chars)).length⟩

theorem Line.chars_ne_nil_of_mem_split {text : List Char} {line : Line}
    (h : line ∈ Line.split text) : line.chars ≠ [] := by
  fun_induction Line.split text with
  | case1 => exact absurd h List.not_mem_nil
  | case2 text _ hne =>
    rw [List.mem_singleton.mp h]
    intro heq
    rw [Line.chars, List.append_eq_nil_iff] at heq
    exact hne (List.isEmpty_iff.mpr heq.1)
  | case3 text c rest _ ih =>
    rcases List.mem_cons.mp h with rfl | h
    · rw [Line.chars_terminated]
      exact List.append_ne_nil_of_right_ne_nil _ (List.cons_ne_nil _ _)
    · exact ih h

theorem length_encode_pos {l : List Char} (h : l ≠ []) : 0 < (encode l).length := by
  obtain ⟨c, l, rfl⟩ := List.exists_cons_of_ne_nil h
  rw [encode_cons, List.length_append]
  have := List.length_pos_iff.mpr (String.utf8EncodeChar_ne_nil (c := c))
  omega

theorem Line.length_text_le (line : Line) :
    (encode line.text).length ≤ (encode line.chars).length := by
  rw [Line.chars, encode_append, List.length_append]
  exact Nat.le_add_right _ _

/-- A document ends where the lines behind its first one end. -/
theorem Line.add_length_cons (start : Nat) (line : Line) (rest : List Line) :
    start + (encode ((line :: rest).flatMap Line.chars)).length
      = start + (encode line.chars).length + (encode (rest.flatMap Line.chars)).length := by
  rw [List.flatMap_cons, encode_append, List.length_append, Nat.add_assoc]

/-! ## Where the spans of a line lie -/

namespace Outline

theorem indent_add_two_le_of_closing {line : List UInt8} (h : Byte.trim line = closing) :
    Byte.indent line + 2 ≤ line.length := OpenBlock.indent_add_two_le h

/-- No open comment started before `floor`. -/
def Mode.From (floor : Nat) : Mode → Prop
  | .outside _ => True
  | .inside opener _ => floor ≤ opener

theorem Mode.from_zero (mode : Mode) : mode.From 0 := by
  cases mode with
  | outside _ => trivial
  | inside opener _ => exact Nat.zero_le opener

theorem readOutside_bounds (onlyMagics : Bool) (start : Nat) (line : List UInt8) :
    (∀ span ∈ (readOutside onlyMagics start line).1,
        span.kind ≠ .blockComment ∧ start ≤ span.start ∧ span.stop ≤ start + line.length) ∧
      (readOutside onlyMagics start line).2.From start := by
  have hindent := Byte.indent_le line
  have hsign : (line.takeWhile (· != Byte.percent)).length ≤ line.length :=
    (List.takeWhile_sublist _).length_le
  unfold readOutside
  dsimp only
  split_ifs with hnil hopening hpercent hmagic hcomment
  · exact ⟨by simp, trivial⟩
  · exact ⟨by simp, Nat.le_add_right _ _⟩
  · refine ⟨fun span hspan => ?_, trivial⟩
    rw [List.mem_singleton.mp hspan]
    exact ⟨nofun, Nat.le_add_right _ _, Nat.le_refl _⟩
  · refine ⟨fun span hspan => ?_, trivial⟩
    rw [List.mem_singleton.mp hspan]
    exact ⟨nofun, Nat.le_add_right _ _, Nat.le_refl _⟩
  · refine ⟨fun span hspan => ?_, trivial⟩
    rcases List.mem_cons.mp hspan with rfl | hspan
    · exact ⟨nofun, Nat.le_add_right _ _, Nat.add_le_add_left hsign _⟩
    · rw [List.mem_singleton.mp hspan]
      exact ⟨nofun, Nat.le_add_right _ _, Nat.le_refl _⟩
  · refine ⟨fun span hspan => ?_, trivial⟩
    rw [List.mem_singleton.mp hspan]
    exact ⟨nofun, Nat.le_add_right _ _, Nat.add_le_add_left hsign _⟩

theorem readInside_bounds {floor opener : Nat} (h : floor ≤ opener) (depth start : Nat)
    (line : List UInt8) :
    (∀ span ∈ (readInside opener depth start line).1,
        floor ≤ span.start ∧ span.stop ≤ start + line.length) ∧
      (readInside opener depth start line).2.From floor := by
  unfold readInside
  dsimp only
  split_ifs with hopening hclosing hone
  · exact ⟨by simp, h⟩
  · refine ⟨fun span hspan => ?_, trivial⟩
    have := indent_add_two_le_of_closing hclosing
    rw [List.mem_singleton.mp hspan]
    exact ⟨h, show start + Byte.indent line + 2 ≤ start + line.length by omega⟩
  · exact ⟨by simp, h⟩
  · exact ⟨by simp, h⟩

/-- The spans of a line end on it, and none starts before the line or the comment that is open. -/
theorem readLine_bounds {mode : Mode} {floor start : Nat} (hmode : mode.From floor)
    (hle : floor ≤ start) (line : List UInt8) :
    (∀ span ∈ (readLine mode start line).1,
        floor ≤ span.start ∧ span.stop ≤ start + line.length) ∧
      (readLine mode start line).2.From floor := by
  cases mode with
  | inside opener depth => exact readInside_bounds hmode depth start line
  | outside onlyMagics =>
    obtain ⟨hspans, hfrom⟩ := readOutside_bounds onlyMagics start line
    refine ⟨fun span hspan => ?_, ?_⟩
    · obtain ⟨_, hstart, hstop⟩ := hspans span hspan
      exact ⟨Nat.le_trans hle hstart, hstop⟩
    · show (readOutside onlyMagics start line).2.From floor
      cases hmode' : (readOutside onlyMagics start line).2 with
      | outside _ => trivial
      | inside opener _ =>
        rw [hmode'] at hfrom
        exact Nat.le_trans hle hfrom

theorem start_le_of_mem_readLines {size floor : Nat} {span : Span} {ls : List Line} :
    ∀ {mode start}, mode.From floor → floor ≤ start → floor ≤ size →
      span ∈ readLines size mode start ls → floor ≤ span.start := by
  induction ls with
  | nil =>
    intro mode start hmode _ hsize hspan
    cases mode with
    | outside _ => exact absurd hspan List.not_mem_nil
    | inside opener depth =>
      rw [List.mem_singleton.mp hspan]
      exact hmode
  | cons line rest ih =>
    intro mode start hmode hle hsize hspan
    obtain ⟨hspans, hnext⟩ := readLine_bounds hmode hle (encode line.text)
    rcases List.mem_append.mp hspan with hspan | hspan
    · exact (hspans span hspan).1
    · exact ih hnext (Nat.le_add_right_of_le hle) hsize hspan

end Outline

/-! ## One line in both accounts -/

/-- The scanner and the count of open comments between two lines, where the next one starts at
`start`. -/
def Outline.Mode.Matches (depth start : Nat) : Mode → Prop
  | .outside _ => depth = 0
  | .inside opener k => k = depth ∧ 0 < k ∧ opener ≤ start

namespace Outline

theorem readOutside_mode_of_ne (onlyMagics : Bool) (start : Nat) {line : List UInt8}
    (h : Byte.trim line ≠ opening) :
    ∃ onlyMagics', (readOutside onlyMagics start line).2 = .outside onlyMagics' := by
  unfold readOutside
  dsimp only
  rw [if_neg h]
  split_ifs
  · exact ⟨_, rfl⟩
  · exact ⟨_, rfl⟩
  · exact ⟨_, rfl⟩
  · exact ⟨_, rfl⟩
  · exact ⟨_, rfl⟩

theorem readOutside_of_opening {onlyMagics : Bool} {start : Nat} {line : List UInt8}
    (h : Byte.trim line = opening) :
    readOutside onlyMagics start line = ([], .inside (start + Byte.indent line) 1) := by
  unfold readOutside
  dsimp only
  rw [if_neg (by rw [h]; decide), if_pos h]

variable {mode : Mode} {start : Nat} {config : IndentConfig} {layout : Layout} {line : Line}

/-- **One line keeps the two accounts together.** -/
theorem Mode.Matches.step (h : mode.Matches layout.depth start) (htame : line.Tame)
    (config : IndentConfig) :
    (readLine mode start (encode line.text)).2.Matches (layout.place config line).2.depth
      (start + (encode line.chars).length) := by
  have hlen := line.length_text_le
  have hopening := htame.trim_encode_eq_opening_iff
  have hclosing := htame.trim_encode_eq_closing_iff
  cases mode with
  | outside onlyMagics =>
    have hdepth : layout.depth = 0 := h
    show (readOutside onlyMagics start (encode line.text)).2.Matches _ _
    -- only an opening delimiter changes anything outside
    by_cases hopen : blockDelimiter? line.text = some .opening
    · have hindent := Byte.indent_le (encode line.text)
      rw [readOutside_of_opening (hopening.mpr hopen),
        Layout.place_of_inComment ((Layout.inComment_iff_opening hdepth).mpr hopen), hopen]
      exact ⟨by rw [hdepth]; rfl, Nat.one_pos, by omega⟩
    · obtain ⟨onlyMagics', hmode⟩ := readOutside_mode_of_ne onlyMagics start
        (fun heq => hopen (hopening.mp heq))
      have hnot := Bool.eq_false_iff.mpr fun hin =>
        hopen ((Layout.inComment_iff_opening hdepth).mp hin)
      rw [hmode, Layout.depth_place_of_notComment hnot]
      exact hdepth
  | inside opener k =>
    obtain ⟨rfl, hpos, hopener⟩ := h
    rw [Layout.place_of_inComment (Layout.inComment_of_depth_pos hpos)]
    have hlater : opener ≤ start + (encode line.chars).length := Nat.le_add_right_of_le hopener
    show (readInside opener layout.depth start (encode line.text)).2.Matches
      (Layout.depthAfter layout.depth (blockDelimiter? line.text)) _
    unfold readInside
    dsimp only
    -- inside, both count delimiters, and at the last closing one both are outside
    split_ifs with hopen hclose hone
    · rw [hopening.mp hopen]
      exact ⟨rfl, Nat.succ_pos _, hlater⟩
    · rw [hclosing.mp hclose, hone]
      rfl
    · rw [hclosing.mp hclose]
      exact ⟨rfl, by omega, hlater⟩
    · cases hdelim : blockDelimiter? line.text with
      | none => exact ⟨rfl, hpos, hlater⟩
      | some delimiter =>
        cases delimiter with
        | opening => exact absurd (hopening.mpr hdelim) hopen
        | closing => exact absurd (hclosing.mpr hdelim) hclose

/-- A comment that is open gets its span, which goes beyond the start of the next line. -/
theorem exists_block {ls : List Line} (hne : ∀ line ∈ ls, line.chars ≠ []) :
    ∀ {size start} (opener k), size = start + (encode (ls.flatMap Line.chars)).length →
      ∃ span ∈ readLines size (.inside opener k) start ls,
        span.kind = .blockComment ∧ span.start = opener ∧ start ≤ span.stop ∧
          (ls ≠ [] → start < span.stop) := by
  induction ls with
  | nil =>
    intro size start opener k hsize
    have hstart : start ≤ size := hsize ▸ Nat.le_add_right _ _
    exact ⟨⟨⟨opener, size⟩, .blockComment⟩, List.mem_singleton_self _, rfl, rfl, hstart,
      fun h => absurd rfl h⟩
  | cons line rest ih =>
    intro size start opener k hsize
    have hpos := length_encode_pos (hne line List.mem_cons_self)
    rw [Line.add_length_cons] at hsize
    -- the comment ends on this line, or it goes on to the next
    by_cases hclosed : Byte.trim (encode line.text) = closing ∧ k = 1
    · refine ⟨⟨⟨opener, start + Byte.indent (encode line.text) + 2⟩, .blockComment⟩, ?_, rfl, rfl,
        by dsimp only; omega, fun _ => by dsimp only; omega⟩
      refine List.mem_append_left _ ?_
      rw [readLine, readInside, hclosed.1, hclosed.2]
      exact List.mem_singleton_self _
    · obtain ⟨k', hk'⟩ : ∃ k', readLine (.inside opener k) start (encode line.text)
          = ([], .inside opener k') := by
        rw [readLine, readInside]
        split_ifs with hopen hclose hone
        · exact ⟨_, rfl⟩
        · exact absurd ⟨hclose, hone⟩ hclosed
        · exact ⟨_, rfl⟩
        · exact ⟨_, rfl⟩
      obtain ⟨span, hspan, hkind, hstart, hstop, _⟩ :=
        ih (fun l hl => hne l (List.mem_cons_of_mem _ hl)) opener k' hsize
      refine ⟨span, ?_, hkind, hstart, by omega, fun _ => by omega⟩
      rw [readLines, hk']
      exact hspan

end Outline

/-! ## All lines -/

/-- The range of a line in a document that starts at `start`. -/
def Line.rangeFrom (start : Nat) (ls : List Line) (i : Nat) : ByteRange :=
  ⟨start + (Line.range ls i).start, start + (Line.range ls i).stop⟩

theorem Line.rangeFrom_zero (start : Nat) (line : Line) (rest : List Line) :
    Line.rangeFrom start (line :: rest) 0 = ⟨start, start + (encode line.chars).length⟩ := by
  simp [rangeFrom, range, encode]

theorem Line.rangeFrom_succ (start : Nat) (line : Line) (rest : List Line) (i : Nat) :
    Line.rangeFrom start (line :: rest) (i + 1)
      = Line.rangeFrom (start + (encode line.chars).length) rest i := by
  simp [rangeFrom, range, encode, Nat.add_assoc]

theorem Line.start_le_rangeFrom (start : Nat) (ls : List Line) (i : Nat) :
    start ≤ (Line.rangeFrom start ls i).start := Nat.le_add_right _ _

namespace Outline

variable {mode : Mode} {start size : Nat} {layout : Layout} {line : Line} {rest : List Line}

/-- An open comment covers the first byte of the next line. -/
theorem overlaps_head_of_inside {opener k : Nat} (hopener : opener ≤ start)
    (hne : ∀ l ∈ line :: rest, l.chars ≠ [])
    (hsize : size = start + (encode ((line :: rest).flatMap Line.chars)).length) :
    ∃ span ∈ readLines size (.inside opener k) start (line :: rest),
      span.kind = .blockComment ∧ span.Overlaps ⟨start, start + (encode line.chars).length⟩ := by
  have hpos := length_encode_pos (hne line List.mem_cons_self)
  obtain ⟨span, hspan, hkind, hstart, _, hstop⟩ := exists_block hne opener k hsize
  have hlt := hstop (List.cons_ne_nil _ _)
  exact ⟨span, hspan, hkind, start, ⟨by omega, hlt⟩, Nat.le_refl _, Nat.lt_add_of_pos_right hpos⟩

/-- A line that opens a comment holds its first byte. -/
theorem overlaps_head_of_opening {onlyMagics : Bool}
    (hopen : Byte.trim (encode line.text) = opening) (hne : ∀ l ∈ rest, l.chars ≠ [])
    (hsize : size
      = start + (encode line.chars).length + (encode (rest.flatMap Line.chars)).length) :
    ∃ span ∈ readLines size (.outside onlyMagics) start (line :: rest),
      span.kind = .blockComment ∧ span.Overlaps ⟨start, start + (encode line.chars).length⟩ := by
  have hread : readLine (.outside onlyMagics) start (encode line.text)
      = ([], .inside (start + Byte.indent (encode line.text)) 1) := readOutside_of_opening hopen
  have hfits : Byte.indent (encode line.text) + 2 ≤ (encode line.text).length :=
    OpenBlock.indent_add_two_le hopen
  have hlen := line.length_text_le
  obtain ⟨span, hspan, hkind, hstart, hstop, _⟩ :=
    exists_block hne (start + Byte.indent (encode line.text)) 1 hsize
  rw [readLines, hread]
  refine ⟨span, hspan, hkind, start + Byte.indent (encode line.text), ⟨by omega, by omega⟩, ?_⟩
  exact ⟨Nat.le_add_right _ _, by dsimp only; omega⟩

/-- Any other line outside comments meets none, since nothing is open behind it. -/
theorem opening_of_overlaps_head {onlyMagics : Bool} {span : Span}
    (hsize : size = start + (encode line.chars).length + (encode (rest.flatMap Line.chars)).length)
    (hspan : span ∈ readLines size (.outside onlyMagics) start (line :: rest))
    (hkind : span.kind = .blockComment)
    (hover : span.Overlaps ⟨start, start + (encode line.chars).length⟩) :
    Byte.trim (encode line.text) = opening := by
  by_contra hne
  obtain ⟨i, hi, _, hhi⟩ := hover
  obtain ⟨onlyMagics', hmode⟩ := readOutside_mode_of_ne onlyMagics start hne
  have hread : (readLine (.outside onlyMagics) start (encode line.text)).2 = .outside onlyMagics' :=
    hmode
  rcases List.mem_append.mp hspan with hspan | hspan
  · exact ((readOutside_bounds onlyMagics start _).1 span hspan).1 hkind
  · -- the span starts on a later line
    rw [hread] at hspan
    have hfrom : Mode.From (start + (encode line.chars).length) (.outside onlyMagics') := trivial
    have hlater := start_le_of_mem_readLines hfrom (Nat.le_refl _)
      (hsize ▸ Nat.le_add_right _ _) hspan
    have hlow := hi.1
    dsimp only at hhi
    omega

/-- The first line belongs to a comment in both accounts or in neither. -/
theorem overlaps_head_iff (h : mode.Matches layout.depth start) (htame : line.Tame)
    (hne : ∀ l ∈ line :: rest, l.chars ≠ [])
    (hsize : size = start + (encode ((line :: rest).flatMap Line.chars)).length) :
    (∃ span ∈ readLines size mode start (line :: rest),
        span.kind = .blockComment ∧
          span.Overlaps ⟨start, start + (encode line.chars).length⟩) ↔
      layout.inComment line = true := by
  cases mode with
  | inside opener k =>
    obtain ⟨rfl, hk, hopener⟩ := h
    exact iff_of_true (overlaps_head_of_inside hopener hne hsize)
      (Layout.inComment_of_depth_pos hk)
  | outside onlyMagics =>
    rw [Line.add_length_cons] at hsize
    rw [Layout.inComment_iff_opening h, ← htame.trim_encode_eq_opening_iff]
    constructor
    · rintro ⟨span, hspan, hkind, hover⟩
      exact opening_of_overlaps_head hsize hspan hkind hover
    · intro hopen
      exact overlaps_head_of_opening hopen (fun l hl => hne l (List.mem_cons_of_mem _ hl)) hsize

/-- The spans of a line are over before the lines below it. -/
theorem overlaps_cons_iff {r : ByteRange} (hr : start + (encode line.chars).length ≤ r.start) :
    (∃ span ∈ readLines size mode start (line :: rest),
        span.kind = .blockComment ∧ span.Overlaps r) ↔
      ∃ span ∈ readLines size (readLine mode start (encode line.text)).2
          (start + (encode line.chars).length) rest,
        span.kind = .blockComment ∧ span.Overlaps r := by
  constructor
  · rintro ⟨span, hspan, hkind, i, hi, hlo, hhi⟩
    rcases List.mem_append.mp hspan with hspan | hspan
    · have hstop := ((readLine_bounds mode.from_zero (Nat.zero_le start) (encode line.text)).1
        span hspan).2
      have hlen := line.length_text_le
      have hlt := hi.2
      omega
    · exact ⟨span, hspan, hkind, i, hi, hlo, hhi⟩
  · rintro ⟨span, hspan, h⟩
    exact ⟨span, List.mem_append_right _ hspan, h⟩

/-- And so with every line, by induction on the lines above it. -/
theorem run_verbatim_iff (config : IndentConfig) {ls : List Line} (htame : ∀ l ∈ ls, l.Tame)
    (hne : ∀ l ∈ ls, l.chars ≠ []) :
    ∀ {mode : Mode} {start i : Nat} {layout : Layout} {line : Line},
      mode.Matches layout.depth start →
      size = start + (encode (ls.flatMap Line.chars)).length → ls[i]? = some line →
      ((layout.run config ls).1[i]? = some (.verbatim line) ↔
        ∃ span ∈ readLines size mode start ls,
          span.kind = .blockComment ∧ span.Overlaps (Line.rangeFrom start ls i)) := by
  induction ls with
  | nil => intro mode start i layout line _ _ h; exact absurd h (by simp)
  | cons head rest ih =>
    intro mode start i layout line h hsize hline
    cases i with
    | zero =>
      obtain rfl : head = line := by simpa using hline
      rw [Line.rangeFrom_zero, overlaps_head_iff h (htame head List.mem_cons_self) hne hsize,
        ← Layout.place_eq_verbatim_iff config]
      simp [Layout.run]
    | succ i =>
      -- no span of the first line reaches a later one
      rw [Line.rangeFrom_succ, overlaps_cons_iff (Line.start_le_rangeFrom _ _ _)]
      rw [Line.add_length_cons] at hsize
      exact ih (fun l hl => htame l (List.mem_cons_of_mem _ hl))
        (fun l hl => hne l (List.mem_cons_of_mem _ hl))
        (h.step (htame head List.mem_cons_self) config) hsize hline

end Outline

/-- **A line is kept as part of a block comment exactly when its bytes meet the span of one.** -/
theorem verbatim_iff_overlaps (config : IndentConfig) {text : String} (h : Tame text.toList)
    {i : Nat} {line : Line} (hline : (Line.split text.toList)[i]? = some line) :
    (layoutPieces config text.toList)[i]? = some (.verbatim line) ↔
      ∃ span ∈ tokenize text,
        span.kind = .blockComment ∧ span.Overlaps (Line.range (Line.split text.toList) i) := by
  obtain ⟨htame, hended⟩ := h.toUniform.split
  have hchars := Line.flatMap_chars_split text.toList
  have htokens := tokenize_lines htame hended (by rw [hchars]; exact h.mark)
  rw [hchars, String.ofList_toList] at htokens
  have hrange :
      Line.rangeFrom 0 (Line.split text.toList) i = Line.range (Line.split text.toList) i := by
    simp [Line.rangeFrom]
  rw [htokens, ← hrange]
  have hstart : (Mode.outside true).Matches Layout.start.depth 0 := rfl
  exact run_verbatim_iff config htame (fun l hl => Line.chars_ne_nil_of_mem_split hl) hstart
    (by rw [hchars, Nat.zero_add]) hline

/-- The comment is nested, its inner delimiter is a line of its own, and nothing closes it. -/
theorem verbatim_iff_overlaps_nested :
    Tame "x\n%\x7b\r\n %\x7b\n".toList ∧
      (Line.split "x\n%\x7b\r\n %\x7b\n".toList)[2]? = some ⟨[' ', '%', '\x7b'], .lf⟩ ∧
      ∃ span ∈ tokenize "x\n%\x7b\r\n %\x7b\n", span.kind = .blockComment ∧
        span.Overlaps (Line.range (Line.split "x\n%\x7b\r\n %\x7b\n".toList) 2) := by
  have hline : (Line.split "x\n%\x7b\r\n %\x7b\n".toList)[2]?
      = some ⟨[' ', '%', '\x7b'], .lf⟩ := by decide +kernel
  refine ⟨by decide +kernel, hline, ?_⟩
  exact (verbatim_iff_overlaps default (by decide +kernel) hline).mp (by decide +kernel)

end MatlabEdit
