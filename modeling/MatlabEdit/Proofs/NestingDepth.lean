import MatlabEdit.Proofs.CommentLines
import MatlabEdit.Proofs.Matching
import MatlabEdit.Proofs.RawCursor
import MatlabEdit.Proofs.Seams

/-!
# Nesting depths that are plain words

Blocks are counted twice: by the scanner while it reads a block comment, and by the layout from
line to line. A machine counts in 32-bit words, and neither count is checked.

The scanner's cannot wrap because each delimiter that it has counted has a segment for itself.
Such a segment has two bytes at least, and between two segments there is a third. So the depth,
which is the balance of the segments that have been passed (`OpenBlock.Tracks`), is a third of the
document's size at most (`OpenBlock.three_mul_depth_le`). And it counts down only from a depth
that has been counted up before, since reading stops where the depth comes to zero.

The layout's grows by one from line to line at most, and every line has a byte. It counts down
only within a comment, and a closing delimiter belongs to one only if one is open.
-/

namespace MatlabEdit

open Cursor

/-! ## The depth of a block comment -/

/-- An opening delimiter takes two bytes of its segment. -/
theorem Segment.three_mul_weight_le (segment : Segment) :
    3 * segment.weight ≤ segment.bytes.length + 1 := by
  by_cases hopen : Byte.trim segment.bytes = Outline.opening
  · have hfit := OpenBlock.indent_add_two_le hopen
    rw [weight_of_opening hopen]
    omega
  · have hle : segment.weight ≤ 0 := by
      rw [weight, if_neg hopen]
      split_ifs <;> decide
    omega

variable {s : Source}

/-- Whichever segments are counted, each has its place ahead of the cursor, and one byte behind it
that is no other's. -/
theorem Cursor.Ahead.three_mul_balance_le {c : Cursor s} {segments : List Segment}
    (h : c.Ahead segments) (p : Segment → Bool) :
    3 * balance (segments.filter p) ≤ (s.size - c.pos : Nat) + 1 := by
  have hone : ∀ segment : Segment, 3 * balance ([segment].filter p) ≤ segment.bytes.length + 1 := by
    intro segment
    have hweight := segment.three_mul_weight_le
    cases hp : p segment with
    | true =>
      rw [List.filter_cons_of_pos hp, List.filter_nil, balance_cons, balance_nil]
      omega
    | false =>
      rw [List.filter_cons_of_neg (by rw [hp]; exact Bool.false_ne_true), List.filter_nil,
        balance_nil]
      omega
  induction h with
  | @last c line hc =>
    have hlength := c.length_rest
    rw [hc.rest, List.append_nil] at hlength
    have hfirst := hone ⟨c.pos, line⟩
    dsimp only at hfirst
    omega
  | @cons c line tail b later hc _ ih =>
    have hlength := c.length_rest
    rw [hc.rest, List.length_append, List.length_cons] at hlength
    rw [hc.next_line.2.1] at ih
    have hfirst := hone ⟨c.pos, line⟩
    dsimp only at hfirst
    rw [← List.singleton_append, List.filter_append, balance_append]
    omega

namespace OpenBlock

variable {c : Cursor s} {b b' : OpenBlock s}

/-- The invariant of reading, told by the document's size. -/
theorem three_mul_depth_le (hopen : c.opensBlock = true) (hreads : Reads (opened c) b) :
    0 < b.depth ∧ 3 * b.depth ≤ s.size + 1 := by
  obtain ⟨_, line, tail, later, e, _, hline, hahead, n, hn, rfl⟩ :=
    (ahead_segments s).exists_segment c.contentStart_le_pos
  obtain ⟨rfl, htrim⟩ := (opensBlock_forward_iff hline hn).mp hopen
  have htracks := (tracks_opened hahead hline htrim).reads_on hahead hreads
  have hbalance := hahead.three_mul_balance_le (·.ink < b.cursor.pos)
  rw [← htracks.depth_eq] at hbalance
  exact ⟨htracks.depth_pos, by omega⟩

end OpenBlock

/-- A block comment of which a part has been read, as a machine has it. -/
structure RawBlock where
  depth : UInt32
  cursor : RawCursor

namespace RawBlock

/-- One round of reading. Both counts have an answer only where they do not wrap. -/
def pass (b : RawBlock) : Part (RawCursor ⊕ RawBlock) := do
  if b.cursor.isAtEnd then return .inl b.cursor
  if ← b.cursor.isDelimiter Byte.closeBrace then
    let behind ← b.cursor.moveBy 2
    let depth ← Word.sub b.depth 1
    if depth = 0 then return .inl behind
    return .inr ⟨depth, ← behind.advance⟩
  if ← b.cursor.isDelimiter Byte.openBrace then
    let depth ← Word.add b.depth 1
    return .inr ⟨depth, ← b.cursor.advance⟩
  return .inr ⟨b.depth, ← b.cursor.advance⟩

/-- Where the block ends. -/
def finish (b : RawBlock) : Part RawCursor := PFun.fix pass b

end RawBlock

/-- Where the block comment ends that opens at the cursor. -/
def RawCursor.blockStop (c : RawCursor) : Part RawCursor := do
  RawBlock.finish ⟨1, ← c.moveBy 2⟩

/-- The words of a block comment. -/
def OpenBlock.raw (b : OpenBlock s) : RawBlock := ⟨UInt32.ofNat b.depth, b.cursor.raw⟩

namespace RawBlock

variable {c : Cursor s} {b : OpenBlock s} (hs : s.size < UInt32.size)
include hs

/-- One round is a step of reading. -/
theorem pass_raw (hpos : 0 < b.depth) (hlt : b.depth + 1 < UInt32.size) :
    b.raw.pass = .some (b.step.elim (fun b' => .inr b'.raw) (fun c => .inl c.raw)) := by
  have hcursor : b.raw.cursor = b.cursor.raw := rfl
  have hsub : Word.sub b.raw.depth 1 = .some (UInt32.ofNat (b.depth - 1)) :=
    Word.sub_ofNat (b := 1) hpos (Nat.lt_of_succ_lt hlt)
  have hadd : Word.add b.raw.depth 1 = .some (UInt32.ofNat (b.depth + 1)) := Word.add_ofNat hlt
  have hzero : UInt32.ofNat (b.depth - 1) = 0 ↔ b.depth = 1 := by
    rw [← UInt32.toNat_inj, UInt32.toNat_ofNat_of_lt' (by omega), UInt32.toNat_zero]
    omega
  rw [pass, OpenBlock.step, hcursor, RawCursor.isAtEnd_raw hs]
  by_cases hend : b.cursor.isAtEnd = true
  · rw [if_pos hend, if_pos hend]
    rfl
  rw [if_neg hend, if_neg hend, bind_of_eq_some (RawCursor.closesBlock_raw hs)]
  by_cases hclose : b.cursor.closesBlock = true
  · rw [if_pos hclose, if_pos hclose, bind_of_eq_some (RawCursor.moveBy_two_raw hs),
      bind_of_eq_some hsub]
    by_cases hone : b.depth = 1
    · rw [if_pos hone, if_pos (hzero.mpr hone)]
      rfl
    · rw [if_neg hone, if_neg (mt hzero.mp hone), bind_of_eq_some (RawCursor.advance_raw hs)]
      rfl
  rw [if_neg hclose, if_neg hclose, bind_of_eq_some (RawCursor.opensBlock_raw hs)]
  by_cases hopen : b.cursor.opensBlock = true
  · rw [if_pos hopen, if_pos hopen, bind_of_eq_some hadd,
      bind_of_eq_some (RawCursor.advance_raw hs)]
    rfl
  · rw [if_neg hopen, if_neg hopen, bind_of_eq_some (RawCursor.advance_raw hs)]
    rfl

/-- Reading comes to an end, and no count wraps on the way: by induction on what is still read. -/
theorem finish_raw (hopen : c.opensBlock = true) (hreads : OpenBlock.Reads (OpenBlock.opened c) b) :
    b.raw.finish = .some b.finish.raw := by
  fun_induction OpenBlock.finish b with
  | case1 b b' hstep ih =>
    obtain ⟨hpos, hle⟩ := OpenBlock.three_mul_depth_le hopen hreads
    refine (fix_eq_of_inr ?_).trans (ih (hreads.snoc hstep))
    rw [pass_raw hs hpos (by omega), hstep]
    rfl
  | case2 b d hstep =>
    obtain ⟨hpos, hle⟩ := OpenBlock.three_mul_depth_le hopen hreads
    refine fix_eq_of_inl ?_
    rw [pass_raw hs hpos (by omega), hstep]
    rfl

end RawBlock

theorem RawCursor.blockStop_raw (hs : s.size < UInt32.size) {c : Cursor s}
    (hopen : c.opensBlock = true) : c.raw.blockStop = .some (OpenBlock.opened c).finish.raw := by
  rw [blockStop, bind_of_eq_some (moveBy_two_raw hs)]
  exact RawBlock.finish_raw hs hopen (.refl _)

/-! ## The depth of a layout -/

namespace Layout

variable {config : IndentConfig} {layout : Layout} {line : Line}

theorem depth_place_le (layout : Layout) (config : IndentConfig) (line : Line) :
    (layout.place config line).2.depth ≤ layout.depth + 1 := by
  rw [depth_place, Line.depthBelow]
  split_ifs <;> omega

theorem depth_run_le (config : IndentConfig) (lines : List Line) : ∀ layout : Layout,
    (layout.run config lines).2.depth ≤ layout.depth + lines.length := by
  induction lines with
  | nil => exact fun _ => Nat.le_refl _
  | cons line rest ih =>
    intro layout
    have hplace := layout.depth_place_le config line
    have hrest := ih (layout.place config line).2
    rw [run_cons_snd, List.length_cons]
    omega

/-- The count below a line, as a machine has it. -/
def countLine (depth : UInt32) (line : Line) : Part UInt32 :=
  if 0 < depth ∨ blockDelimiter? line.text = some .opening then
    match blockDelimiter? line.text with
    | some .opening => Word.add depth 1
    | some .closing => Word.sub depth 1
    | none => .some depth
  else .some depth

/-- A line counts as it is placed. -/
theorem countLine_eq (config : IndentConfig) (hlt : layout.depth + 1 < UInt32.size) :
    countLine (UInt32.ofNat layout.depth) line
      = .some (UInt32.ofNat (layout.place config line).2.depth) := by
  have hword : 0 < UInt32.ofNat layout.depth ↔ 0 < layout.depth := by
    rw [UInt32.lt_iff_toNat_lt, UInt32.toNat_ofNat_of_lt' (Nat.lt_of_succ_lt hlt),
      UInt32.toNat_zero]
  have hin : (0 < UInt32.ofNat layout.depth ∨ blockDelimiter? line.text = some .opening)
      ↔ layout.inComment line = true := by
    rw [hword, inComment, Bool.or_eq_true, decide_eq_true_iff, beq_iff_eq]
  unfold countLine
  cases hcomment : layout.inComment line with
  | false =>
    rw [if_neg (by rw [hin, hcomment]; exact Bool.false_ne_true),
      depth_place_of_notComment hcomment]
  | true =>
    rw [if_pos (hin.mpr hcomment), place_of_inComment hcomment]
    cases hdelim : blockDelimiter? line.text with
    | none => rfl
    | some delimiter =>
      cases delimiter with
      | opening => exact Word.add_ofNat hlt
      | closing =>
        exact Word.sub_ofNat (b := 1) (depth_pos_of_closing hcomment hdelim) (Nat.lt_of_succ_lt hlt)

theorem countLines_eq (config : IndentConfig) (lines : List Line) : ∀ layout : Layout,
    layout.depth + lines.length < UInt32.size →
      lines.foldlM countLine (UInt32.ofNat layout.depth)
        = .some (UInt32.ofNat (layout.run config lines).2.depth) := by
  induction lines with
  | nil => exact fun _ _ => rfl
  | cons line rest ih =>
    intro layout hlt
    rw [List.length_cons] at hlt
    have hplace := layout.depth_place_le config line
    rw [List.foldlM_cons, bind_of_eq_some (countLine_eq config (by omega)),
      ih _ (by omega), run_cons_snd]

end Layout

/-- Every line has a byte. -/
theorem Line.length_le_of_chars_ne_nil {lines : List Line} (h : ∀ line ∈ lines, line.chars ≠ []) :
    lines.length ≤ (encode (lines.flatMap Line.chars)).length := by
  induction lines with
  | nil => exact Nat.zero_le _
  | cons line rest ih =>
    have hpos := length_encode_pos (h line List.mem_cons_self)
    have hrest := ih fun other hother => h other (List.mem_cons_of_mem _ hother)
    rw [List.flatMap_cons, encode_append, List.length_append, List.length_cons]
    omega

theorem Line.length_split_le (text : String) :
    (Line.split text.toList).length ≤ text.utf8ByteSize := by
  have hne : ∀ line ∈ Line.split text.toList, line.chars ≠ [] := fun line hline =>
    Line.chars_ne_nil_of_mem_split hline
  have hle := Line.length_le_of_chars_ne_nil hne
  rwa [Line.flatMap_chars_split, ← Source.size_ofString] at hle

namespace Layout

variable {config : IndentConfig} {layout : Layout} {line : Line}

/-- A closing delimiter in a comment takes one off, and there is one to take. -/
theorem depth_place_of_closing (hin : layout.inComment line = true)
    (hclosing : blockDelimiter? line.text = some .closing) :
    1 ≤ layout.depth ∧ (layout.place config line).2.depth = layout.depth - 1 := by
  refine ⟨depth_pos_of_closing hin hclosing, ?_⟩
  rw [place_of_inComment hin, hclosing]
  rfl

/-- A stray one takes nothing. -/
theorem depth_place_of_stray (hdepth : layout.depth = 0)
    (hclosing : blockDelimiter? line.text = some .closing) :
    layout.inComment line = false ∧ (layout.place config line).2.depth = 0 := by
  have hnot : layout.inComment line = false := Bool.eq_false_iff.mpr fun hin =>
    Nat.ne_of_gt (depth_pos_of_closing hin hclosing) hdepth
  exact ⟨hnot, (depth_place_of_notComment hnot).trans hdepth⟩

end Layout

/-- **No count wraps**, in a text that fits a machine. Wherever a block comment starts, the machine
finds where it ends, and at every place where it looks for a delimiter the depth is one at least
and a third of the text at most. And below any lines of the text, the machine has the depth of the
layout. It is the number of those lines at most, it goes down only within a comment and only from
one or more, and a stray closing delimiter leaves it at zero. -/
theorem nesting_never_wraps (text : String) (hsize : text.utf8ByteSize < UInt32.size) :
    (∀ c : Cursor (Source.ofString text), c.opensBlock = true →
      c.raw.blockStop = .some (OpenBlock.opened c).finish.raw ∧
        ∀ b, OpenBlock.Reads (OpenBlock.opened c) b →
          1 ≤ b.depth ∧ 3 * b.depth ≤ text.utf8ByteSize + 1 ∧
            b.raw.pass = .some (b.step.elim (fun b' => .inr b'.raw) (fun d => .inl d.raw))) ∧
    ∀ (config : IndentConfig) (above below : List Line), Line.split text.toList = above ++ below →
      let layout := (Layout.start.run config above).2
      above.foldlM Layout.countLine 0 = .some (UInt32.ofNat layout.depth) ∧
        layout.depth ≤ above.length ∧ above.length ≤ text.utf8ByteSize ∧
        ∀ line, blockDelimiter? line.text = some .closing →
          (layout.inComment line = true →
            1 ≤ layout.depth ∧ (layout.place config line).2.depth = layout.depth - 1) ∧
          (layout.depth = 0 →
            layout.inComment line = false ∧ (layout.place config line).2.depth = 0) := by
  refine ⟨fun c hopen => ⟨RawCursor.blockStop_raw hsize hopen, fun b hreads => ?_⟩, ?_⟩
  · obtain ⟨hpos, hle⟩ := OpenBlock.three_mul_depth_le hopen hreads
    have hthird : 3 * b.depth ≤ text.utf8ByteSize + 1 := hle
    exact ⟨hpos, hthird, RawBlock.pass_raw hsize hpos (by omega)⟩
  · intro config above below hsplit layout
    have hlines := Line.length_split_le text
    rw [hsplit, List.length_append] at hlines
    have hdepth : layout.depth ≤ 0 + above.length := Layout.depth_run_le config above Layout.start
    have hzero : Layout.start.depth = 0 := rfl
    refine ⟨Layout.countLines_eq config above Layout.start (by omega), by omega, by omega, ?_⟩
    intro line hclosing
    exact ⟨fun hin => Layout.depth_place_of_closing hin hclosing,
      fun h => Layout.depth_place_of_stray h hclosing⟩

/-- The first delimiter is stray, and of the others two are open before one is closed. -/
theorem nesting_never_wraps_stray :
    let text := "%\x7d\n%\x7b\n%\x7b\n%\x7d\n"
    let s := Source.ofString text
    let c := s.cursor.forward 3
    let stray : Line := ⟨['%', '\x7d'], .lf⟩
    let opening : Line := ⟨['%', '\x7b'], .lf⟩
    let layout := (Layout.start.run default [stray, opening, opening]).2
    text.utf8ByteSize < UInt32.size ∧ c.opensBlock = true ∧
      (∃ b, OpenBlock.Reads (OpenBlock.opened c) b ∧ b.depth = 2 ∧
        3 * b.depth ≤ text.utf8ByteSize + 1) ∧
      c.raw.blockStop = .some (OpenBlock.opened c).finish.raw ∧
      [stray, opening, opening].foldlM Layout.countLine 0 = .some 2 ∧
      (layout.inComment stray = true ∧ 1 ≤ layout.depth) ∧
      (Layout.start.place default stray).2.depth = 0 := by
  intro text s c stray opening layout
  have hsize : text.utf8ByteSize < UInt32.size := by decide
  have hopen : c.opensBlock = true := by decide +kernel
  have hfirst : (OpenBlock.opened c).step = .inl ⟨1, s.cursor.forward 6⟩ := by
    rw [OpenBlock.step, if_neg (by decide +kernel), if_neg (by decide +kernel),
      if_neg (by decide +kernel)]
    exact congrArg Sum.inl (OpenBlock.ext rfl (Cursor.ext (by decide +kernel)))
  have hsecond : (OpenBlock.mk 1 (s.cursor.forward 6)).step = .inl ⟨2, s.cursor.forward 7⟩ := by
    rw [OpenBlock.step, if_neg (by decide +kernel), if_neg (by decide +kernel),
      if_pos (by decide +kernel)]
    exact congrArg Sum.inl (OpenBlock.ext rfl (Cursor.ext (by decide +kernel)))
  have hreads : OpenBlock.Reads (OpenBlock.opened c) ⟨2, s.cursor.forward 7⟩ :=
    .step hfirst (.step hsecond (.refl _))
  have hlines : Line.split text.toList = [stray, opening, opening] ++ [stray] := by decide +kernel
  obtain ⟨hscan, hlayout⟩ := nesting_never_wraps text hsize
  obtain ⟨hstop, hheads⟩ := hscan c hopen
  obtain ⟨hcount, _, _, hclosing⟩ := hlayout default _ _ hlines
  obtain ⟨_, _, _, hstray⟩ := hlayout default [] _ hlines
  have hin : layout.inComment stray = true := by decide +kernel
  exact ⟨hsize, hopen, ⟨_, hreads, rfl, (hheads _ hreads).2.1⟩, hstop, hcount,
    ⟨hin, ((hclosing stray (by decide)).1 hin).1⟩, ((hstray stray (by decide)).2 rfl).2⟩

end MatlabEdit
