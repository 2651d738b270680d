import MatlabEdit.Proofs.Restart
import MatlabEdit.Proofs.Segments

/-!
# The delimiter that closes a block comment

A block comment ends at the delimiter that matches the one it starts with, and which one that
is can be told from the segments alone: count one up at each opening and one down at each
closing delimiter, from the segment on where the comment starts, and it is the first at which
the count is zero again (`closer?`). Where there is none, the comment runs to the end of the
document.

Reading goes byte by byte, skips some bytes, and looks for both delimiters at each of the
others. Two things are shown of it. Segment by segment, it stops where the count does
(`Ahead.finish`). And at every single step the depth is the balance of those segments whose
delimiter has been passed, and reading has stood at each of these (`Tracks`): no delimiter is
skipped, and none is counted twice. The bytes that are skipped behind a delimiter are its brace
and a byte that is a blank or ends the line.
-/

namespace MatlabEdit

open Cursor

/-- The segment at which a depth comes down to zero. -/
def closer? (depth : Int) : List Segment → Option Segment
  | [] => none
  | segment :: rest =>
    if depth + segment.weight = 0 then some segment else closer? (depth + segment.weight) rest

/-- Where a block comment ends that has a certain depth in front of the segments. -/
def blockStop (size : Nat) (depth : Int) (segments : List Segment) : Nat :=
  match closer? depth segments with
  | some segment => segment.ink + 2
  | none => size

theorem closer?_of_eq {depth : Int} {segment : Segment} (h : depth + segment.weight = 0)
    (rest : List Segment) : closer? depth (segment :: rest) = some segment := if_pos h

theorem closer?_of_ne {depth : Int} {segment : Segment} (h : depth + segment.weight ≠ 0)
    (rest : List Segment) :
    closer? depth (segment :: rest) = closer? (depth + segment.weight) rest := if_neg h

/-- Only a closing delimiter brings a depth down. -/
theorem trim_of_closer? {segment : Segment} {segments : List Segment} :
    ∀ {depth : Int}, 0 < depth → closer? depth segments = some segment →
      Byte.trim segment.bytes = Outline.closing := by
  induction segments with
  | nil => intro depth _ h; cases h
  | cons first rest ih =>
    intro depth hpos h
    have hweight := first.neg_one_le_weight
    by_cases hzero : depth + first.weight = 0
    · rw [closer?_of_eq hzero] at h
      rw [← Option.some.inj h]
      exact Segment.trim_of_weight_neg (by omega)
    · rw [closer?_of_ne hzero] at h
      exact ih (by omega) h

variable {s : Source}

/-! ## Segment by segment -/

namespace OpenBlock

variable {c : Cursor s} {line tail : List UInt8} {later : List Segment}

/-- A segment is read, and then those behind it. -/
theorem finish_segment (hc : c.AtLine line tail)
    (hlater : ∀ {k : Nat}, 0 < k →
      (OpenBlock.mk k (c.forward (line.length + 1))).finish.pos = blockStop s.size k later)
    {k : Nat} (hk : 0 < k) :
    (OpenBlock.mk k c).finish.pos = blockStop s.size k (⟨c.pos, line⟩ :: later) := by
  by_cases hopen : Byte.trim line = Outline.opening
  · have hweight : (Segment.mk c.pos line).weight = 1 := Segment.weight_of_opening hopen
    rw [finish_line_of_opening hc hopen, hlater (Nat.succ_pos k), blockStop, blockStop,
      closer?_of_ne (by omega), hweight]
    rfl
  · by_cases hclose : Byte.trim line = Outline.closing
    · have hweight : (Segment.mk c.pos line).weight = -1 := Segment.weight_of_closing hclose
      by_cases hone : k = 1
      · subst hone
        rw [finish_line_of_closing_one hc hclose, blockStop, closer?_of_eq (by rw [hweight]; rfl),
          hc.pos_forward (indent_add_two_le hclose)]
        exact (Nat.add_assoc _ _ _).symm
      · have hdepth : (k : Int) + (Segment.mk c.pos line).weight = (k - 1 : Nat) := by omega
        rw [finish_line_of_closing hc hclose hone, hlater (by omega), blockStop, blockStop,
          closer?_of_ne (by omega), hdepth]
    · have hweight : (Segment.mk c.pos line).weight = 0 := Segment.weight_of_other hopen hclose
      rw [finish_line_of_other hc hopen hclose, hlater hk, blockStop, blockStop,
        closer?_of_ne (by omega), hweight, Int.add_zero]

end OpenBlock

namespace Cursor.Ahead

variable {c : Cursor s} {line tail : List UInt8} {segments later : List Segment}

theorem finish_of_last (hc : c.AtLine line []) (k : Nat) :
    (OpenBlock.mk k (c.forward (line.length + 1))).finish.pos = s.size := by
  have hend : (c.forward (line.length + 1)).isAtEnd = true := by
    refine isAtEnd_forward_of_le ?_
    rw [hc.rest, List.append_nil]
    exact Nat.le_succ _
  rw [OpenBlock.finish_of_isAtEnd hend]
  exact isAtEnd_iff.mp hend

/-- **Reading stops where the count of the segments does.** -/
theorem finish (h : c.Ahead segments) :
    ∀ {k : Nat}, 0 < k → (OpenBlock.mk k c).finish.pos = blockStop s.size k segments := by
  induction h with
  | last hc => exact OpenBlock.finish_segment hc fun _ => finish_of_last hc _
  | cons hc _ ih => exact OpenBlock.finish_segment hc ih

theorem finish_behind (h : c.Ahead (⟨c.pos, line⟩ :: later)) {k : Nat} (hk : 0 < k) :
    (OpenBlock.mk k (c.forward (line.length + 1))).finish.pos = blockStop s.size k later := by
  cases h with
  | last hc => exact finish_of_last hc k
  | cons _ hlater => exact hlater.finish hk

end Cursor.Ahead

/-! ## Byte by byte -/

/-- What the delimiter at a cursor adds to the depth. -/
def Cursor.turn (c : Cursor s) : Int :=
  if c.opensBlock then 1 else if c.closesBlock then -1 else 0

namespace Cursor

variable {c d : Cursor s} {line tail : List UInt8} {segments : List Segment}

theorem turn_of_neither (hopen : c.opensBlock = false) (hclose : c.closesBlock = false) :
    c.turn = 0 := by
  rw [turn, hopen, hclose]
  rfl

/-- A delimiter starts with a comment sign. -/
theorem turn_of_current_ne (h : c.current ≠ Byte.percent) : c.turn = 0 := by
  have hnone : ∀ brace, c.isDelimiter brace = false := by
    refine fun brace => Bool.eq_false_iff.mpr fun hdel => ?_
    have hsign := (isDelimiter_iff.mp hdel).1
    rw [peek_zero] at hsign
    exact h hsign
  exact turn_of_neither (hnone _) (hnone _)

/-- Neither the brace of a delimiter nor the byte behind it starts a delimiter. -/
theorem turn_behind {brace : UInt8} (hbrace : brace ≠ Byte.percent)
    (h : c.isDelimiter brace = true) :
    (c.forward 1).turn = 0 ∧ (c.forward 2).turn = 0 := by
  obtain ⟨_, hsecond, _, hafter⟩ := isDelimiter_iff.mp h
  constructor
  · refine turn_of_current_ne ?_
    rwa [← peek_one_eq_current, hsecond]
  · refine turn_of_current_ne fun hsign => ?_
    rw [moveBy_two,
      followedByBlanks_of_neg (by rw [hsign]; decide) (by rw [hsign]; decide)] at hafter
    cases hafter

theorem turn_indent (hc : c.AtLine line tail) :
    (c.forward (Byte.indent line)).turn = (Segment.mk c.pos line).weight := by
  have hopen :
      (c.forward (Byte.indent line)).opensBlock = true ↔ Byte.trim line = Outline.opening := by
    rw [opensBlock_forward_iff hc (Byte.indent_le line)]
    exact ⟨And.right, fun h => ⟨rfl, h⟩⟩
  have hclose :
      (c.forward (Byte.indent line)).closesBlock = true ↔ Byte.trim line = Outline.closing := by
    rw [closesBlock_forward_iff hc (Byte.indent_le line)]
    exact ⟨And.right, fun h => ⟨rfl, h⟩⟩
  unfold turn Segment.weight
  simp only [hopen, hclose]

theorem turn_of_ne_indent (hc : c.AtLine line tail) {n : Nat} (hn : n ≤ line.length)
    (h : n ≠ Byte.indent line) : (c.forward n).turn = 0 := by
  refine turn_of_neither (Bool.eq_false_iff.mpr fun hopen => ?_)
    (Bool.eq_false_iff.mpr fun hclose => ?_)
  · exact h ((opensBlock_forward_iff hc hn).mp hopen).1
  · exact h ((closesBlock_forward_iff hc hn).mp hclose).1

theorem balance_segment (hc : c.AtLine line tail) (hd : c.pos ≤ d.pos)
    (hle : d.pos ≤ c.pos + line.length) :
    balance ([⟨c.pos, line⟩].filter (·.ink = d.pos)) = d.turn := by
  obtain ⟨n, hn, rfl⟩ := hc.exists_forward hd hle
  rw [hc.pos_forward hn]
  by_cases hindent : n = Byte.indent line
  · subst hindent
    rw [List.filter_cons_of_pos (by simp [Segment.ink]), turn_indent hc]
    simp
  · have hne : (Segment.mk c.pos line).ink ≠ c.pos + n := by
      unfold Segment.ink
      dsimp only
      omega
    rw [List.filter_cons_of_neg (by simpa using hne), turn_of_ne_indent hc hn hindent]
    rfl

namespace Ahead

/-- What stands at a place is what the segment with its ink there says. -/
theorem balance_at (h : c.Ahead segments) (hd : c.pos ≤ d.pos) :
    balance (segments.filter (·.ink = d.pos)) = d.turn := by
  induction h with
  | last hc => exact balance_segment hc hd hc.pos_le_of_last
  | @cons c line tail b segments hc hlater ih =>
    rw [← List.singleton_append, List.filter_append, balance_append]
    rcases Nat.lt_or_ge (c.pos + line.length) d.pos with hlt | hge
    · -- the first segment is passed
      have hfirst : balance ([⟨c.pos, line⟩].filter (·.ink = d.pos)) = 0 := by
        refine balance_filter_eq_zero fun segment hsegment => ?_
        have hindent := Byte.indent_le line
        rw [List.mem_singleton.mp hsegment, Segment.ink]
        dsimp only
        exact decide_eq_false (by omega)
      rw [hc.next_line.2.1] at ih
      rw [hfirst, ih (by omega), Int.zero_add]
    · have hothers : balance (segments.filter (·.ink = d.pos)) = 0 := by
        refine balance_filter_eq_zero fun segment hsegment => ?_
        have hlt := (Ahead.cons hc hlater).lt_ink_of_mem segment hsegment
        exact decide_eq_false (by omega)
      rw [hothers, balance_segment hc hd hge, Int.add_zero]

/-- Each segment says what stands at its ink. -/
theorem turn_eq_weight (h : c.Ahead segments) :
    ∀ segment ∈ segments, ∀ d : Cursor s, d.pos = segment.ink → d.turn = segment.weight := by
  have hfirst : ∀ {c : Cursor s} {line tail : List UInt8}, c.AtLine line tail → ∀ d : Cursor s,
      d.pos = (Segment.mk c.pos line).ink → d.turn = (Segment.mk c.pos line).weight := by
    intro c line tail hc d hd
    have hplace : d = c.forward (Byte.indent line) :=
      Cursor.ext (hd.trans (hc.pos_forward (Byte.indent_le line)).symm)
    rw [hplace, turn_indent hc]
  induction h with
  | last hc =>
    intro segment hsegment
    rw [List.mem_singleton.mp hsegment]
    exact hfirst hc
  | cons hc _ ih =>
    intro segment hsegment
    rcases List.mem_cons.mp hsegment with rfl | hsegment
    · exact hfirst hc
    · exact ih segment hsegment

/-- To pass a byte is to pass the delimiter that starts there. -/
theorem balance_forward (h : c.Ahead segments) (hd : c.pos ≤ d.pos) :
    balance (segments.filter (·.ink < (d.forward 1).pos))
      = balance (segments.filter (·.ink < d.pos)) + d.turn := by
  cases hend : d.isAtEnd with
  | true =>
    have hsign : d.current ≠ Byte.percent := by
      rw [current_of_isAtEnd hend]
      decide
    rw [← advance_eq_forward, advance_of_isAtEnd hend, turn_of_current_ne hsign, Int.add_zero]
  | false =>
    have hlt := isAtEnd_eq_false_iff.mp hend
    rw [← next_eq_forward hlt, pos_next, balance_filter_lt_succ, h.balance_at hd]

/-- Where nothing stands at a byte, it makes no difference whether it is passed. -/
theorem balance_forward_succ (h : c.Ahead segments) (hd : c.pos ≤ d.pos) {n : Nat}
    (hturn : (d.forward n).turn = 0) :
    balance (segments.filter (·.ink < (d.forward (n + 1)).pos))
      = balance (segments.filter (·.ink < (d.forward n).pos)) := by
  have hle : c.pos ≤ (d.forward n).pos := by
    have := d.pos_le_size
    rw [pos_forward]
    omega
  rw [← forward_forward, h.balance_forward hle, hturn, Int.add_zero]

/-- A delimiter counts once, whether the byte behind it is passed with it or not. -/
theorem balance_behind (h : c.Ahead segments) (hd : c.pos ≤ d.pos) {brace : UInt8}
    (hbrace : brace ≠ Byte.percent) (hdel : d.isDelimiter brace = true) :
    balance (segments.filter (·.ink < (d.forward 2).pos))
        = balance (segments.filter (·.ink < d.pos)) + d.turn ∧
      balance (segments.filter (·.ink < (d.forward 3).pos))
        = balance (segments.filter (·.ink < d.pos)) + d.turn := by
  obtain ⟨hone, htwo⟩ := turn_behind hbrace hdel
  rw [h.balance_forward_succ hd htwo, h.balance_forward_succ hd hone, h.balance_forward hd]
  exact ⟨rfl, rfl⟩

end Ahead

end Cursor

namespace OpenBlock

theorem Reads.snoc {b b' b'' : OpenBlock s} (h : Reads b b') (hs : b'.step = .inl b'') :
    Reads b b'' := by
  induction h with
  | refl b => exact .step hs (.refl _)
  | step hfirst _ ih => exact .step hfirst (ih hs)

/-- What is true of the segments ahead of `c` whenever reading has come from `first` to `b`. -/
structure Tracks (c : Cursor s) (segments : List Segment) (first b : OpenBlock s) : Prop where
  reads : Reads first b
  pos_le : c.pos ≤ b.cursor.pos
  depth_pos : 0 < b.depth
  /-- The depth is the balance of what has been passed. -/
  depth_eq : (b.depth : Int) = balance (segments.filter (·.ink < b.cursor.pos))
  /-- Reading has stood at each delimiter that it has passed. -/
  seen : ∀ segment ∈ segments, segment.weight ≠ 0 → first.cursor.pos ≤ segment.ink →
    segment.ink < b.cursor.pos → ∃ b', Reads first b' ∧ b'.cursor.pos = segment.ink

variable {c d : Cursor s} {line tail : List UInt8} {segments later : List Segment}
variable {first b b' : OpenBlock s}

theorem turn_of_opensBlock (h : c.opensBlock = true) : c.turn = 1 := if_pos h

theorem turn_of_closesBlock (h : c.closesBlock = true) : c.turn = -1 := by
  have hopen : c.opensBlock = false := Bool.eq_false_iff.mpr fun hopen => by
    rw [closesBlock_of_opensBlock hopen] at h
    cases h
  rw [turn, hopen, h]
  rfl

/-- A block comment has passed its own delimiter when it is opened. -/
theorem tracks_opened (h : c.Ahead (⟨c.pos, line⟩ :: later)) (hc : c.AtLine line tail)
    (htrim : Byte.trim line = Outline.opening) :
    Tracks c (⟨c.pos, line⟩ :: later) (opened (c.forward (Byte.indent line)))
      (opened (c.forward (Byte.indent line))) := by
  have hindent := Byte.indent_le line
  have hpos := hc.pos_forward hindent
  have hopen := (opensBlock_forward_iff hc hindent).mpr ⟨rfl, htrim⟩
  have hle : c.pos ≤ (c.forward (Byte.indent line)).pos := by omega
  have hbefore : balance ((⟨c.pos, line⟩ :: later : List Segment).filter
      (·.ink < (c.forward (Byte.indent line)).pos)) = 0 := by
    refine balance_filter_eq_zero fun segment hsegment => decide_eq_false ?_
    rw [hpos]
    rcases List.mem_cons.mp hsegment with rfl | hsegment
    · exact Nat.lt_irrefl _
    · have hlt := h.lt_ink_of_mem segment hsegment
      omega
  refine ⟨.refl _, ?_, Nat.one_pos, ?_, fun _ _ _ hle hlt => absurd hle (Nat.not_le.mpr hlt)⟩
  · show c.pos ≤ ((c.forward (Byte.indent line)).moveBy 2).pos
    have := (c.forward (Byte.indent line)).pos_le_size
    rw [pos_moveBy_two]
    omega
  · show (1 : Int) = balance (List.filter (·.ink < ((c.forward (Byte.indent line)).moveBy 2).pos) _)
    rw [moveBy_two, (h.balance_behind hle (by decide) hopen).1, hbefore, turn_of_opensBlock hopen]
    rfl

/-- What is passed in one step is what stands at its first byte. -/
theorem ink_eq_of_step (h : c.Ahead segments) (hs : b.step = .inl b') {segment : Segment}
    (hmem : segment ∈ segments) (hweight : segment.weight ≠ 0) (hle : b.cursor.pos ≤ segment.ink)
    (hlt : segment.ink < b'.cursor.pos) : b.cursor.pos = segment.ink := by
  have hsize := b'.cursor.pos_le_size
  have hne : ∀ n, (b.cursor.forward n).turn = 0 → segment.ink ≠ b.cursor.pos + n := by
    intro n hturn hink
    have hpos : (b.cursor.forward n).pos = segment.ink := by
      rw [pos_forward]
      omega
    exact hweight ((h.turn_eq_weight segment hmem _ hpos).symm.trans hturn)
  rcases step_eq_inl hs with ⟨hclose, _, rfl⟩ | ⟨_, rfl⟩ | ⟨_, _, rfl⟩ <;> dsimp only at hlt <;>
    rw [pos_forward] at hlt
  · obtain ⟨hone, htwo⟩ := turn_behind (by decide) hclose
    have hne1 := hne 1 hone
    have hne2 := hne 2 htwo
    omega
  · omega
  · omega

/-- One step: a delimiter that is passed is counted, and nothing else is. -/
theorem Tracks.step (ht : Tracks c segments first b) (h : c.Ahead segments)
    (hs : b.step = .inl b') : Tracks c segments first b' := by
  have hdepth := ht.depth_eq
  have hpos := ht.depth_pos
  refine ⟨ht.reads.snoc hs, Nat.le_trans ht.pos_le (Nat.le_of_lt (pos_lt_of_step hs).2),
    depth_pos_of_step hs hpos, ?_, ?_⟩
  · rcases step_eq_inl hs with ⟨hclose, _, rfl⟩ | ⟨hopen, rfl⟩ | ⟨hopen, hclose, rfl⟩
    · show ((b.depth - 1 : Nat) : Int) = _
      rw [(h.balance_behind ht.pos_le (by decide) hclose).2, turn_of_closesBlock hclose]
      omega
    · show ((b.depth + 1 : Nat) : Int) = _
      rw [h.balance_forward ht.pos_le, turn_of_opensBlock hopen]
      omega
    · show (b.depth : Int) = _
      rw [h.balance_forward ht.pos_le, turn_of_neither hopen hclose]
      omega
  · intro segment hmem hweight hfirst hlt
    rcases Nat.lt_or_ge segment.ink b.cursor.pos with hbefore | hle
    · exact ht.seen segment hmem hweight hfirst hbefore
    · exact ⟨b, ht.reads, ink_eq_of_step h hs hmem hweight hle hlt⟩

theorem Tracks.reads_on (ht : Tracks c segments first b) (h : c.Ahead segments)
    (hreads : Reads b b') : Tracks c segments first b' := by
  induction hreads with
  | refl b => exact ht
  | step hs _ ih => exact ih (ht.step h hs)

end OpenBlock

/-! ## The rule -/

theorem CommentRule.apply_block_eq_some {phase phase' : Phase} {c : Cursor s} {span : Span}
    (h : CommentRule.block.apply phase c = (some span, phase')) :
    c.opensBlock = true ∧ span = ⟨⟨c.pos, (OpenBlock.opened c).finish.pos⟩, .blockComment⟩ := by
  cases hopen : c.opensBlock with
  | false =>
    simp [CommentRule.apply, blockComment?, hopen] at h
  | true =>
    simp only [CommentRule.apply, blockComment?, hopen, if_true] at h
    exact ⟨rfl, (Option.some.inj (Prod.mk.inj h).1).symm⟩

/-- **A block comment ends at the delimiter that matches the one it starts with**, counted from its
own segment on. All the while its depth is the balance of the segments that have been passed, and
reading has stood at each delimiter among them. -/
theorem CommentRule.block_ends_at_closer {phase phase' : Phase} {c : Cursor s} {span : Span}
    (h : CommentRule.block.apply phase c = (some span, phase')) :
    ∃ before own later, s.segments = before ++ own :: later ∧
      own.ink = c.pos ∧ Byte.trim own.bytes = Outline.opening ∧
      span = ⟨⟨c.pos, blockStop s.size 0 (own :: later)⟩, .blockComment⟩ ∧
      (∀ segment, closer? 0 (own :: later) = some segment →
        Byte.trim segment.bytes = Outline.closing) ∧
      ∀ b, OpenBlock.Reads (OpenBlock.opened c) b →
        (b.depth : Int) = balance ((own :: later).filter (·.ink < b.cursor.pos)) ∧
          ∀ segment ∈ later, segment.weight ≠ 0 → segment.ink < b.cursor.pos →
            ∃ b', OpenBlock.Reads (OpenBlock.opened c) b' ∧ b'.cursor.pos = segment.ink := by
  obtain ⟨hopen, rfl⟩ := CommentRule.apply_block_eq_some h
  obtain ⟨before, line, tail, later, e, hsegments, hline, hahead, n, hn, rfl⟩ :=
    (ahead_segments s).exists_segment c.contentStart_le_pos
  obtain ⟨rfl, htrim⟩ := (opensBlock_forward_iff hline hn).mp hopen
  have hweight : (Segment.mk e.pos line).weight = 1 := Segment.weight_of_opening htrim
  have hcloser : closer? 0 (⟨e.pos, line⟩ :: later) = closer? 1 later := by
    rw [closer?_of_ne (by omega), hweight]
    rfl
  have hstop : (OpenBlock.opened (e.forward (Byte.indent line))).finish.pos
      = blockStop s.size 0 (⟨e.pos, line⟩ :: later) := by
    rw [OpenBlock.finish_opened hline htrim, hahead.finish_behind Nat.one_pos, blockStop, blockStop,
      hcloser]
    rfl
  refine ⟨before, ⟨e.pos, line⟩, later, hsegments, (hline.pos_forward hn).symm, htrim,
    by rw [hstop], ?_, ?_⟩
  · intro segment hsegment
    rw [hcloser] at hsegment
    exact trim_of_closer? Int.one_pos hsegment
  · intro b hreads
    have htracks := (OpenBlock.tracks_opened hahead hline htrim).reads_on hahead hreads
    refine ⟨htracks.depth_eq, fun segment hmem hweight hlt => ?_⟩
    -- the opening delimiter fits on its segment, so every later one is behind it
    refine htracks.seen segment (List.mem_cons_of_mem _ hmem) hweight ?_ hlt
    have hfit := OpenBlock.indent_add_two_le htrim
    have hink := hahead.lt_ink_of_mem segment hmem
    have hle := ((e.forward (Byte.indent line)).pos_moveBy_two).le
    rw [hline.pos_forward hn] at hle
    exact Nat.le_trans hle (by omega)

theorem CommentRule.block_ends_at_closer_nested :
    let source := Source.ofString "x\n %\x7b\n%\x7b\n\t%\x7d\x00%\x7d\nz"
    CommentRule.block.apply .preamble (source.cursor.forward 3)
        = (some ⟨⟨3, 15⟩, .blockComment⟩, .body) ∧
      ∃ own later, own.ink = 3 ∧ blockStop source.size 0 (own :: later) = 15 := by
  intro source
  have h : CommentRule.block.apply .preamble (source.cursor.forward 3)
      = (some ⟨⟨3, 15⟩, .blockComment⟩, .body) := by
    decide +kernel
  obtain ⟨_, own, later, _, hink, _, hspan, _⟩ := CommentRule.block_ends_at_closer h
  exact ⟨h, own, later, hink, congrArg (·.stop) hspan.symm⟩

end MatlabEdit
