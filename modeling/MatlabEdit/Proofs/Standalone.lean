import Mathlib.Data.PFun
import MatlabEdit.Proofs.Segments

/-!
# A delimiter stands alone

The content is cut into segments at its line ends, and every place of it lies on exactly one
of them (`Source.exists_segment`, `Source.segment_unique`). What a look around a cursor finds is
said of that segment alone: nothing but blanks behind the cursor if its part before the place
is blank, nothing but blanks ahead if its part from there on is. A delimiter is two bytes of a
segment that is otherwise blank, so a segment holds one delimiter at most.

Both looks go from byte to byte for as long as they read blanks, and what they read is all that
ends them: there is no test for the edges of the content. `lookBack` and `lookAhead` are these
loops, with no answer if they go on for ever. They always answer, since a read outside the
content gives the boundary byte, and no blank is that.
-/

namespace MatlabEdit

/-- A loop ends with the round that answers. -/
theorem fix_eq_of_inl {α β : Type} {round : α →. β ⊕ α} {a : α} {b : β}
    (h : round a = Part.some (.inl b)) : round.fix a = Part.some b :=
  Part.eq_some_iff.mpr (PFun.fix_stop (Part.eq_some_iff.mp h))

/-- And goes on behind any other. -/
theorem fix_eq_of_inr {α β : Type} {round : α →. β ⊕ α} {a a' : α}
    (h : round a = Part.some (.inr a')) : round.fix a = round.fix a' :=
  PFun.fix_fwd_eq (Part.eq_some_iff.mp h)

/-- Whether a place lies on the segment, or at its end. -/
def Segment.Spans (segment : Segment) (i : Nat) : Prop :=
  segment.start ≤ i ∧ i ≤ segment.start + segment.bytes.length

instance (segment : Segment) (i : Nat) : Decidable (segment.Spans i) :=
  inferInstanceAs (Decidable (_ ∧ _))

variable {s : Source}

/-! ## The segment of a place -/

namespace Cursor.Ahead

variable {c : Cursor s} {segments : List Segment} {segment other : Segment}

theorem pos_le_start (h : c.Ahead segments) : ∀ segment ∈ segments, c.pos ≤ segment.start := by
  induction h with
  | last hc =>
    intro segment hsegment
    rw [List.mem_singleton.mp hsegment]
  | cons hc _ ih =>
    intro segment hsegment
    rcases List.mem_cons.mp hsegment with rfl | hsegment
    · exact Nat.le_refl _
    · have hle := ih segment hsegment
      rw [hc.next_line.2.1] at hle
      omega

/-- No place is on two segments: behind the end of one there is a byte, and then the next starts. -/
theorem eq_of_spans {i : Nat} (h : c.Ahead segments) (hsegment : segment ∈ segments)
    (hother : other ∈ segments) (hi : segment.Spans i) (hi' : other.Spans i) : segment = other := by
  have hapart : ∀ {c : Cursor s} {line tail : List UInt8} {b : UInt8} {later : List Segment},
      c.AtLine line (b :: tail) → (c.forward (line.length + 1)).Ahead later →
        ∀ x ∈ later, (Segment.mk c.pos line).Spans i → ¬ x.Spans i := by
    intro c line tail b later hc hlater x hx hfirst hspans
    have hle := hlater.pos_le_start x hx
    rw [hc.next_line.2.1] at hle
    exact absurd (Nat.le_trans (Nat.le_trans hle hspans.1) hfirst.2) (Nat.not_succ_le_self _)
  induction h with
  | last _ => rw [List.mem_singleton.mp hsegment, List.mem_singleton.mp hother]
  | cons hc hlater ih =>
    rcases List.mem_cons.mp hsegment with rfl | hsegment <;>
      rcases List.mem_cons.mp hother with rfl | hother
    · rfl
    · exact absurd hi' (hapart hc hlater _ hother hi)
    · exact absurd hi (hapart hc hlater _ hsegment hi')
    · exact ih hsegment hother

end Cursor.Ahead

namespace Source

variable {segment other : Segment} {d : Cursor s}

/-- Every place of the content lies on a segment, and all of the segment is around it. -/
theorem exists_segment (d : Cursor s) :
    ∃ segment ∈ s.segments, segment.Spans d.pos ∧ ∃ (e : Cursor s) (tail : List UInt8),
      e.AtLine segment.bytes tail ∧ d.pos - segment.start ≤ segment.bytes.length ∧
        d = e.forward (d.pos - segment.start) := by
  obtain ⟨before, line, tail, later, e, hsegments, hline, _, n, hn, rfl⟩ :=
    (Cursor.ahead_segments s).exists_segment d.contentStart_le_pos
  have hpos := hline.pos_forward hn
  have hdiff : (e.forward n).pos - (Segment.mk e.pos line).start = n := by
    rw [hpos, Nat.add_sub_cancel_left]
  refine ⟨⟨e.pos, line⟩, ?_, ⟨?_, ?_⟩, e, tail, hline, by rwa [hdiff], by rw [hdiff]⟩
  · rw [hsegments]
    exact List.mem_append_right _ List.mem_cons_self
  · rw [hpos]
    exact Nat.le_add_right _ _
  · rw [hpos]
    exact Nat.add_le_add_left hn _

theorem segment_unique {i : Nat} (hsegment : segment ∈ s.segments) (hother : other ∈ s.segments)
    (hi : segment.Spans i) (hi' : other.Spans i) : segment = other :=
  (Cursor.ahead_segments s).eq_of_spans hsegment hother hi hi'

/-- The segment of a place, seen from its start. -/
theorem atLine_of_spans (hsegment : segment ∈ s.segments) (hd : segment.Spans d.pos) :
    ∃ (e : Cursor s) (tail : List UInt8), e.AtLine segment.bytes tail ∧
      d.pos - segment.start ≤ segment.bytes.length ∧ d = e.forward (d.pos - segment.start) := by
  obtain ⟨other, hother, hspans, hline⟩ := exists_segment d
  rwa [segment_unique hother hsegment hspans hd] at hline

end Source

/-! ## Looking around -/

namespace Cursor

variable {c d : Cursor s} {segment : Segment}

/-- A look behind, byte by byte for as long as it reads blanks. -/
def lookBack (c : Cursor s) : Part Bool :=
  PFun.fix (fun c : Cursor s => Part.some
    (if Byte.isLineEnd (c.peek (-1)) then .inl true
    else if Byte.isBlank (c.peek (-1)) then .inr (c.moveBy (-1))
    else .inl false)) c

/-- A look ahead, byte by byte for as long as it reads blanks. -/
def lookAhead (c : Cursor s) : Part Bool :=
  PFun.fix (fun c : Cursor s => Part.some
    (if Byte.isLineEnd (c.peek 0) then .inl true
    else if Byte.isBlank (c.peek 0) then .inr c.advance
    else .inl false)) c

theorem peek_neg_one_of_lt (h : s.contentStart < c.pos) : c.peek (-1) = (c.prev h).current := by
  have hpos : (c.pos : Int) + -1 = (c.pos - 1 : Nat) := by omega
  rw [current_eq_byteAt, pos_prev, peek, hpos]

/-- In front of the content there is nothing to read. -/
theorem peek_neg_one_of_le (h : c.pos ≤ s.contentStart) : c.peek (-1) = Byte.boundary := by
  unfold peek
  split
  · rename_i i hi
    have hlt : (i : Int) < s.contentStart := by
      rw [← Int.ofNat_eq_natCast, ← hi]
      omega
    exact Source.byteAt_of_lt_contentStart (Int.ofNat_lt.mp hlt)
  · rfl

theorem pos_lt_size_of_not_isLineEnd (h : ¬ Byte.isLineEnd c.current = true) : c.pos < s.size :=
  pos_lt_size_of_current_ne fun hcur => h (by rw [hcur]; exact Byte.isLineEnd_boundary)

theorem moveBy_neg_one (h : s.contentStart < c.pos) : c.moveBy (-1) = c.prev h := by
  have hpos : ((c.pos : Int) + -1).toNat = (c.prev h).pos := by
    rw [pos_prev]
    omega
  rw [moveBy, hpos, moveTo_pos]

/-- One round of a look behind. -/
theorem precededByBlanks_eq (c : Cursor s) :
    c.precededByBlanks =
      if Byte.isLineEnd (c.peek (-1)) then true
      else if Byte.isBlank (c.peek (-1)) then (c.moveBy (-1)).precededByBlanks
      else false := by
  rw [precededByBlanks]
  split
  · rename_i h
    rw [peek_neg_one_of_lt h, moveBy_neg_one h]
  · rename_i h
    rw [peek_neg_one_of_le (Nat.not_lt.mp h), Byte.isLineEnd_boundary, if_pos rfl]

/-- A look behind has somewhere to go as long as it reads no line end. -/
theorem pos_moveBy_neg_one_lt (h : ¬ Byte.isLineEnd (c.peek (-1)) = true) :
    (c.moveBy (-1)).pos < c.pos := by
  rcases Nat.lt_or_ge s.contentStart c.pos with hlt | hge
  · rw [moveBy_neg_one hlt, pos_prev]
    omega
  · rw [peek_neg_one_of_le hge, Byte.isLineEnd_boundary] at h
    exact absurd rfl h

theorem size_sub_advance_lt (h : c.pos < s.size) : s.size - c.advance.pos < s.size - c.pos := by
  rw [advance_of_lt h, pos_next]
  omega

/-- One round of a look ahead. -/
theorem followedByBlanks_eq (c : Cursor s) :
    c.followedByBlanks =
      if Byte.isLineEnd (c.peek 0) then true
      else if Byte.isBlank (c.peek 0) then c.advance.followedByBlanks
      else false := by
  rw [peek_zero]
  split_ifs with hend hblank
  · exact followedByBlanks_of_isLineEnd hend
  · have hlt := pos_lt_size_of_not_isLineEnd hend
    rw [advance_of_lt hlt, followedByBlanks_of_isBlank hlt hblank]
  · exact followedByBlanks_of_neg (Bool.eq_false_iff.mpr hend) (Bool.eq_false_iff.mpr hblank)

/-- **A look behind comes to an end**, by induction on the place. -/
theorem lookBack_eq_some (c : Cursor s) : c.lookBack = Part.some c.precededByBlanks := by
  induction hpos : c.pos using Nat.strongRecOn generalizing c with
  | ind n ih =>
    rw [precededByBlanks_eq]
    split_ifs with hend hblank
    · exact fix_eq_of_inl (by rw [if_pos hend])
    · have hlt : (c.moveBy (-1)).pos < n := by
        rw [← hpos]
        exact pos_moveBy_neg_one_lt hend
      exact (fix_eq_of_inr (by rw [if_neg hend, if_pos hblank])).trans (ih _ hlt _ rfl)
    · exact fix_eq_of_inl (by rw [if_neg hend, if_neg hblank])

/-- **So does a look ahead**, by induction on what is left of the document. -/
theorem lookAhead_eq_some (c : Cursor s) : c.lookAhead = Part.some c.followedByBlanks := by
  induction hleft : s.size - c.pos using Nat.strongRecOn generalizing c with
  | ind n ih =>
    rw [followedByBlanks_eq]
    split_ifs with hend hblank
    · exact fix_eq_of_inl (by rw [if_pos hend])
    · have hlt := size_sub_advance_lt (pos_lt_size_of_not_isLineEnd (by rwa [peek_zero] at hend))
      rw [hleft] at hlt
      exact (fix_eq_of_inr (by rw [if_neg hend, if_pos hblank])).trans (ih _ hlt _ rfl)
    · exact fix_eq_of_inl (by rw [if_neg hend, if_neg hblank])

/-! ## On a segment -/

theorem precededByBlanks_iff (hsegment : segment ∈ s.segments) (hc : segment.Spans c.pos) :
    c.precededByBlanks = true ↔
      ∀ b ∈ segment.bytes.take (c.pos - segment.start), Byte.isBlank b = true := by
  obtain ⟨e, tail, hline, hn, hplace⟩ := Source.atLine_of_spans hsegment hc
  rw [← List.all_eq_true, ← hline.precededByBlanks_forward hn, ← hplace]

theorem followedByBlanks_iff (hsegment : segment ∈ s.segments) (hc : segment.Spans c.pos) :
    c.followedByBlanks = true ↔
      ∀ b ∈ segment.bytes.drop (c.pos - segment.start), Byte.isBlank b = true := by
  obtain ⟨e, tail, hline, hn, hplace⟩ := Source.atLine_of_spans hsegment hc
  have hahead := followedByBlanks_of_rest hline.tail (hline.rest_forward hn)
    fun b hb => hline.line b (List.mem_of_mem_drop hb)
  rw [← List.all_eq_true, ← hahead, ← hplace]

/-- What a delimiter leaves of its segment is blank. -/
theorem isDelimiter_iff_alone (hsegment : segment ∈ s.segments) (hc : segment.Spans c.pos)
    {brace : UInt8} (hbrace : Byte.isLineEnd brace = false) :
    c.isDelimiter brace = true ↔
      ∃ before after, segment.bytes = before ++ Byte.percent :: brace :: after ∧
        before.length = c.pos - segment.start ∧ (∀ b ∈ before, Byte.isBlank b = true) ∧
        ∀ b ∈ after, Byte.isBlank b = true := by
  obtain ⟨e, tail, hline, hn, hplace⟩ := Source.atLine_of_spans hsegment hc
  have hbefore := precededByBlanks_iff hsegment hc
  constructor
  · intro h
    obtain ⟨after, hdrop⟩ :=
      exists_of_isDelimiter (hline.rest_forward hn) hline.tail hbrace (hplace ▸ h)
    obtain ⟨_, _, hback, hahead⟩ := isDelimiter_iff.mp h
    rw [hplace, hline.followedByBlanks_forward hn hdrop, List.all_eq_true] at hahead
    refine ⟨segment.bytes.take (c.pos - segment.start), after, ?_, List.length_take_of_le hn,
      hbefore.mp hback, hahead⟩
    rw [← hdrop, List.take_append_drop]
  · rintro ⟨before, after, hbytes, hlength, hback, hahead⟩
    have htake : segment.bytes.take (c.pos - segment.start) = before := by
      rw [hbytes, ← hlength, List.take_left]
    have hdrop : segment.bytes.drop (c.pos - segment.start) = Byte.percent :: brace :: after := by
      rw [hbytes, ← hlength, List.drop_left]
    have hrest : c.rest = Byte.percent :: brace :: after ++ tail := by
      rw [hplace, hline.rest_forward hn, hdrop]
    refine isDelimiter_iff.mpr ⟨?_, ?_, ?_, ?_⟩
    · rw [peek_zero, current_eq_headD, hrest]
      rfl
    · rw [peek_one, hrest]
      rfl
    · rw [hbefore, htake]
      exact hback
    · rw [hplace, hline.followedByBlanks_forward hn hdrop, List.all_eq_true]
      exact hahead

/-- A delimiter stands at the ink of its segment. -/
theorem pos_eq_ink (hsegment : segment ∈ s.segments) (hc : segment.Spans c.pos)
    (h : c.opensBlock = true ∨ c.closesBlock = true) : c.pos = segment.ink := by
  obtain ⟨e, tail, hline, hn, hplace⟩ := Source.atLine_of_spans hsegment hc
  have hindent : c.pos - segment.start = Byte.indent segment.bytes := by
    rw [hplace] at h
    rcases h with hopen | hclose
    · exact ((opensBlock_forward_iff hline hn).mp hopen).1
    · exact ((closesBlock_forward_iff hline hn).mp hclose).1
  rw [Segment.ink, ← hindent, Nat.add_sub_cancel' hc.1]

end Cursor

/-- **A delimiter stands alone on its segment.** Every place lies on one segment; both looks around
it come to an end, and find what the segment holds before and behind the place; and no segment
holds two delimiters. -/
theorem Source.delimiters_alone (s : Source) :
    (∀ c : Cursor s, ∃! segment, segment ∈ s.segments ∧ segment.Spans c.pos) ∧
      ∀ segment ∈ s.segments,
        (∀ c : Cursor s, segment.Spans c.pos →
          c.lookBack = Part.some c.precededByBlanks ∧ c.lookAhead = Part.some c.followedByBlanks ∧
          (c.precededByBlanks = true ↔
            ∀ b ∈ segment.bytes.take (c.pos - segment.start), Byte.isBlank b = true) ∧
          (c.followedByBlanks = true ↔
            ∀ b ∈ segment.bytes.drop (c.pos - segment.start), Byte.isBlank b = true) ∧
          ∀ brace, Byte.isLineEnd brace = false →
            (c.isDelimiter brace = true ↔
              ∃ before after, segment.bytes = before ++ Byte.percent :: brace :: after ∧
                before.length = c.pos - segment.start ∧
                (∀ b ∈ before, Byte.isBlank b = true) ∧ ∀ b ∈ after, Byte.isBlank b = true)) ∧
        ∀ c d : Cursor s, segment.Spans c.pos → segment.Spans d.pos →
          (c.opensBlock = true ∨ c.closesBlock = true) →
          (d.opensBlock = true ∨ d.closesBlock = true) → c = d := by
  refine ⟨fun c => ?_, fun segment hsegment => ⟨fun c hc => ?_, ?_⟩⟩
  · obtain ⟨segment, hsegment, hspans, _⟩ := Source.exists_segment c
    exact ⟨segment, ⟨hsegment, hspans⟩, fun other hother =>
      Source.segment_unique hother.1 hsegment hother.2 hspans⟩
  · exact ⟨c.lookBack_eq_some, c.lookAhead_eq_some, Cursor.precededByBlanks_iff hsegment hc,
      Cursor.followedByBlanks_iff hsegment hc,
      fun _ hbrace => Cursor.isDelimiter_iff_alone hsegment hc hbrace⟩
  · intro c d hc hd hdelc hdeld
    exact Cursor.ext ((Cursor.pos_eq_ink hsegment hc hdelc).trans
      (Cursor.pos_eq_ink hsegment hd hdeld).symm)

/-- A mark is in front of the first segment, and a NUL byte ends it. -/
theorem Source.delimiters_alone_behind_mark :
    let s := Source.ofString "\uFEFF  %\x7b \x00%\x7d\n"
    let segment : Segment := ⟨3, [0x20, 0x20, Byte.percent, Byte.openBrace, 0x20]⟩
    let c := s.cursor.moveTo 5
    segment ∈ s.segments ∧ segment.Spans c.pos ∧ Byte.isLineEnd Byte.openBrace = false ∧
      (c.isDelimiter Byte.openBrace = true ↔
        ∃ before after, segment.bytes = before ++ Byte.percent :: Byte.openBrace :: after ∧
          before.length = c.pos - segment.start ∧
          (∀ b ∈ before, Byte.isBlank b = true) ∧ ∀ b ∈ after, Byte.isBlank b = true) ∧
      c.opensBlock = true ∧ (s.cursor.forward 2).opensBlock = true ∧ c = s.cursor.forward 2 := by
  intro s segment c
  have hsegment : segment ∈ s.segments := by decide +kernel
  have hc : segment.Spans c.pos := by decide +kernel
  have hd : segment.Spans (s.cursor.forward 2).pos := by decide +kernel
  have hbrace : Byte.isLineEnd Byte.openBrace = false := by decide
  have hopen : c.opensBlock = true := by decide +kernel
  have hopen' : (s.cursor.forward 2).opensBlock = true := by decide +kernel
  obtain ⟨hat, hone⟩ := s.delimiters_alone.2 segment hsegment
  exact ⟨hsegment, hc, hbrace, (hat c hc).2.2.2.2 _ hbrace, hopen, hopen',
    hone _ _ hc hd (.inl hopen) (.inl hopen')⟩

end MatlabEdit
