import MatlabEdit.Proofs.NextSpan

/-!
# One text in two documents

The scanner looks ahead to the end of a line and back to the start of it. So what it
makes of a text does not depend on the document around the text, where that document
goes on behind a line end: `c` and `d` below are cursors in two documents, from `d` on
there is what is from `c` on and then `more`, and `d` is `shift` bytes further on.

Reading at both gives the same answers as long as `c` has something to read or nothing
is behind it in the other document either (`Inside`). A cursor that is inside stays
inside where it does not pass a line feed (`Inside.forward_one`, `Inside.skipWhile`),
for the text ends with one. Only blank lines and block comments can take it out.
-/

namespace MatlabEdit

/-- The document is empty, or it ends with a line feed. -/
def Source.EndsLine (s : Source) : Prop := ∀ b, s.byteList.getLast? = some b → b = 0x0A

/-- If anything comes behind a document, it comes behind a line feed. -/
def Source.Seam (s : Source) (more : List UInt8) : Prop := more = [] ∨ s.EndsLine

namespace Cursor

variable {s s' : Source} {shift : Nat} {more : List UInt8} {c : Cursor s} {d : Cursor s'}

/-- The same text is ahead of two cursors, and behind it comes `more` in the second document. -/
structure Aligned (shift : Nat) (more : List UInt8) (c : Cursor s) (d : Cursor s') : Prop where
  pos : d.pos = c.pos + shift
  rest : d.rest = c.rest ++ more
  /-- Looking back to the start of the line answers the same. -/
  behind : d.precededByBlanks = c.precededByBlanks

/-- The cursor is not at the end, unless nothing comes behind the end. -/
def Inside (more : List UInt8) (c : Cursor s) : Prop := c.isAtEnd = true → more = []

theorem inside_of_lt (h : c.isAtEnd = false) : c.Inside more := by
  intro he
  rw [h] at he
  cases he

theorem peek_one_eq_current (c : Cursor s) : c.peek 1 = (c.forward 1).current := by
  rw [peek_one, current_eq_headD, rest_forward]

/-! ## Staying inside -/

theorem eq_of_getLast?_rest (h : s.EndsLine) {b : UInt8} (hb : c.rest.getLast? = some b) :
    b = 0x0A := by
  refine h b ?_
  rw [rest, List.getLast?_drop] at hb
  split at hb
  · cases hb
  · exact hb

/-- The last byte of the text is a line feed, and a skip that stops there does not pass it. -/
theorem Inside.skipWhile (h : c.Inside more) (hseam : s.Seam more) {p : UInt8 → Bool}
    (hp : p 0x0A = false) : (c.skipWhile p).Inside more := by
  intro he
  rcases hseam with hmore | hline
  · exact hmore
  · have hnil := rest_of_isAtEnd he
    rw [rest_skipWhile, List.dropWhile_eq_nil_iff] at hnil
    cases hrest : c.rest with
    | nil => exact h (isAtEnd_of_rest_eq_nil hrest)
    | cons b tail =>
      obtain ⟨last, hlast⟩ : ∃ last, c.rest.getLast? = some last := by
        rw [hrest]
        exact ⟨_, List.getLast?_eq_some_getLast (List.cons_ne_nil _ _)⟩
      have hpass := hnil last (List.mem_of_getLast? hlast)
      rw [eq_of_getLast?_rest hline hlast, hp] at hpass
      cases hpass

theorem Inside.forward_one (h : c.Inside more) (hseam : s.Seam more) (hne : c.current ≠ 0x0A) :
    (c.forward 1).Inside more := by
  intro he
  rcases hseam with hmore | hline
  · exact hmore
  · cases hrest : c.rest with
    | nil => exact h (isAtEnd_of_rest_eq_nil hrest)
    | cons b tail =>
      -- the byte at the cursor is the last one
      have htail : tail = [] := by
        have hnil := rest_of_isAtEnd he
        rwa [rest_forward, hrest] at hnil
      have hb := eq_of_getLast?_rest (b := b) hline (by rw [hrest, htail]; rfl)
      rw [current_of_rest_eq_cons hrest] at hne
      exact absurd hb hne

/-- Two bytes that are no line feeds are on the line. -/
theorem Inside.forward_two (h : c.Inside more) (hseam : s.Seam more) (hne : c.current ≠ 0x0A)
    (hne' : (c.forward 1).current ≠ 0x0A) : (c.forward 2).Inside more := by
  have htwo := (h.forward_one hseam hne).forward_one hseam hne'
  rwa [forward_forward] at htwo

theorem ne_of_isDelimiter {brace : UInt8} (hbrace : brace ≠ 0x0A) (h : c.isDelimiter brace = true) :
    c.current ≠ 0x0A ∧ (c.forward 1).current ≠ 0x0A := by
  obtain ⟨hsign, hsecond, _, _⟩ := isDelimiter_iff.mp h
  rw [peek_zero] at hsign
  rw [peek_one_eq_current] at hsecond
  refine ⟨?_, ?_⟩
  · rw [hsign]
    decide
  · rwa [hsecond]

/-- What is behind the two bytes of a delimiter is still on its line. -/
theorem inside_of_isDelimiter (hseam : s.Seam more) {brace : UInt8} (hbrace : brace ≠ 0x0A)
    (h : c.isDelimiter brace = true) : (c.moveBy 2).Inside more := by
  obtain ⟨hne, hne'⟩ := ne_of_isDelimiter hbrace h
  have hlt : c.pos < s.size := pos_lt_size_of_isDelimiter h
  have hin : c.Inside more := inside_of_lt (isAtEnd_eq_false_iff.mpr hlt)
  exact hin.forward_two hseam hne hne'

/-! ## Reading and moving in both documents -/

namespace Aligned

variable (h : c.Aligned shift more d)
include h

theorem isAtEnd (hin : c.Inside more) : d.isAtEnd = c.isAtEnd := by
  cases he : c.isAtEnd with
  | true =>
    refine isAtEnd_of_rest_eq_nil ?_
    rw [h.rest, rest_of_isAtEnd he, hin he]
    rfl
  | false =>
    have hrest := rest_of_lt (isAtEnd_eq_false_iff.mp he)
    have hcons := h.rest
    rw [hrest] at hcons
    exact isAtEnd_eq_false_iff.mpr (pos_lt_of_rest_eq_cons hcons)

theorem current (hin : c.Inside more) : d.current = c.current := by
  rw [current_eq_headD, current_eq_headD, h.rest]
  cases hrest : c.rest with
  | nil =>
    rw [hin (isAtEnd_of_rest_eq_nil hrest)]
    rfl
  | cons b tail => rfl

theorem forward_one (hin : c.Inside more) : (c.forward 1).Aligned shift more (d.forward 1) := by
  cases he : c.isAtEnd with
  | true =>
    have he' := (h.isAtEnd hin).trans he
    rwa [← advance_eq_forward, ← advance_eq_forward, advance_of_isAtEnd he, advance_of_isAtEnd he']
  | false =>
    have hlt := isAtEnd_eq_false_iff.mp he
    have hlt' := isAtEnd_eq_false_iff.mp ((h.isAtEnd hin).trans he)
    have hcur := h.current hin
    rw [← next_eq_forward hlt, ← next_eq_forward hlt']
    refine ⟨?_, ?_, ?_⟩
    · rw [pos_next, pos_next, h.pos]
      omega
    · have hrest := h.rest
      rw [rest_of_lt hlt, rest_of_lt hlt', List.cons_append] at hrest
      exact (List.cons.inj hrest).2
    · -- what stands behind the next byte depends on this one, and on what stands behind it
      by_cases hend : Byte.isLineEnd c.current = true
      · rw [precededByBlanks_next hlt hend, precededByBlanks_next hlt' (by rwa [hcur])]
      · by_cases hblank : Byte.isBlank c.current = true
        · rw [precededByBlanks_next_of_isBlank hlt hblank,
            precededByBlanks_next_of_isBlank hlt' (by rwa [hcur]), h.behind]
        · rw [Bool.not_eq_true] at hend hblank
          rw [precededByBlanks_next_of_neg hlt hend hblank,
            precededByBlanks_next_of_neg hlt' (by rwa [hcur]) (by rwa [hcur])]

theorem forward {n : Nat} (hn : n ≤ c.rest.length) :
    (c.forward n).Aligned shift more (d.forward n) := by
  induction n with
  | zero => rwa [forward_zero, forward_zero]
  | succ n ih =>
    have hin : (c.forward n).Inside more := by
      refine inside_of_lt (isAtEnd_eq_false_iff.mpr ?_)
      rw [length_rest] at hn
      rw [pos_forward]
      omega
    have hone := (ih (by omega)).forward_one hin
    rwa [forward_forward, forward_forward] at hone

theorem skipWhile {p : UInt8 → Bool} (hin : (c.skipWhile p).Inside more) :
    (c.skipWhile p).Aligned shift more (d.skipWhile p) := by
  have hsplit : c.rest = c.rest.takeWhile p ++ c.rest.dropWhile p :=
    List.takeWhile_append_dropWhile.symm
  have hrun : ∀ b ∈ c.rest.takeWhile p, p b = true := fun b hb => List.mem_takeWhile_imp hb
  have hskip := skipWhile_eq_forward hsplit hrun fun b hb => head?_dropWhile_eq_false hb
  have hskip' : d.skipWhile p = d.forward (c.rest.takeWhile p).length := by
    have hrest : d.rest = c.rest.takeWhile p ++ (c.rest.dropWhile p ++ more) := by
      rw [h.rest, ← List.append_assoc, List.takeWhile_append_dropWhile]
    refine skipWhile_eq_forward hrest hrun fun b hb => ?_
    -- the skip in the first document ends before the text does, or both documents end there
    cases hdrop : c.rest.dropWhile p with
    | nil =>
      have he : (c.skipWhile p).isAtEnd = true :=
        isAtEnd_of_rest_eq_nil (by rw [rest_skipWhile, hdrop])
      rw [hdrop, hin he] at hb
      cases hb
    | cons b' tail =>
      rw [hdrop, List.cons_append, List.head?_cons] at hb
      obtain rfl := Option.some.inj hb
      exact head?_dropWhile_eq_false (l := c.rest) (by rw [hdrop]; rfl)
  rw [hskip, hskip']
  exact h.forward (List.takeWhile_prefix p).length_le

theorem followedByBlanks (hseam : s.Seam more) (hin : c.Inside more) :
    d.followedByBlanks = c.followedByBlanks := by
  have hskip : c.skipBlanks.Inside more := hin.skipWhile hseam (by decide)
  rw [Cursor.followedByBlanks, Cursor.followedByBlanks]
  exact congrArg Byte.isLineEnd ((h.skipWhile hskip).current hskip)

theorem forward_two (hin : c.Inside more) (hin' : (c.forward 1).Inside more) :
    (c.forward 2).Aligned shift more (d.forward 2) := by
  have htwo := (h.forward_one hin).forward_one hin'
  rwa [forward_forward, forward_forward] at htwo

theorem peek_one (hseam : s.Seam more) (hin : c.Inside more) (hne : c.current ≠ 0x0A) :
    d.peek 1 = c.peek 1 := by
  rw [peek_one_eq_current, peek_one_eq_current]
  exact (h.forward_one hin).current (hin.forward_one hseam hne)

theorem isDelimiter (hseam : s.Seam more) (hin : c.Inside more) {brace : UInt8}
    (hbrace : brace ≠ 0x0A) : d.isDelimiter brace = c.isDelimiter brace := by
  have hcur := h.current hin
  by_cases hsign : c.current = Byte.percent
  · have hne : c.current ≠ 0x0A := by rw [hsign]; decide
    have hpeek := h.peek_one hseam hin hne
    by_cases hsecond : c.peek 1 = brace
    · have hne' : (c.forward 1).current ≠ 0x0A := by rwa [← peek_one_eq_current, hsecond]
      have htwo := h.forward_two hin (hin.forward_one hseam hne)
      have hin' := hin.forward_two hseam hne hne'
      rw [Cursor.isDelimiter, Cursor.isDelimiter, peek_zero, peek_zero, hcur, hpeek, h.behind,
        moveBy_two, moveBy_two, htwo.followedByBlanks hseam hin']
    · rw [Cursor.isDelimiter, Cursor.isDelimiter, hpeek, beq_eq_false_iff_ne.mpr hsecond]
      simp
  · rw [Cursor.isDelimiter, Cursor.isDelimiter, peek_zero, peek_zero, hcur,
      beq_eq_false_iff_ne.mpr hsign]
    simp

theorem moveBy_two_of_isDelimiter (hseam : s.Seam more) {brace : UInt8} (hbrace : brace ≠ 0x0A)
    (hc : c.isDelimiter brace = true) : (c.moveBy 2).Aligned shift more (d.moveBy 2) := by
  have hlt : c.pos < s.size := pos_lt_size_of_isDelimiter hc
  have hin : c.Inside more := inside_of_lt (isAtEnd_eq_false_iff.mpr hlt)
  exact h.forward_two hin (hin.forward_one hseam (ne_of_isDelimiter hbrace hc).1)

theorem opensBlock (hseam : s.Seam more) (hin : c.Inside more) : d.opensBlock = c.opensBlock :=
  h.isDelimiter hseam hin (by decide)

theorem closesBlock (hseam : s.Seam more) (hin : c.Inside more) : d.closesBlock = c.closesBlock :=
  h.isDelimiter hseam hin (by decide)

theorem isMagicStart (hseam : s.Seam more) (hin : c.Inside more) :
    d.isMagicStart = c.isMagicStart := by
  have hcur := h.current hin
  by_cases hsign : c.current = Byte.percent
  · have hne : c.current ≠ 0x0A := by rw [hsign]; decide
    have hpeek := h.peek_one hseam hin hne
    by_cases hsecond : c.peek 1 = Byte.percent
    · have hne' : (c.forward 1).current ≠ 0x0A := by
        rw [← peek_one_eq_current, hsecond]
        decide
      have htwo := h.forward_two hin (hin.forward_one hseam hne)
      have hin' := hin.forward_two hseam hne hne'
      have hskip : (c.forward 2).skipBlanks.Inside more := hin'.skipWhile hseam (by decide)
      have hletter : (d.forward 2).skipBlanks.current = (c.forward 2).skipBlanks.current :=
        (htwo.skipWhile hskip).current hskip
      rw [Cursor.isMagicStart, Cursor.isMagicStart, peek_zero, peek_zero, hcur, hpeek, moveBy_two,
        moveBy_two, hletter]
    · rw [Cursor.isMagicStart, Cursor.isMagicStart, hpeek, beq_eq_false_iff_ne.mpr hsecond]
      simp
  · rw [Cursor.isMagicStart, Cursor.isMagicStart, peek_zero, peek_zero, hcur,
      beq_eq_false_iff_ne.mpr hsign]
    simp

/-! ## The parts of the next span -/

theorem kindIn (hseam : s.Seam more) (hin : c.Inside more) (phase : Phase) :
    d.kindIn phase = c.kindIn phase := by
  unfold Cursor.kindIn
  rw [h.current hin, h.isMagicStart hseam hin, h.opensBlock hseam hin]

theorem phaseBehind (hin : c.Inside more) (phase : Phase) (kind : SpanKind) :
    d.phaseBehind phase kind = c.phaseBehind phase kind := by
  unfold Cursor.phaseBehind
  rw [h.current hin]

end Aligned

end Cursor

end MatlabEdit
