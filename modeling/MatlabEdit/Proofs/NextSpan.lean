import MatlabEdit.Proofs.ScanLine

/-!
# The next span, in one place

`next?` passes over blank lines and then tries one rule after the other, and each
rule makes the span in its own way. Said of the place behind the blank lines, the
answer has three parts: the byte there and the phase settle what kind of span it
is (`kindIn`), the kind settles where the span stops (`stopOf`), and both settle
the phase behind it (`phaseBehind`). What is true of every span is proved of these
three, and `next?_of_lt` carries it over.

A scanner that is asked again and again is `after`; what it answers is the list that
`run` puts together, and then nothing for good (`answer_eq_getElem?`).
-/

namespace MatlabEdit

namespace Cursor

variable {s : Source}

/-- The kind of the span that starts at a cursor. -/
def kindIn (phase : Phase) (c : Cursor s) : SpanKind :=
  if c.current = Byte.percent then
    if phase.allowsMagic && c.isMagicStart then .magic
    else if c.opensBlock then .blockComment
    else .lineComment
  else .code

/-- Where a span of this kind stops that starts at a cursor. -/
def stopOf (c : Cursor s) : SpanKind → Cursor s
  | .magic => c.toBreak
  | .blockComment => (OpenBlock.opened c).finish
  | .lineComment => c.toBreak
  | .code => c.codeStop

/-- The phase behind a span of this kind that starts at a cursor. A NUL byte counts as a line end,
and code that starts with one leaves the phase alone. -/
def phaseBehind (phase : Phase) (c : Cursor s) : SpanKind → Phase
  | .magic => phase
  | .blockComment => .body
  | .lineComment => .body
  | .code => if Byte.isLineEnd c.current then phase else .body

/-- The span that starts at a cursor. -/
def spanIn (phase : Phase) (c : Cursor s) : Span :=
  c.spanTo (c.kindIn phase) (c.stopOf (c.kindIn phase))

/-- The scanner behind that span. -/
def scannerBehind (phase : Phase) (c : Cursor s) : Scanner s :=
  ⟨c.stopOf (c.kindIn phase), c.phaseBehind phase (c.kindIn phase)⟩

variable {c : Cursor s}

theorem kindIn_of_ne {phase : Phase} (h : c.current ≠ Byte.percent) : c.kindIn phase = .code :=
  if_neg h

theorem current_of_kindIn {phase : Phase} (h : c.kindIn phase ≠ .code) :
    c.current = Byte.percent := by
  by_contra hne
  exact h (kindIn_of_ne hne)

theorem kindIn_eq_magic_iff {phase : Phase} :
    c.kindIn phase = .magic ↔ phase = .preamble ∧ c.isMagicStart = true := by
  constructor
  · intro h
    have hsign := current_of_kindIn (by rw [h]; decide)
    rw [kindIn, if_pos hsign] at h
    split at h
    · rename_i hm
      obtain ⟨hallows, hstart⟩ := Bool.and_eq_true_iff.mp hm
      refine ⟨?_, hstart⟩
      cases phase with
      | preamble => rfl
      | body => exact absurd hallows (by decide)
    · split at h <;> exact absurd h (by decide)
  · rintro ⟨rfl, hstart⟩
    have hsign : c.current = Byte.percent := by
      unfold isMagicStart at hstart
      simp only [Bool.and_eq_true, beq_iff_eq, peek_zero] at hstart
      exact hstart.1.1
    rw [kindIn, if_pos hsign, if_pos (by rw [hstart]; rfl)]

theorem opensBlock_of_kindIn {phase : Phase} (h : c.kindIn phase = .blockComment) :
    c.opensBlock = true := by
  have hne : c.kindIn phase ≠ .code := by
    rw [h]
    decide
  have hsign := current_of_kindIn hne
  rw [kindIn, if_pos hsign] at h
  split at h
  · exact absurd h (by decide)
  · split at h
    · assumption
    · exact absurd h (by decide)

/-- The bytes that a magic starts with are on the way to the end of its line. -/
theorem toBreak_of_isMagicStart (h : c.isMagicStart = true) :
    (c.moveBy 2).skipBlanks.toBreak = c.toBreak := by
  unfold isMagicStart at h
  simp only [Bool.and_eq_true, beq_iff_eq, peek_zero] at h
  obtain ⟨⟨hfirst, hsecond⟩, _⟩ := h
  have hlt : c.pos < s.size := pos_lt_size_of_current_ne (by rw [hfirst]; decide)
  rw [peek_one, rest_of_lt hlt, List.drop_one, List.tail_cons, ← current_eq_headD] at hsecond
  have hlt' : (c.next hlt).pos < s.size := pos_lt_size_of_current_ne (by rw [hsecond]; decide)
  have hpass : (!Byte.isBreak Byte.percent) = true := by decide
  have htwo : c.moveBy 2 = (c.next hlt).next hlt' := by
    rw [moveBy_two, next_eq_forward, next_eq_forward, forward_forward]
  rw [toBreak_skipBlanks, htwo, toBreak, toBreak,
    skipWhile_of_pos hlt (by rw [hfirst]; exact hpass),
    skipWhile_of_pos hlt' (by rw [hsecond]; exact hpass)]

/-- Behind the blank lines the document is over, or something starts there. -/
theorem isSkipped_skipBlankLines (h : c.skipBlankLines.isAtEnd = false) :
    isSkipped c.skipBlankLines.current = false := by
  rcases skipWhile_stops (fun b => Byte.isBlank b || Byte.isBreak b) c with he | hb
  · rw [skipBlankLines, he] at h
    exact absurd h (by decide)
  · exact hb

theorem skipBlankLines_of_isAtEnd (h : c.isAtEnd = true) : c.skipBlankLines = c :=
  skipWhile_of_isAtEnd h

/-- Blank lines are passed only once. -/
theorem skipBlankLines_skipBlankLines (c : Cursor s) :
    c.skipBlankLines.skipBlankLines = c.skipBlankLines := by
  cases he : c.skipBlankLines.isAtEnd with
  | true => exact skipBlankLines_of_isAtEnd he
  | false => exact skipWhile_of_neg (isSkipped_skipBlankLines he)

end Cursor

namespace Scanner

open Cursor

variable {s : Source} {t t' : Scanner s} {span : Span}

/-- **At a comment sign, the span that starts there is handed out.** The kind of it is settled by
the first rule that matches. -/
theorem comment?_of_sign (hsign : t.cursor.current = Byte.percent) :
    t.comment? = (some (t.cursor.spanIn t.phase), t.cursor.scannerBehind t.phase) := by
  obtain ⟨c, phase⟩ := t
  dsimp only at hsign
  rw [comment?_of_eq hsign]
  dsimp only
  by_cases hm : (phase.allowsMagic && c.isMagicStart) = true
  · have hkind : c.kindIn phase = .magic := by rw [kindIn, if_pos hsign, if_pos hm]
    have hstop := toBreak_of_isMagicStart (Bool.and_eq_true_iff.mp hm).2
    have hmagic : c.magic? phase = some (c.spanTo .magic c.toBreak) := by
      rw [magic?, if_pos hm, hstop]
    rw [hmagic, spanIn, scannerBehind, hkind]
    dsimp only
    rw [show (c.spanTo .magic c.toBreak).stop = c.toBreak.pos from rfl, moveTo_pos]
    rfl
  · have hmagic : c.magic? phase = none := by rw [magic?, if_neg hm]
    rw [hmagic]
    dsimp only
    by_cases hb : c.opensBlock = true
    · have hkind : c.kindIn phase = .blockComment := by
        rw [kindIn, if_pos hsign, if_neg hm, if_pos hb]
      rw [blockComment?, if_pos hb, spanIn, scannerBehind, hkind]
      dsimp only
      rw [show (c.spanTo .blockComment (OpenBlock.opened c).finish).stop
        = (OpenBlock.opened c).finish.pos from rfl, moveTo_pos]
      rfl
    · have hkind : c.kindIn phase = .lineComment := by
        rw [kindIn, if_pos hsign, if_neg hm, if_neg hb]
      rw [blockComment?, if_neg hb, spanIn, scannerBehind, hkind]
      dsimp only
      rw [show c.lineComment.stop = c.toBreak.pos from rfl, moveTo_pos]
      rfl

theorem next?_of_isAtEnd (h : t.cursor.skipBlankLines.isAtEnd = true) :
    t.next? = (none, ⟨t.cursor.skipBlankLines, t.phase⟩) := by
  unfold next?
  exact if_pos h

/-- **The next span starts where the blank lines end.** -/
theorem next?_of_lt (h : t.cursor.skipBlankLines.isAtEnd = false) :
    t.next? = (some (t.cursor.skipBlankLines.spanIn t.phase),
      t.cursor.skipBlankLines.scannerBehind t.phase) := by
  have hskip := isSkipped_skipBlankLines h
  unfold next?
  dsimp only
  rw [if_neg (by rw [h]; decide)]
  generalize t.cursor.skipBlankLines = c at h hskip
  by_cases hsign : c.current = Byte.percent
  · rw [comment?_of_sign hsign]
  · have hblank : Byte.isBlank c.current = false := (Bool.or_eq_false_iff.mp hskip).1
    rw [comment?_of_ne h hsign, spanIn, scannerBehind, kindIn_of_ne hsign]
    dsimp only
    rw [phaseWithoutComment]
    dsimp only
    rw [hblank, Bool.false_or]
    rfl

/-- What a call says, put the other way round. -/
theorem next?_eq_some_iff :
    t.next? = (some span, t') ↔
      t.cursor.skipBlankLines.isAtEnd = false ∧
        t.cursor.skipBlankLines.spanIn t.phase = span ∧
        t.cursor.skipBlankLines.scannerBehind t.phase = t' := by
  cases he : t.cursor.skipBlankLines.isAtEnd with
  | true => simp [next?_of_isAtEnd he]
  | false => simp [next?_of_lt he]

/-! ## One call after the other -/

/-- The scanner after `n` calls. -/
def after (t : Scanner s) : Nat → Scanner s
  | 0 => t
  | n + 1 => t.next?.2.after n

/-- What the call answers that comes after the first `n`. -/
def answer (t : Scanner s) (n : Nat) : Option Span := (t.after n).next?.1

theorem after_succ_of_eq {a : Option Span} (h : t.next? = (a, t')) (n : Nat) :
    t.after (n + 1) = t'.after n := by
  rw [after, h]

theorem answer_succ_of_eq {a : Option Span} (h : t.next? = (a, t')) (n : Nat) :
    t.answer (n + 1) = t'.answer n := by
  rw [answer, answer, after_succ_of_eq h]

/-- The last call is the last one of the others. -/
theorem after_succ (t : Scanner s) (n : Nat) : t.after (n + 1) = (t.after n).next?.2 := by
  induction n generalizing t with
  | zero => rfl
  | succ n ih => exact ih t.next?.2

/-- A scanner that has answered nothing stays as it is. -/
theorem next?_of_none (h : t.next? = (none, t')) : t'.next? = (none, t') := by
  cases he : t.cursor.skipBlankLines.isAtEnd with
  | false =>
    rw [next?_of_lt he] at h
    exact absurd (Prod.mk.inj h).1 (by simp)
  | true =>
    rw [next?_of_isAtEnd he] at h
    have ht := (Prod.mk.inj h).2
    have hend : t'.cursor.skipBlankLines.isAtEnd = true := by
      rw [← ht]
      dsimp only
      rw [skipBlankLines_skipBlankLines, he]
    rw [next?_of_isAtEnd hend, ← ht]
    dsimp only
    rw [skipBlankLines_skipBlankLines]

theorem after_of_none (h : t.next? = (none, t')) (n : Nat) : t.after (n + 1) = t' := by
  induction n with
  | zero => rw [after_succ_of_eq h, after]
  | succ n ih => rw [after_succ, ih, next?_of_none h]

/-- **Asked again and again, a scanner answers the spans of its run, and nothing ever after.** -/
theorem answer_eq_getElem? (t : Scanner s) (n : Nat) : t.answer n = t.run.1[n]? := by
  fun_induction run t generalizing n with
  | case1 t span t' h spans last hrun ih =>
    cases n with
    | zero =>
      show t.next?.1 = some span
      rw [h]
    | succ n =>
      rw [answer_succ_of_eq h, ih, hrun]
      rfl
  | case2 t t' h =>
    show (t.after n).next?.1 = none
    cases n with
    | zero =>
      show t.next?.1 = none
      rw [h]
    | succ n => rw [after_of_none h, next?_of_none h]

end Scanner

end MatlabEdit
