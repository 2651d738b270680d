import MatlabEdit.Proofs.NestingDepth

/-!
# A scanner of plain words

The rules for comments and the two questions of a scanner, asked of a machine's cursor. Each rule
works on a copy of the cursor, and what it finds is a pair of words. The machine answers every
question, with the words of the answer that the scanner gives: `comment?_raw` for a comment right
here, `next?_raw` for the next span. It can ask for spans until there are none, and that comes to
an end (`run_raw`).

The one word that is moved to is the end of a span. It is the place of a cursor, so it is within
the document and no clamp changes it.
-/

namespace MatlabEdit

/-- A span as a machine has it. -/
structure RawSpan where
  start : UInt32
  stop : UInt32
  kind : SpanKind

/-- The words of a span. -/
def Span.raw (span : Span) : RawSpan := ⟨UInt32.ofNat span.start, UInt32.ofNat span.stop, span.kind⟩

/-! ## The rules -/

namespace RawCursor

/-- The span from a cursor up to another. -/
def spanTo (c : RawCursor) (kind : SpanKind) (stop : RawCursor) : RawSpan := ⟨c.pos, stop.pos, kind⟩

/-- The magic at the cursor, if the phase allows one and one stands there. -/
def magic? (phase : Phase) (c : RawCursor) : Part (Option RawSpan) := do
  if !phase.allowsMagic || c.peek 0 != Byte.percent || c.peek 1 != Byte.percent then return none
  let behind ← c.moveBy 2
  let name ← behind.skipBlanks
  if !Byte.isLetter (← name.current) then return none
  return some (c.spanTo .magic (← name.toBreak))

/-- The block comment that opens at the cursor. -/
def blockComment? (c : RawCursor) : Part (Option RawSpan) := do
  if ← c.isDelimiter Byte.openBrace then return some (c.spanTo .blockComment (← c.blockStop))
  return none

/-- The rest of the line as a comment. -/
def lineComment (c : RawCursor) : Part RawSpan := do
  return c.spanTo .lineComment (← c.toBreak)

end RawCursor

namespace CommentRule

/-- What the rule makes of the text at a machine's cursor, and the phase from there on. -/
def applyRaw (rule : CommentRule) (phase : Phase) (c : RawCursor) : Part (Option RawSpan × Phase) :=
  match rule with
  | magic => do return (← c.magic? phase, phase)
  | block => do
    match ← c.blockComment? with
    | some span => return (some span, phase.confirm)
    | none => return (none, phase)
  | line => do return (some (← c.lineComment), phase.confirm)

/-- What the first matching rule of a list makes of it. -/
def firstMatchRaw (rules : List CommentRule) (phase : Phase) (c : RawCursor) :
    Part (Option RawSpan × Phase) :=
  match rules with
  | [] => return (none, phase)
  | rule :: rest => do
    match ← rule.applyRaw phase c with
    | (some span, phase') => return (some span, phase')
    | (none, phase') => firstMatchRaw rest phase' c

end CommentRule

/-! ## The scanner -/

/-- A place in a document as a machine has it, and what is known there about its phase. -/
structure RawScanner where
  cursor : RawCursor
  phase : Phase

namespace RawScanner

/-- The comment or magic at the cursor, with the scanner behind it. -/
def comment? (t : RawScanner) : Part (Option RawSpan × RawScanner) := do
  if t.cursor.isAtEnd then return (none, t)
  let b ← t.cursor.current
  if b != Byte.percent then
    return (none,
      ⟨t.cursor, if Byte.isBlank b || Byte.isLineEnd b then t.phase else t.phase.confirm⟩)
  match ← CommentRule.firstMatchRaw CommentRule.all t.phase t.cursor with
  | (some span, phase) => return (some span, ⟨← t.cursor.moveTo span.stop, phase⟩)
  | (none, phase) => return (none, ⟨t.cursor, phase⟩)

/-- The next span, with the scanner behind it. -/
def next? (t : RawScanner) : Part (Option RawSpan × RawScanner) := do
  let c ← t.cursor.skipBlankLines
  if c.isAtEnd then return (none, ⟨c, t.phase⟩)
  match ← comment? ⟨c, t.phase⟩ with
  | (some span, t') => return (some span, t')
  | (none, t') =>
    let first ← t'.cursor.advance
    let stop ← first.skipCode
    return (some (t'.cursor.spanTo .code stop), ⟨stop, t'.phase⟩)

/-- One call of a run, behind the spans that it has found so far. -/
def ask (found : List RawSpan × RawScanner) : Part (List RawSpan ⊕ List RawSpan × RawScanner) := do
  match ← found.2.next? with
  | (some span, t) => return .inr (found.1 ++ [span], t)
  | (none, _) => return .inl found.1

/-- All spans from here on. -/
def run (t : RawScanner) : Part (List RawSpan) := PFun.fix ask ([], t)

end RawScanner

variable {s : Source}

/-- The words of a scanner. -/
def Scanner.raw (t : Scanner s) : RawScanner := ⟨t.cursor.raw, t.phase⟩

/-! ## They agree with those of a scanner -/

section Agree

variable (hs : s.size < UInt32.size)
include hs

namespace RawCursor

variable {c : Cursor s}

theorem magic?_raw (phase : Phase) :
    c.raw.magic? phase = .some ((c.magic? phase).map Span.raw) := by
  rw [magic?, peek_zero_raw hs, peek_one_raw hs, Cursor.magic?, Cursor.isMagicStart]
  by_cases hallowed :
      (phase.allowsMagic && (c.peek 0 == Byte.percent && c.peek 1 == Byte.percent)) = true
  · have hread :
        ¬ (!phase.allowsMagic || c.peek 0 != Byte.percent || c.peek 1 != Byte.percent) = true := by
      simpa [bne, and_assoc] using hallowed
    rw [if_neg hread, bind_of_eq_some (moveBy_two_raw hs), bind_of_eq_some (skipBlanks_raw hs),
      bind_of_eq_some (current_raw hs), ← Bool.and_assoc, hallowed, Bool.true_and]
    cases hletter : Byte.isLetter (c.moveBy 2).skipBlanks.current with
    | false => rfl
    | true =>
      rw [if_neg (by decide), if_pos rfl, bind_of_eq_some (toBreak_raw hs)]
      rfl
  · have hread :
        (!phase.allowsMagic || c.peek 0 != Byte.percent || c.peek 1 != Byte.percent) = true := by
      rw [← Bool.not_eq_false']
      simpa [bne, Bool.not_or, Bool.and_assoc] using hallowed
    rw [if_pos hread, ← Bool.and_assoc, Bool.eq_false_iff.mpr hallowed, Bool.false_and]
    rfl

theorem blockComment?_raw : c.raw.blockComment? = .some (c.blockComment?.map Span.raw) := by
  rw [blockComment?, bind_of_eq_some (opensBlock_raw hs), Cursor.blockComment?]
  by_cases hopen : c.opensBlock = true
  · rw [if_pos hopen, if_pos hopen, bind_of_eq_some (blockStop_raw hs hopen)]
    rfl
  · rw [if_neg hopen, if_neg hopen]
    rfl

theorem lineComment_raw : c.raw.lineComment = .some c.lineComment.raw := by
  rw [lineComment, bind_of_eq_some (toBreak_raw hs)]
  rfl

end RawCursor

namespace CommentRule

variable {c : Cursor s}

theorem applyRaw_eq (rule : CommentRule) (phase : Phase) :
    rule.applyRaw phase c.raw = .some ((rule.apply phase c).map (Option.map Span.raw) id) := by
  cases rule with
  | magic =>
    rw [applyRaw, bind_of_eq_some (RawCursor.magic?_raw hs phase)]
    rfl
  | block =>
    rw [applyRaw, bind_of_eq_some (RawCursor.blockComment?_raw hs), apply]
    cases c.blockComment? with
    | some span => rfl
    | none => rfl
  | line =>
    rw [applyRaw, bind_of_eq_some (RawCursor.lineComment_raw hs)]
    rfl

theorem firstMatchRaw_eq (rules : List CommentRule) : ∀ phase : Phase,
    firstMatchRaw rules phase c.raw
      = .some ((firstMatch rules phase c).map (Option.map Span.raw) id) := by
  induction rules with
  | nil => exact fun _ => rfl
  | cons rule rest ih =>
    intro phase
    rw [firstMatchRaw, bind_of_eq_some (applyRaw_eq hs rule phase), firstMatch]
    cases hrule : rule.apply phase c with
    | mk span phase' =>
      cases span with
      | some span => rfl
      | none => exact ih phase'

end CommentRule

namespace RawScanner

variable {t : Scanner s}

/-- The end of a span is in the document, so a move there is not clamped. -/
theorem moveTo_stop {span : Span} {t' : Scanner s} (h : t.comment? = (some span, t')) :
    t.cursor.raw.moveTo span.raw.stop = .some (t.cursor.moveTo span.stop).raw := by
  have hstop : span.stop ≤ s.size := by
    rw [(Scanner.comment?_some h).2.2]
    exact t'.cursor.pos_le_size
  have hword : span.raw.stop.toNat = span.stop :=
    UInt32.toNat_ofNat_of_lt' (Nat.lt_of_le_of_lt hstop hs)
  rw [RawCursor.moveTo_raw hs, hword]

theorem comment?_raw :
    t.raw.comment? = .some (t.comment?.map (Option.map Span.raw) Scanner.raw) := by
  have hcursor : t.raw.cursor = t.cursor.raw := rfl
  have hphase : t.raw.phase = t.phase := rfl
  rw [comment?, Scanner.comment?, hcursor, RawCursor.isAtEnd_raw hs]
  by_cases hend : t.cursor.isAtEnd = true
  · rw [if_pos hend, if_pos hend]
    rfl
  rw [if_neg hend, if_neg hend, bind_of_eq_some (RawCursor.current_raw hs)]
  by_cases hsign : (t.cursor.current == Byte.percent) = true
  · rw [if_neg (by simpa [bne] using hsign), if_pos hsign, hphase,
      bind_of_eq_some (CommentRule.firstMatchRaw_eq hs CommentRule.all t.phase)]
    cases hmatch : CommentRule.firstMatch CommentRule.all t.phase t.cursor with
    | mk span phase =>
      cases span with
      | none => rfl
      | some span =>
        have hcomment : t.comment? = (some span, ⟨t.cursor.moveTo span.stop, phase⟩) := by
          rw [Scanner.comment?, if_neg hend, if_pos hsign, hmatch]
        dsimp only [Prod.map, Option.map]
        rw [bind_of_eq_some (moveTo_stop hs hcomment)]
        rfl
  · rw [if_pos (by simpa [bne] using hsign), if_neg hsign]
    rfl

theorem next?_raw : t.raw.next? = .some (t.next?.map (Option.map Span.raw) Scanner.raw) := by
  have hcursor : t.raw.cursor = t.cursor.raw := rfl
  rw [next?, hcursor, bind_of_eq_some (RawCursor.skipBlankLines_raw hs),
    RawCursor.isAtEnd_raw hs, Scanner.next?]
  dsimp only
  by_cases hend : t.cursor.skipBlankLines.isAtEnd = true
  · rw [if_pos hend, if_pos hend]
    rfl
  have hcomment : comment? ⟨t.cursor.skipBlankLines.raw, t.raw.phase⟩ = _ :=
    comment?_raw hs (t := ⟨t.cursor.skipBlankLines, t.phase⟩)
  rw [if_neg hend, if_neg hend, bind_of_eq_some hcomment]
  cases Scanner.comment? ⟨t.cursor.skipBlankLines, t.phase⟩ with
  | mk span t' =>
    cases span with
    | some span => rfl
    | none =>
      have hadvance : t'.raw.cursor.advance = .some t'.cursor.advance.raw :=
        RawCursor.advance_raw hs
      dsimp only [Prod.map, Option.map]
      rw [bind_of_eq_some hadvance, bind_of_eq_some (RawCursor.skipCode_raw hs)]
      rfl

/-- By induction on the calls that a run makes. -/
theorem fix_ask_raw (t : Scanner s) : ∀ found : List RawSpan,
    PFun.fix ask (found, t.raw) = .some (found ++ t.run.1.map Span.raw) := by
  fun_induction Scanner.run t with
  | case1 t span t' hnext spans last hrun ih =>
    intro found
    have hcall : t.raw.next? = .some (some span.raw, t'.raw) := by
      rw [next?_raw hs, hnext]
      rfl
    rw [hrun] at ih
    refine (fix_eq_of_inr ?_).trans ((ih (found ++ [span.raw])).trans ?_)
    · exact bind_of_eq_some hcall _
    · rw [List.append_assoc]
      rfl
  | case2 t t' hnext =>
    intro found
    have hcall : t.raw.next? = .some (none, t'.raw) := by
      rw [next?_raw hs, hnext]
      rfl
    refine (fix_eq_of_inl ?_).trans (congrArg Part.some (List.append_nil found).symm)
    exact bind_of_eq_some hcall _

theorem run_raw (t : Scanner s) : t.raw.run = .some (t.run.1.map Span.raw) := fix_ask_raw hs t []

end RawScanner

end Agree

end MatlabEdit
