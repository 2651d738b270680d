import Mathlib.Data.List.Forall2
import MatlabEdit.Proofs.NextSpan

/-!
# The phase only names spans

Where the preamble has a magic, the body has a line comment, and both go to the end of
the line. Everywhere else the two have the same, for two signs in a row are no delimiter.
So a scanner that starts in the body finds the spans that it finds in the preamble
(`run_body`), one for one, and only the magics have another name.
-/

namespace MatlabEdit

/-- What the body of a document has where its preamble has a span of this kind. -/
def SpanKind.inBody : SpanKind → SpanKind
  | magic => lineComment
  | kind => kind

/-- The span as it is in the body of a document. -/
def Span.inBody (span : Span) : Span := ⟨span.toByteRange, span.kind.inBody⟩

namespace Cursor

variable {s : Source}

/-- The second byte of a magic is a sign, and that of a delimiter is a brace. -/
theorem opensBlock_of_isMagicStart {c : Cursor s} (h : c.isMagicStart = true) :
    c.opensBlock = false := by
  unfold isMagicStart at h
  simp only [Bool.and_eq_true, beq_iff_eq] at h
  refine Bool.eq_false_iff.mpr fun hopen => ?_
  have hbrace := (isDelimiter_iff.mp hopen).2.1
  rw [h.1.2] at hbrace
  exact absurd hbrace (by decide)

theorem kindIn_body (phase : Phase) (c : Cursor s) : c.kindIn .body = (c.kindIn phase).inBody := by
  have hbody : (Phase.body.allowsMagic && c.isMagicStart) = false := rfl
  unfold kindIn
  by_cases hsign : c.current = Byte.percent
  · rw [if_pos hsign, if_pos hsign, hbody, if_neg Bool.false_ne_true]
    by_cases hm : (phase.allowsMagic && c.isMagicStart) = true
    · have hopen := opensBlock_of_isMagicStart (Bool.and_eq_true_iff.mp hm).2
      rw [if_pos hm, hopen]
      rfl
    · rw [if_neg hm]
      cases c.opensBlock <;> rfl
  · rw [if_neg hsign, if_neg hsign]
    rfl

/-- A magic and a line comment stop at the end of the line. -/
theorem stopOf_inBody (c : Cursor s) (kind : SpanKind) : c.stopOf kind.inBody = c.stopOf kind := by
  cases kind <;> rfl

theorem spanIn_body (phase : Phase) (c : Cursor s) : c.spanIn .body = (c.spanIn phase).inBody := by
  rw [spanIn, kindIn_body phase, stopOf_inBody]
  rfl

theorem scannerBehind_body (phase : Phase) (c : Cursor s) :
    c.scannerBehind .body = ⟨(c.scannerBehind phase).cursor, .body⟩ := by
  have hphase : ∀ kind, c.phaseBehind .body kind = .body := by
    intro kind
    cases kind with
    | code => exact ite_self _
    | magic => rfl
    | lineComment => rfl
    | blockComment => rfl
  rw [scannerBehind, hphase, kindIn_body phase, stopOf_inBody]
  rfl

end Cursor

namespace Scanner

variable {s : Source}

/-- **One call finds the same in either phase.** -/
theorem next?_body (t : Scanner s) :
    next? ⟨t.cursor, .body⟩ = (t.next?.1.map Span.inBody, ⟨t.next?.2.cursor, .body⟩) := by
  cases he : t.cursor.skipBlankLines.isAtEnd with
  | true =>
    rw [next?_of_isAtEnd he, next?_of_isAtEnd (t := ⟨t.cursor, .body⟩) he]
    rfl
  | false =>
    rw [next?_of_lt he, next?_of_lt (t := ⟨t.cursor, .body⟩) he, Cursor.spanIn_body t.phase,
      Cursor.scannerBehind_body t.phase]
    rfl

/-- And so does a whole run, by induction on its calls. -/
theorem run_body (t : Scanner s) :
    run ⟨t.cursor, .body⟩ = (t.run.1.map Span.inBody, ⟨t.run.2.cursor, .body⟩) := by
  fun_induction run t with
  | case1 t span t' hnext spans last hrun ih =>
    have hbody := next?_body t
    rw [hnext] at hbody
    rw [run_of_some hbody, ih, hrun]
    rfl
  | case2 t t' hnext =>
    have hbody := next?_body t
    rw [hnext] at hbody
    exact run_of_none hbody

/-- **The phase changes what a span is called, never where it is.** From any offset on, a scanner in
the body finds as many spans as one in the preamble, at the same places and of the same kinds, but
for line comments in place of magics. -/
theorem run_phases_alike (s : Source) (i : Nat) :
    List.Forall₂ (fun fresh confirmed : Span =>
        confirmed.start = fresh.start ∧ confirmed.stop = fresh.stop ∧
          confirmed.kind = if fresh.kind = .magic then .lineComment else fresh.kind)
      (run ⟨s.cursor.moveTo i, .preamble⟩).1 (run ⟨s.cursor.moveTo i, .body⟩).1 := by
  have hbody := run_body (s := s) ⟨s.cursor.moveTo i, .preamble⟩
  rw [hbody, List.forall₂_map_right_iff, List.forall₂_same]
  intro span _
  refine ⟨rfl, rfl, ?_⟩
  show span.kind.inBody = _
  cases span.kind <;> rfl

end Scanner

end MatlabEdit
