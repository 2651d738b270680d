import MatlabEdit.Proofs.Aligned
import MatlabEdit.Proofs.TameText

/-!
# Starting again at a line

A document can be scanned in two parts, cut behind any line feed, if no block comment
is open there. The spans of the second part are those that it has as a document of its
own, in the phase that the first part leaves (`run_append_line`). If a block comment is
open at the cut, it is the last span of the first part, and in the whole document it
starts at the same place and goes on.

All of this is said of aligned cursors first. A step of reading a block comment is the
same in both documents (`step_aligned`), so is a whole call of the scanner
(`next?_aligned`), and the run is an induction on the calls.
-/

namespace MatlabEdit

open Cursor

/-- The span as it stands in a document where everything is `n` bytes further on. -/
def Span.shift (n : Nat) (span : Span) : Span := ⟨⟨span.start + n, span.stop + n⟩, span.kind⟩

@[simp] theorem Span.shift_zero (span : Span) : span.shift 0 = span := rfl

variable {s s' : Source} {shift : Nat} {more : List UInt8}

/-! ## Block comments -/

namespace OpenBlock

/-- Reading goes on from one state to a later one. -/
inductive Reads : OpenBlock s → OpenBlock s → Prop where
  | refl (b : OpenBlock s) : Reads b b
  | step {b b' b'' : OpenBlock s} : b.step = .inl b' → Reads b' b'' → Reads b b''

theorem depth_pos_of_step {b b' : OpenBlock s} (h : b.step = .inl b') (hpos : 0 < b.depth) :
    0 < b'.depth := by
  rcases step_eq_inl h with ⟨_, hdepth, rfl⟩ | ⟨_, rfl⟩ | ⟨_, _, rfl⟩
  · show 0 < b.depth - 1
    omega
  · exact Nat.succ_pos _
  · exact hpos

/-- Reading ends at the end of the document with a delimiter still to be closed, or at the
delimiter that closes the last one. -/
theorem exists_reads (b : OpenBlock s) (hpos : 0 < b.depth) :
    ∃ b', Reads b b' ∧ 0 < b'.depth ∧
      (b'.cursor.isAtEnd = true ∧ b.finish = b'.cursor ∨
        b'.cursor.closesBlock = true ∧ b.finish = b'.cursor.forward 2) := by
  fun_induction finish b with
  | case1 b b' h ih =>
    obtain ⟨last, hreads, hlast⟩ := ih (depth_pos_of_step h hpos)
    exact ⟨last, .step h hreads, hlast⟩
  | case2 b c h =>
    refine ⟨b, .refl b, hpos, ?_⟩
    unfold step at h
    split at h
    · rename_i he
      cases h
      exact .inl ⟨he, rfl⟩
    · split at h
      · rename_i hclose
        split at h
        · cases h
          exact .inr ⟨hclose, rfl⟩
        · cases h
      · split at h <;> cases h

end OpenBlock

namespace Cursor

variable {c : Cursor s} {d : Cursor s'}

/-- A block comment opens at the cursor, and at the end of the document it is still open. -/
def Unterminated (c : Cursor s) : Prop :=
  c.opensBlock = true ∧
    ∃ b, OpenBlock.Reads (OpenBlock.opened c) b ∧ b.cursor.isAtEnd = true ∧ 0 < b.depth

/-- In a document that ends with a line feed, a block comment that runs to the end is open there. -/
theorem unterminated_of_isAtEnd (hline : s.EndsLine) (hopen : c.opensBlock = true)
    (he : (OpenBlock.opened c).finish.isAtEnd = true) : c.Unterminated := by
  refine ⟨hopen, ?_⟩
  obtain ⟨b, hreads, hpos, ⟨hend, _⟩ | ⟨hclose, hfinish⟩⟩ :=
    (OpenBlock.opened c).exists_reads Nat.one_pos
  · exact ⟨b, hreads, hend, hpos⟩
  · -- behind a delimiter that closes there is at least the line feed
    have hin : (b.cursor.moveBy 2).Inside [0x0A] :=
      inside_of_isDelimiter (.inr hline) (by decide) hclose
    rw [hfinish] at he
    exact absurd (hin he) (by decide)

end Cursor

namespace OpenBlock

variable {b : OpenBlock s} {d : Cursor s'}

/-- **A step of reading is the same in both documents.** -/
theorem step_aligned (hseam : s.Seam more) (h : b.cursor.Aligned shift more d)
    (he : b.cursor.isAtEnd = false) :
    (∃ b' d', b.step = .inl b' ∧ (mk b.depth d).step = .inl ⟨b'.depth, d'⟩ ∧
        b'.cursor.Aligned shift more d') ∨
      ∃ c' d', b.step = .inr c' ∧ (mk b.depth d).step = .inr d' ∧ c'.Aligned shift more d' := by
  have hin : b.cursor.Inside more := inside_of_lt he
  have he' : d.isAtEnd = false := (h.isAtEnd hin).trans he
  have hclose := h.closesBlock hseam hin
  have hopen := h.opensBlock hseam hin
  by_cases hc : b.cursor.closesBlock = true
  · have htwo := h.moveBy_two_of_isDelimiter hseam (by decide) hc
    have hin' := inside_of_isDelimiter hseam (by decide) hc
    by_cases hd : b.depth = 1
    · refine .inr ⟨b.cursor.moveBy 2, d.moveBy 2, ?_, ?_, htwo⟩
      · simp [step, he, hc, hd]
      · simp [step, he', hclose, hc, hd]
    · refine .inl ⟨⟨b.depth - 1, (b.cursor.moveBy 2).advance⟩, (d.moveBy 2).advance, ?_, ?_, ?_⟩
      · simp [step, he, hc, hd]
      · simp [step, he', hclose, hc, hd]
      · rw [advance_eq_forward, advance_eq_forward]
        exact htwo.forward_one hin'
  · have hadvance : b.cursor.advance.Aligned shift more d.advance := by
      rw [advance_eq_forward, advance_eq_forward]
      exact h.forward_one hin
    by_cases ho : b.cursor.opensBlock = true
    · refine .inl ⟨⟨b.depth + 1, b.cursor.advance⟩, d.advance, ?_, ?_, hadvance⟩
      · simp [step, he, hc, ho]
      · simp [step, he', hclose, hc, hopen, ho]
    · refine .inl ⟨⟨b.depth, b.cursor.advance⟩, d.advance, ?_, ?_, hadvance⟩
      · simp [step, he, hc, ho]
      · simp [step, he', hclose, hc, hopen, ho]

/-- Reading ends at the same place in both documents, unless it ends with the first one. Then it
gets at least as far in the other. -/
theorem finish_aligned (hseam : s.Seam more) (b : OpenBlock s) :
    ∀ {d : Cursor s'}, b.cursor.Aligned shift more d →
      b.finish.pos + shift ≤ (mk b.depth d).finish.pos ∧
        (b.finish.Inside more → b.finish.Aligned shift more (mk b.depth d).finish) := by
  fun_induction finish b with
  | case1 b b' hstep ih =>
    intro d h
    have he : b.cursor.isAtEnd = false := isAtEnd_eq_false_iff.mpr (pos_lt_of_step hstep).1
    rcases step_aligned hseam h he with ⟨b₁, d', hb, hd, halign⟩ | ⟨c', d', hb, hd, _⟩
    · rw [hstep] at hb
      obtain rfl := Sum.inl.inj hb
      rw [finish_of_step_inl hd]
      exact ih halign
    · rw [hstep] at hb
      cases hb
  | case2 b c hstep =>
    intro d h
    cases he : b.cursor.isAtEnd with
    | true =>
      have hc : c = b.cursor := by
        rw [← finish_of_step_inr hstep]
        exact finish_of_isAtEnd he
      rw [hc]
      refine ⟨?_, ?_⟩
      · rw [← h.pos]
        exact (mk b.depth d).pos_le_pos_finish
      · intro hin
        rw [finish_of_isAtEnd ((h.isAtEnd hin).trans he)]
        exact h
    | false =>
      rcases step_aligned hseam h he with ⟨b', d', hb, hd, _⟩ | ⟨c', d', hb, hd, halign⟩
      · rw [hstep] at hb
        cases hb
      · rw [hstep] at hb
        obtain rfl := Sum.inr.inj hb
        rw [finish_of_step_inr hd]
        exact ⟨Nat.le_of_eq halign.pos.symm, fun _ => halign⟩

end OpenBlock

/-! ## The next span -/

namespace Cursor

variable {c : Cursor s} {d : Cursor s'}

/-- Only a block comment can run over a line feed. -/
theorem inside_stopOf (hseam : s.Seam more) (hin : c.Inside more) (hne : c.current ≠ 0x0A)
    {kind : SpanKind} (hkind : kind ≠ .blockComment) : (c.stopOf kind).Inside more := by
  cases kind with
  | magic => exact hin.skipWhile hseam (by decide)
  | blockComment => exact absurd rfl hkind
  | lineComment => exact hin.skipWhile hseam (by decide)
  | code =>
    show c.codeStop.Inside more
    rw [codeStop, advance_eq_forward]
    exact (hin.forward_one hseam hne).skipWhile hseam (by decide)

/-- A span stops at the same place in both documents, unless it stops where the first one ends. Then
it gets at least as far in the other. -/
theorem Aligned.stopOf (h : c.Aligned shift more d) (hseam : s.Seam more) (hin : c.Inside more)
    (hne : c.current ≠ 0x0A) (phase : Phase) :
    (c.stopOf (c.kindIn phase)).pos + shift ≤ (d.stopOf (c.kindIn phase)).pos ∧
      ((c.stopOf (c.kindIn phase)).Inside more →
        (c.stopOf (c.kindIn phase)).Aligned shift more (d.stopOf (c.kindIn phase))) := by
  cases hkind : c.kindIn phase with
  | magic =>
    have hin' : (c.stopOf .magic).Inside more := inside_stopOf hseam hin hne (by decide)
    have halign := h.skipWhile hin'
    exact ⟨Nat.le_of_eq halign.pos.symm, fun _ => halign⟩
  | lineComment =>
    have hin' : (c.stopOf .lineComment).Inside more := inside_stopOf hseam hin hne (by decide)
    have halign := h.skipWhile hin'
    exact ⟨Nat.le_of_eq halign.pos.symm, fun _ => halign⟩
  | code =>
    have hadvance : c.advance.Aligned shift more d.advance := by
      rw [advance_eq_forward, advance_eq_forward]
      exact h.forward_one hin
    have hin' : (c.stopOf .code).Inside more := inside_stopOf hseam hin hne (by decide)
    have halign := hadvance.skipWhile hin'
    exact ⟨Nat.le_of_eq halign.pos.symm, fun _ => halign⟩
  | blockComment =>
    exact OpenBlock.finish_aligned hseam (OpenBlock.opened c)
      (h.moveBy_two_of_isDelimiter hseam (by decide) (opensBlock_of_kindIn hkind))

end Cursor

namespace Scanner

variable {t t' : Scanner s} {d : Cursor s'} {span : Span}

theorem ne_of_isSkipped {b : UInt8} (h : isSkipped b = false) : b ≠ 0x0A := by
  rintro rfl
  exact absurd h (by decide)

/-- **The next span is the same in both documents**, and so is what the scanner does from there on,
unless the span stops where the first document ends. -/
theorem next?_aligned (hseam : s.Seam more) (h : t.cursor.Aligned shift more d)
    (hnext : t.next? = (some span, t')) :
    ∃ d', next? ⟨d, t.phase⟩ = (some ⟨⟨span.start + shift, d'.pos⟩, span.kind⟩, ⟨d', t'.phase⟩) ∧
      span.stop + shift ≤ d'.pos ∧
      (t'.cursor.Inside more → t'.cursor.Aligned shift more d' ∧ d'.pos = span.stop + shift) := by
  obtain ⟨he, rfl, rfl⟩ := next?_eq_some_iff.mp hnext
  have hin : t.cursor.skipBlankLines.Inside more := inside_of_lt he
  have halign : t.cursor.skipBlankLines.Aligned shift more d.skipBlankLines := h.skipWhile hin
  have hne := ne_of_isSkipped (isSkipped_skipBlankLines he)
  have hnext' : next? ⟨d, t.phase⟩ = _ := next?_of_lt ((halign.isAtEnd hin).trans he)
  obtain ⟨hle, hstop⟩ := halign.stopOf hseam hin hne t.phase
  rw [spanIn, scannerBehind, halign.kindIn hseam hin, halign.phaseBehind hin] at hnext'
  refine ⟨_, hnext'.trans ?_, hle, fun hin' => ⟨hstop hin', (hstop hin').pos⟩⟩
  rw [spanTo, halign.pos]
  rfl

/-- In a document that ends with a line feed, a span that stops at the end is a block comment that
is still open there. -/
theorem unterminated_of_next? (hline : s.EndsLine) (hnext : t.next? = (some span, t'))
    (hstop : span.stop = s.size) :
    span.kind = .blockComment ∧ ∃ c : Cursor s, c.pos = span.start ∧ c.Unterminated := by
  obtain ⟨he, rfl, rfl⟩ := next?_eq_some_iff.mp hnext
  have hend := isAtEnd_iff.mpr hstop
  have hkind : t.cursor.skipBlankLines.kindIn t.phase = .blockComment := by
    by_contra hne
    have hfeed := ne_of_isSkipped (isSkipped_skipBlankLines he)
    have hin : (t.cursor.skipBlankLines.stopOf _).Inside [0x0A] :=
      inside_stopOf (.inr hline) (inside_of_lt he) hfeed hne
    exact absurd (hin hend) (by decide)
  refine ⟨hkind, t.cursor.skipBlankLines, rfl, ?_⟩
  rw [hkind] at hend
  exact unterminated_of_isAtEnd hline (opensBlock_of_kindIn hkind) hend

/-! ## All spans -/

theorem run_snd_of_isAtEnd {c : Cursor s} (h : c.isAtEnd = true) (phase : Phase) :
    (run ⟨c, phase⟩).2.phase = phase := by
  rw [run_of_none (next?_of_isAtEnd (t := ⟨c, phase⟩) (by rw [skipBlankLines_of_isAtEnd h, h]))]

/-- **Both runs are the same up to the end of the first document**, if no span stops there. -/
theorem run_aligned (hseam : s.Seam more) (t : Scanner s) :
    ∀ {d e : Cursor s'}, t.cursor.Aligned shift more d → e.pos = s.size + shift →
      (more = [] ∨ ∀ span ∈ t.run.1, span.stop ≠ s.size) →
      run ⟨d, t.phase⟩ = (t.run.1.map (Span.shift shift) ++ (run ⟨e, t.run.2.phase⟩).1,
        (run ⟨e, t.run.2.phase⟩).2) := by
  fun_induction run t with
  | case1 t span t' hnext spans last hrun ih =>
    intro d e h he hstops
    obtain ⟨_, _, hstop⟩ := next?_some hnext
    have hin : t'.cursor.Inside more := by
      intro hend
      rcases hstops with hmore | hstops
      · exact hmore
      · exact absurd (hstop.trans (isAtEnd_iff.mp hend)) (hstops span List.mem_cons_self)
    obtain ⟨d', hnext', _, halign⟩ := next?_aligned hseam h hnext
    obtain ⟨halign, hpos⟩ := halign hin
    have htail := ih halign he (hstops.imp_right fun hstops span hspan => by
      rw [hrun] at hspan
      exact hstops span (List.mem_cons_of_mem _ hspan))
    rw [run_of_some hnext', htail, hpos, hrun]
    rfl
  | case2 t t' hnext =>
    intro d e h he _
    obtain ⟨hend, hphase⟩ := next?_none hnext
    -- all that is left of the first document is passed over
    have hblank : ∀ b ∈ t.cursor.rest, isSkipped b = true := by
      cases hskip : t.cursor.skipBlankLines.isAtEnd with
      | false =>
        rw [next?_of_lt hskip] at hnext
        cases hnext
      | true =>
        have hnil := rest_of_isAtEnd hskip
        rwa [rest_skipBlankLines, List.dropWhile_eq_nil_iff] at hnil
    have heq : d.forward t.cursor.rest.length = e := by
      refine Cursor.ext ?_
      have hle := t.cursor.pos_le_size
      have hle' := e.pos_le_size
      rw [pos_forward, length_rest, h.pos]
      omega
    rw [run_eq_of_blanks h.rest hblank, heq, hphase]
    rfl

/-- Where nothing comes behind either document, both have the same spans. -/
theorem run_aligned_nil {t : Scanner s} {d : Cursor s'} (h : t.cursor.Aligned shift [] d)
    (hsize : s'.size = s.size + shift) :
    (run ⟨d, t.phase⟩).1 = t.run.1.map (Span.shift shift) ∧
      (run ⟨d, t.phase⟩).2.phase = t.run.2.phase := by
  have hrun : run ⟨d, t.phase⟩
      = (t.run.1.map (Span.shift shift) ++ (run ⟨s'.cursorAtEnd, t.run.2.phase⟩).1,
        (run ⟨s'.cursorAtEnd, t.run.2.phase⟩).2) :=
    run_aligned (.inl rfl) t h hsize (.inl rfl)
  rw [hrun, run_of_isAtEnd isAtEnd_cursorAtEnd, List.append_nil]
  exact ⟨rfl, run_snd_of_isAtEnd isAtEnd_cursorAtEnd _⟩

/-- **A span that stops at the end of the first document** is its last one, a block comment that is
open there, and it goes on in the second document. -/
theorem run_aligned_of_stop (hline : s.EndsLine) (t : Scanner s) {last : Span}
    (hstop : last.stop = s.size) :
    ∀ {d : Cursor s'}, t.cursor.Aligned shift more d → last ∈ t.run.1 →
      ∃ earlier stop rest, t.run.1 = earlier ++ [last] ∧ last.kind = .blockComment ∧
        (∃ c : Cursor s, c.pos = last.start ∧ c.Unterminated) ∧ s.size + shift ≤ stop ∧
        (run ⟨d, t.phase⟩).1 = earlier.map (Span.shift shift)
          ++ ⟨⟨last.start + shift, stop⟩, .blockComment⟩ :: rest := by
  fun_induction run t with
  | case1 t span t' hnext spans final hrun ih =>
    intro d h hmem
    obtain ⟨d', hnext', hle, halign⟩ := next?_aligned (.inr hline) h hnext
    have hspans : t'.run.1 = spans := congrArg Prod.fst hrun
    obtain ⟨_, _, hpos⟩ := next?_some hnext
    cases hend : t'.cursor.isAtEnd with
    | true =>
      -- nothing comes behind this span
      have hnil : spans = [] := hspans.symm.trans (run_of_isAtEnd hend t'.phase)
      subst hnil
      obtain rfl : last = span := List.mem_singleton.mp hmem
      obtain ⟨hkind, hopen⟩ := unterminated_of_next? hline hnext hstop
      rw [hstop] at hle
      refine ⟨[], d'.pos, (run ⟨d', t'.phase⟩).1, rfl, hkind, hopen, hle, ?_⟩
      rw [run_of_some hnext', hkind]
      rfl
    | false =>
      obtain ⟨halign, hpos'⟩ := halign (inside_of_lt hend)
      have hne : last ≠ span := by
        rintro rfl
        have hlt := isAtEnd_eq_false_iff.mp hend
        omega
      have hmem' : last ∈ t'.run.1 := by
        rw [hspans]
        exact (List.mem_cons.mp hmem).resolve_left hne
      obtain ⟨earlier, stop, rest, hsplit, hkind, hopen, hle, htail⟩ := ih halign hmem'
      rw [hspans] at hsplit
      refine ⟨span :: earlier, stop, rest, ?_, hkind, hopen, hle, ?_⟩
      · show span :: spans = span :: earlier ++ [last]
        rw [hsplit]
        rfl
      · rw [run_of_some hnext', htail, hpos']
        rfl
  | case2 t t' hnext =>
    intro d _ hmem
    exact absurd hmem List.not_mem_nil

end Scanner

/-! ## Texts -/

theorem Cursor.precededByBlanks_of_prev {c : Cursor s}
    (h : ∀ hlt, Byte.isLineEnd (c.prev hlt).current = true) : c.precededByBlanks = true := by
  rw [precededByBlanks]
  split
  · rename_i hlt
    exact if_pos (h hlt)
  · rfl

namespace Source

theorem byteList_ofString (text : String) : (ofString text).byteList = encode text.toList := by
  have hbytes := toUTF8_ofList text.toList
  rw [String.ofList_toList] at hbytes
  rwa [byteList, ofString, bytes_ofBytes]

theorem size_ofString (text : String) : (ofString text).size = (encode text.toList).length := by
  rw [← length_byteList, byteList_ofString]

theorem contentStart_ofString (text : String) :
    (ofString text).contentStart = (Outline.content (encode text.toList)).1 := by
  rw [← byteList_ofString, byteList, ofString, bytes_ofBytes, content_eq]
  rfl

end Source

theorem prefix_append_cons_iff {α : Type} {mark front back : List α} {x : α} (h : x ∉ mark) :
    mark <+: front ++ x :: back ↔ mark <+: front := by
  constructor
  · rintro ⟨tail, htail⟩
    rcases List.append_eq_append_iff.mp htail with ⟨as, rfl, _⟩ | ⟨as, rfl, hback⟩
    · exact List.prefix_append _ _
    · cases as with
      | nil => exact ⟨[], by rw [List.append_nil, List.append_nil]⟩
      | cons y as =>
        obtain ⟨rfl, _⟩ := List.cons.inj hback
        exact absurd (List.mem_append_right _ List.mem_cons_self) h
  · exact fun hmark => hmark.trans (List.prefix_append _ _)

theorem content_fst (bytes : List UInt8) :
    (Outline.content bytes).1 = if [0xEF, 0xBB, 0xBF] <+: bytes then 3 else 0 := by
  unfold Outline.content
  split
  · rw [if_pos ⟨_, rfl⟩]
  · rename_i hne
    rw [if_neg]
    rintro ⟨rest, rfl⟩
    exact hne rest rfl

theorem encode_line (a : String) : encode (a ++ "\n").toList = encode a.toList ++ [0x0A] := by
  rw [String.toList_append, encode_append]
  rfl

/-- The bytes of a text with a line end and another text behind it. -/
theorem encode_append_line (a b : String) :
    encode (a ++ "\n" ++ b).toList = encode a.toList ++ 0x0A :: encode b.toList := by
  rw [String.toList_append, encode_append, encode_line, List.append_assoc]
  rfl

namespace Source

variable (a b : String)

theorem byteList_append_line :
    (ofString (a ++ "\n" ++ b)).byteList = (ofString (a ++ "\n")).byteList ++ encode b.toList := by
  rw [byteList_ofString, byteList_ofString, encode_append_line, encode_line, List.append_assoc]
  rfl

theorem contentStart_append_line :
    (ofString (a ++ "\n" ++ b)).contentStart = (ofString (a ++ "\n")).contentStart := by
  rw [contentStart_ofString, contentStart_ofString, content_fst, content_fst, encode_append_line,
    encode_line]
  congr 1
  rw [prefix_append_cons_iff (by decide), prefix_append_cons_iff (by decide)]

theorem endsLine_append_line : (ofString (a ++ "\n")).EndsLine := by
  intro x hx
  rw [byteList_ofString, encode_line, List.getLast?_append] at hx
  exact (Option.some.inj hx).symm

theorem size_append_line :
    (ofString (a ++ "\n" ++ b)).size = (ofString (a ++ "\n")).size + (ofString b).size := by
  rw [← length_byteList, ← length_byteList, byteList_append_line, List.length_append, size_ofString]

/-- A document that goes on behind a line. -/
theorem cursor_aligned :
    (ofString (a ++ "\n")).cursor.Aligned 0 (encode b.toList)
      (ofString (a ++ "\n" ++ b)).cursor where
  pos := contentStart_append_line a b
  rest := by
    have hle := (ofString (a ++ "\n")).contentStart_le
    rw [rest, rest, pos_cursor, pos_cursor, contentStart_append_line, byteList_append_line,
      List.drop_append_of_le_length (by rwa [length_byteList])]
  behind := by rw [precededByBlanks_cursor, precededByBlanks_cursor]

/-- A text that starts with no byte order mark is content from its first byte on. -/
theorem contentStart_of_unmarked {text : String} (h : text.toList.head? ≠ some '\uFEFF') :
    (ofString text).contentStart = 0 := by
  rw [contentStart_ofString, content_encode h]

/-- The second part of the document, and the same text as a document of its own. -/
theorem cursor_aligned_behind (hb : b.toList.head? ≠ some '\uFEFF')
    {e : Cursor (ofString (a ++ "\n" ++ b))} (he : e.pos = (ofString (a ++ "\n")).size) :
    (ofString b).cursor.Aligned (ofString (a ++ "\n")).size [] e := by
  have hstart := contentStart_of_unmarked hb
  have hsize : (ofString (a ++ "\n")).size = (encode a.toList).length + 1 := by
    rw [size_ofString, encode_line, List.length_append]
    rfl
  refine ⟨?_, ?_, ?_⟩
  · rw [he, pos_cursor, hstart, Nat.zero_add]
  · rw [rest, rest, he, pos_cursor, hstart, byteList_append_line, ← length_byteList, List.drop_left,
      byteList_ofString, List.drop_zero, List.append_nil]
  · rw [precededByBlanks_cursor]
    refine precededByBlanks_of_prev fun hlt => ?_
    have hrest : (e.prev hlt).rest = 0x0A :: encode b.toList := by
      rw [rest, pos_prev, he, hsize, Nat.add_sub_cancel, byteList_ofString, encode_append_line,
        List.drop_left]
    rw [current_of_rest_eq_cons hrest]
    rfl

end Source

namespace Scanner

/-- **The scanner can start again at any line.** If no span stops behind the line end, the spans of
the whole are those of the two parts. Otherwise the last span of the first part is a block comment
that is still open there, and in the whole it goes on. -/
theorem run_append_line (a b : String) (hb : b.toList.head? ≠ some '\uFEFF') (phase : Phase) :
    let first := run ⟨(Source.ofString (a ++ "\n")).cursor, phase⟩
    let second := run ⟨(Source.ofString b).cursor, first.2.phase⟩
    let whole := run ⟨(Source.ofString (a ++ "\n" ++ b)).cursor, phase⟩
    let size := (Source.ofString (a ++ "\n")).size
    ((∀ span ∈ first.1, span.stop ≠ size) →
      whole.1 = first.1 ++ second.1.map (Span.shift size) ∧ whole.2.phase = second.2.phase) ∧
    ∀ last ∈ first.1, last.stop = size →
      ∃ earlier stop rest, first.1 = earlier ++ [last] ∧ last.kind = .blockComment ∧
        (∃ c : Cursor (Source.ofString (a ++ "\n")), c.pos = last.start ∧ c.Unterminated) ∧
        size ≤ stop ∧ whole.1 = earlier ++ ⟨⟨last.start, stop⟩, .blockComment⟩ :: rest := by
  intro first second whole size
  have halign := Source.cursor_aligned a b
  have hline := Source.endsLine_append_line a
  have hshift : ∀ spans : List Span, spans.map (Span.shift 0) = spans := fun spans =>
    (List.map_congr_left fun span _ => Span.shift_zero span).trans (List.map_id spans)
  refine ⟨fun hstops => ?_, fun last hlast hstop => ?_⟩
  · have hsize := Source.size_append_line a b
    let e : Cursor (Source.ofString (a ++ "\n" ++ b)) := ⟨size, by
      rw [Source.contentStart_append_line]
      exact Source.contentStart_le _, by omega⟩
    -- first up to the line end, and from there to the end of the whole
    have hfirst : whole = (first.1.map (Span.shift 0) ++ (run ⟨e, first.2.phase⟩).1,
        (run ⟨e, first.2.phase⟩).2) :=
      run_aligned (.inr hline) ⟨_, phase⟩ halign rfl (.inr hstops)
    obtain ⟨hspans, hphase⟩ := run_aligned_nil (t := ⟨_, first.2.phase⟩) (d := e)
      (Source.cursor_aligned_behind a b hb rfl) (hsize.trans (Nat.add_comm _ _))
    rw [hshift, hspans] at hfirst
    rw [hfirst]
    exact ⟨rfl, hphase⟩
  · obtain ⟨earlier, stop, rest, hspans, hkind, hopen, hle, hwhole⟩ :=
      run_aligned_of_stop hline ⟨_, phase⟩ hstop halign hlast
    rw [hshift] at hwhole
    exact ⟨earlier, stop, rest, hspans, hkind, hopen, hle, hwhole⟩

/-- A cut behind code, where a magic cannot come any more, and a cut in a block comment. -/
theorem run_append_line_both :
    ("%% y".toList.head? ≠ some '\uFEFF' ∧ (∀ span ∈ tokenize "%% m\nx\n", span.stop ≠ 7) ∧
      tokenize "%% m\nx\n%% y"
        = [⟨⟨0, 4⟩, .magic⟩, ⟨⟨5, 6⟩, .code⟩] ++ [⟨⟨7, 11⟩, .lineComment⟩]) ∧
    "%\x7d\nz".toList.head? ≠ some '\uFEFF' ∧ ⟨⟨2, 7⟩, .blockComment⟩ ∈ tokenize "x\n%\x7b\ny\n" ∧
      ∃ earlier stop rest, tokenize "x\n%\x7b\ny\n%\x7d\nz"
        = earlier ++ ⟨⟨2, stop⟩, .blockComment⟩ :: rest ∧ 7 ≤ stop := by
  have hparts := (run_append_line "%% m\nx" "%% y" (by decide) .preamble).1 (by decide +kernel)
  have hopen := (run_append_line "x\n%\x7b\ny" "%\x7d\nz" (by decide) .preamble).2
    ⟨⟨2, 7⟩, .blockComment⟩ (by decide +kernel) (by decide +kernel)
  obtain ⟨earlier, stop, rest, _, _, _, hle, hwhole⟩ := hopen
  refine ⟨⟨by decide, by decide +kernel, hparts.1.trans (by decide +kernel)⟩, by decide,
    by decide +kernel, earlier, stop, rest, hwhole, ?_⟩
  have hsize : (Source.ofString ("x\n%\x7b\ny" ++ "\n")).size = 7 := by decide +kernel
  rwa [← hsize]

end Scanner

end MatlabEdit
