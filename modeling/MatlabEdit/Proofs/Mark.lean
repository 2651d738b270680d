import MatlabEdit.Proofs.Restart

/-!
# A byte order mark in front

A byte order mark is no part of the content, and looking around stops at it as at the
start of a document. So a text has the same content with a mark as without, three bytes
further on, and the scanner at its start is aligned with the one that reads the text
alone (`cursor_aligned_mark`). Nothing comes behind either of them, and then one call
keeps them aligned whatever it answers (`next?_aligned_nil`).

The text must not start with a mark of its own. Alone it would be skipped, and behind
another mark it is content.
-/

namespace MatlabEdit

open Cursor

variable {s s' : Source} {shift : Nat}

namespace Scanner

variable {t : Scanner s} {d : Cursor s'}

/-- **One call is the same in two documents with the same rest.** -/
theorem next?_aligned_nil (h : t.cursor.Aligned shift [] d) :
    ∃ d', next? ⟨d, t.phase⟩ = (t.next?.1.map (Span.shift shift), ⟨d', t.next?.2.phase⟩) ∧
      t.next?.2.cursor.Aligned shift [] d' := by
  have hinside : ∀ c : Cursor s, c.Inside [] := fun _ _ => rfl
  rcases hnext : t.next? with ⟨_ | span, t'⟩
  · have halign : t.cursor.skipBlankLines.Aligned shift [] d.skipBlankLines :=
      h.skipWhile (hinside _)
    cases he : t.cursor.skipBlankLines.isAtEnd with
    | false =>
      rw [next?_of_lt he] at hnext
      cases hnext
    | true =>
      rw [next?_of_isAtEnd he] at hnext
      obtain ⟨_, rfl⟩ := Prod.mk.inj hnext
      have he' : d.skipBlankLines.isAtEnd = true := (halign.isAtEnd (hinside _)).trans he
      exact ⟨d.skipBlankLines, next?_of_isAtEnd (t := ⟨d, t.phase⟩) he', halign⟩
  · obtain ⟨d', hnext', _, halign⟩ := next?_aligned (.inl rfl) h hnext
    obtain ⟨halign, hpos⟩ := halign (hinside _)
    rw [hpos] at hnext'
    exact ⟨d', hnext', halign⟩

/-- What is known after any number of calls. -/
theorem after_aligned_nil (n : Nat) : ∀ {t : Scanner s} {d : Cursor s'},
    t.cursor.Aligned shift [] d → (after ⟨d, t.phase⟩ n).phase = (t.after n).phase := by
  induction n with
  | zero => exact fun _ => rfl
  | succ n ih =>
    intro t d h
    obtain ⟨d', hnext, halign⟩ := next?_aligned_nil h
    rw [after_succ_of_eq hnext]
    exact ih halign

end Scanner

namespace Source

theorem byteList_mark_append (text : String) :
    (ofString ("\uFEFF" ++ text)).byteList = [0xEF, 0xBB, 0xBF] ++ encode text.toList := by
  rw [byteList_ofString, String.toList_append, encode_append]
  rfl

theorem size_mark_append (text : String) :
    (ofString ("\uFEFF" ++ text)).size = (ofString text).size + 3 := by
  rw [← length_byteList, byteList_mark_append, List.length_append, size_ofString, Nat.add_comm]
  rfl

theorem contentStart_mark_append (text : String) :
    (ofString ("\uFEFF" ++ text)).contentStart = 3 := by
  rw [contentStart_ofString, ← byteList_ofString, byteList_mark_append]
  rfl

/-- The same content, three bytes further on. -/
theorem cursor_aligned_mark {text : String} (h : text.toList.head? ≠ some '\uFEFF') :
    (ofString text).cursor.Aligned 3 [] (ofString ("\uFEFF" ++ text)).cursor := by
  have hstart := contentStart_of_unmarked h
  refine ⟨?_, ?_, ?_⟩
  · rw [pos_cursor, pos_cursor, contentStart_mark_append, hstart]
  · rw [rest, rest, pos_cursor, pos_cursor, contentStart_mark_append, hstart, byteList_mark_append,
      byteList_ofString, List.drop_zero, List.append_nil]
    rfl
  · rw [precededByBlanks_cursor, precededByBlanks_cursor]

end Source

/-- **A byte order mark in front of a text moves its spans by three bytes**, and neither their kinds
nor the phase behind any of them is another. -/
theorem tokenize_mark_append (text : String) (h : text.toList.head? ≠ some '\uFEFF') :
    tokenize ("\uFEFF" ++ text) = (tokenize text).map (Span.shift 3) ∧
      ∀ n, ((Source.ofString ("\uFEFF" ++ text)).scanner.after n).phase
        = ((Source.ofString text).scanner.after n).phase := by
  have halign := Source.cursor_aligned_mark h
  exact ⟨(Scanner.run_aligned_nil (t := (Source.ofString text).scanner) halign
    (Source.size_mark_append text)).1,
    fun n => Scanner.after_aligned_nil n (t := (Source.ofString text).scanner) halign⟩

/-- A delimiter on the first line, and a second mark where it is code. -/
theorem tokenize_mark_append_delimiter :
    " %\x7b\n%\x7d\n\uFEFF".toList.head? ≠ some '\uFEFF' ∧
      tokenize " %\x7b\n%\x7d\n\uFEFF" = [⟨⟨1, 6⟩, .blockComment⟩, ⟨⟨7, 10⟩, .code⟩] ∧
      tokenize ("\uFEFF" ++ " %\x7b\n%\x7d\n\uFEFF")
        = [⟨⟨4, 9⟩, .blockComment⟩, ⟨⟨10, 13⟩, .code⟩] := by
  have hspans : tokenize " %\x7b\n%\x7d\n\uFEFF" = [⟨⟨1, 6⟩, .blockComment⟩, ⟨⟨7, 10⟩, .code⟩] := by
    decide +kernel
  refine ⟨by decide, hspans, ?_⟩
  rw [(tokenize_mark_append " %\x7b\n%\x7d\n\uFEFF" (by decide)).1, hspans]
  rfl

end MatlabEdit
