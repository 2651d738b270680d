import MatlabEdit.Proofs.CommentLines
import MatlabEdit.Proofs.Seams
import MatlabEdit.Proofs.Shown

/-!
# Indenting keeps what the spans show

A document is indented anew by people who want to read it, and nothing that the
scanner makes of it may change on the way. On a uniform text nothing does
(`shown_reindent`). Outside block comments a line only moves, and what its spans show
depends on the trimmed line. Inside them every line stays as it is, so all that has to
be known of an open comment is that its bytes up to here are the same in both
documents (`Alike`).

There are two exceptions, and they are not about lines. A byte order mark is a character
like any other unless the document starts with it, so white space in front of a mark
must not be the only thing that keeps it from the start (`Unmarked`). And a machine keeps
no more of a document than it can count. Lines that move to the right make a document
longer, so not only the text must fit, but what becomes of it too: under a wide unit two
short lines already do not (`tokenizeKept_reindent_outgrown`).
-/

namespace MatlabEdit

open Outline

/-- The first line does not start with a byte order mark, nor with white space and one. -/
def Unmarked (text : List Char) : Prop :=
  (text.dropWhile fun c => isWhite c && c != '\n').head? ≠ some '\uFEFF'

instance (text : List Char) : Decidable (Unmarked text) :=
  inferInstanceAs (Decidable (_ ≠ _))

/-! ## The lines of the result -/

namespace Layout

variable {config : IndentConfig} {layout : Layout} {line : Line}

theorem tame_place (h : line.Tame) : (layout.place config line).1.line.Tame where
  nul := by
    intro h0
    rcases mem_text_place h0 with hmem | hspace
    · exact h.nul hmem
    · exact absurd hspace (by decide)
  breaks := by
    intro c hc
    rcases mem_text_place hc with hmem | rfl
    · exact h.breaks c hmem
    · decide
  white := by
    intro c hc hwhite
    rcases mem_text_place hc with hmem | rfl
    · exact h.white c hmem hwhite
    · decide

theorem tame_run (config : IndentConfig) {ls : List Line} (h : ∀ line ∈ ls, line.Tame) :
    ∀ layout : Layout, ∀ line ∈ (layout.run config ls).1.map Piece.line, line.Tame := by
  induction ls with
  | nil => intro layout line hline; exact absurd hline List.not_mem_nil
  | cons head rest ih =>
    intro layout line hline
    rw [run_cons, List.map_cons] at hline
    rcases List.mem_cons.mp hline with rfl | hline
    · exact tame_place (h head List.mem_cons_self)
    · exact ih (fun l hl => h l (List.mem_cons_of_mem _ hl)) _ line hline

theorem ended_run (config : IndentConfig) {ls : List Line} (h : Line.Ended ls) :
    ∀ layout : Layout, Line.Ended ((layout.run config ls).1.map Piece.line) := by
  induction ls with
  | nil => intro layout; trivial
  | cons head rest ih =>
    intro layout
    rw [run_cons, List.map_cons]
    refine ⟨fun hnone => ?_, ih h.2 _⟩
    rw [h.1 (ending_place.symm.trans hnone)]
    rfl

end Layout

/-! ## The start of the result -/

/-- Only the first line can put a mark at the start of a document. -/
theorem head?_text_of_head?_chars {line : Line} {rest : List Line}
    (hended : Line.Ended (line :: rest))
    (h : ((line :: rest).flatMap Line.chars).head? = some '\uFEFF') :
    line.text.head? = some '\uFEFF' := by
  rw [List.flatMap_cons, Line.chars] at h
  cases htext : line.text with
  | cons c text =>
    rw [htext] at h
    exact h
  | nil =>
    rw [htext] at h
    cases hending : line.ending with
    | none =>
      rw [hending, hended.1 hending] at h
      exact absurd h (by simp [LineEnding.chars])
    | lf =>
      rw [hending] at h
      exact absurd h (by simp [LineEnding.chars])
    | crlf =>
      rw [hending] at h
      exact absurd h (by simp [LineEnding.chars])

theorem trim_head?_of_head? {text : List Char} (h : text.head? = some '\uFEFF') :
    (trim text).head? = some '\uFEFF' := by
  cases text with
  | nil => exact absurd h (by simp)
  | cons c text =>
    obtain rfl : c = '\uFEFF' := by simpa using h
    obtain ⟨post, hsplit, _⟩ := exists_margins isWhite ('\uFEFF' :: text)
    rw [List.takeWhile_cons_of_neg (by decide), List.nil_append] at hsplit
    cases htrim : trim ('\uFEFF' :: text) with
    | nil =>
      have hwhite := strip_eq_nil_iff.mp htrim '\uFEFF' List.mem_cons_self
      exact absurd hwhite (by decide)
    | cons d rest =>
      rw [← trim_eq_strip, htrim] at hsplit
      rw [(List.cons.inj hsplit).1]
      rfl

/-- What the trimmed first line starts with is what the document starts with behind white space. -/
theorem head?_trim_of_unmarked {line : Line} {rest : List Line} (htame : line.Tame)
    (h : Unmarked ((line :: rest).flatMap Line.chars)) :
    (trim line.text).head? ≠ some '\uFEFF' := by
  intro hmark
  obtain ⟨post, hsplit, _⟩ := exists_margins isWhite line.text
  obtain ⟨back, hback⟩ : ∃ back, strip isWhite line.text = '\uFEFF' :: back := by
    rw [trim_eq_strip] at hmark
    exact List.head?_eq_some_iff.mp hmark
  -- the margin of a line holds no line feed
  have hpre : ∀ c ∈ line.text.takeWhile isWhite, (isWhite c && c != '\n') = true := by
    intro c hc
    rw [List.mem_takeWhile_imp hc, Bool.true_and, bne_iff_ne]
    exact (htame.breaks c ((List.takeWhile_sublist _).subset hc)).1
  refine h ?_
  rw [List.flatMap_cons, Line.chars, hsplit, hback, List.append_assoc, List.append_assoc,
    List.append_assoc, List.dropWhile_append_of_pos hpre, List.cons_append,
    List.dropWhile_cons_of_neg (by decide)]
  rfl

/-! ## Both documents at once -/

/-- Two readings, of which one has `pre` behind it and the other `pre'`. The bytes of an open
comment are the same in both. -/
def Alike (pre pre' : List UInt8) : Mode → Mode → Prop
  | .outside onlyMagics, .outside onlyMagics' => onlyMagics = onlyMagics'
  | .inside opener k, .inside opener' k' =>
    k = k' ∧ opener ≤ pre.length ∧ opener' ≤ pre'.length ∧ pre.drop opener = pre'.drop opener'
  | _, _ => False

variable {pre pre' : List UInt8} {opener opener' : Nat}

/-- An open comment that goes on with the same bytes. -/
theorem Alike.append {k : Nat} (h : Alike pre pre' (.inside opener k) (.inside opener' k))
    (more : List UInt8) (k' : Nat) :
    Alike (pre ++ more) (pre' ++ more) (.inside opener k') (.inside opener' k') := by
  obtain ⟨_, hle, hle', hdrop⟩ := h
  refine ⟨rfl, ?_, ?_, ?_⟩
  · exact Nat.le_trans hle (by rw [List.length_append]; exact Nat.le_add_right _ _)
  · exact Nat.le_trans hle' (by rw [List.length_append]; exact Nat.le_add_right _ _)
  · rw [List.drop_append_of_le_length hle, List.drop_append_of_le_length hle', hdrop]

/-- The text of a block comment that ends on the line at `pre`. -/
theorem shown_block {line tail : List UInt8} {n : Nat} (hle : opener ≤ pre.length)
    (hn : n ≤ line.length) :
    Span.shown (pre ++ (line ++ tail)) ⟨⟨opener, pre.length + n⟩, .blockComment⟩
      = (.blockComment, pre.drop opener ++ line.take n) := by
  have hlen : pre.length + n - opener = (pre.drop opener).length + n := by
    rw [List.length_drop]
    omega
  refine congrArg (Prod.mk SpanKind.blockComment) ?_
  show ((pre ++ (line ++ tail)).drop opener).take (pre.length + n - opener) = _
  rw [List.drop_append_of_le_length hle, hlen, List.take_length_add_append,
    List.take_append_of_le_length hn]

/-- And of one that is still open at the end. -/
theorem shown_unfinished {k : Nat} (hle : opener ≤ pre.length) :
    (unfinished pre.length (.inside opener k)).map (Span.shown pre)
      = [(.blockComment, pre.drop opener)] := by
  have h : Span.shown (pre ++ ([] ++ [])) ⟨⟨opener, pre.length + 0⟩, .blockComment⟩
      = (.blockComment, pre.drop opener ++ [].take 0) := shown_block hle (Nat.le_refl 0)
  rw [List.append_nil, List.append_nil, List.take_nil, List.append_nil] at h
  exact congrArg (fun x => [x]) h

variable {config : IndentConfig} {layout : Layout} {line : Line} {mode mode' : Mode}

theorem encode_chars (line : Line) (tail : List UInt8) :
    encode line.chars ++ tail = encode line.text ++ (encode line.ending.chars ++ tail) := by
  rw [Line.chars, encode_append, List.append_assoc]

theorem trim_encode_place (htame : line.Tame) :
    Byte.trim (encode (layout.place config line).1.line.text) = Byte.trim (encode line.text) := by
  rw [htame.trim_encode, (Layout.tame_place htame).trim_encode, Layout.trim_place]

/-- Outside block comments the line has moved. -/
theorem shown_moved (htame : line.Tame) (onlyMagics : Bool) (tail tail' : List UInt8) :
    (readOutside onlyMagics pre.length (encode line.text)).1.map
        (Span.shown (pre ++ (encode line.chars ++ tail)))
      = (readOutside onlyMagics pre'.length
          (encode (layout.place config line).1.line.text)).1.map
        (Span.shown (pre' ++ (encode (layout.place config line).1.line.chars ++ tail'))) := by
  rw [shown_readOutside (by rw [encode_chars]), shown_readOutside (by rw [encode_chars]),
    trim_encode_place htame]

/-- Inside a block comment it has not. -/
theorem shown_kept {k : Nat} (h : Alike pre pre' (.inside opener k) (.inside opener' k))
    (tail tail' : List UInt8) :
    (readInside opener k pre.length (encode line.text)).1.map
        (Span.shown (pre ++ (encode line.chars ++ tail)))
      = (readInside opener' k pre'.length (encode line.text)).1.map
        (Span.shown (pre' ++ (encode line.chars ++ tail'))) ∧
    Alike (pre ++ encode line.chars) (pre' ++ encode line.chars)
      (readInside opener k pre.length (encode line.text)).2
      (readInside opener' k pre'.length (encode line.text)).2 := by
  unfold readInside
  dsimp only
  split_ifs with hopening hclosing hone
  · exact ⟨rfl, h.append _ _⟩
  · obtain ⟨_, hle, hle', hdrop⟩ := h
    have hn := indent_add_two_le_of_closing hclosing
    refine ⟨?_, rfl⟩
    rw [List.map_singleton, List.map_singleton, encode_chars, encode_chars, Nat.add_assoc,
      Nat.add_assoc, shown_block hle hn, shown_block hle' hn, hdrop]
  · exact ⟨rfl, h.append _ _⟩
  · exact ⟨rfl, h.append _ _⟩

/-- A line that opens a comment stays, and the comment's bytes are those from the delimiter on. -/
theorem alike_opened {onlyMagics : Bool} (hopen : Byte.trim (encode line.text) = opening) :
    Alike (pre ++ encode line.chars) (pre' ++ encode line.chars)
      (readOutside onlyMagics pre.length (encode line.text)).2
      (readOutside onlyMagics pre'.length (encode line.text)).2 := by
  have hle : Byte.indent (encode line.text) ≤ (encode line.chars).length :=
    Nat.le_trans (Byte.indent_le _) line.length_text_le
  rw [readOutside_of_opening hopen, readOutside_of_opening hopen]
  refine ⟨rfl, ?_, ?_, ?_⟩
  · rw [List.length_append]
    exact Nat.add_le_add_left hle _
  · rw [List.length_append]
    exact Nat.add_le_add_left hle _
  · rw [List.drop_length_add_append, List.drop_length_add_append]

/-- **One line shows the same in both documents.** -/
theorem Alike.step (h : Alike pre pre' mode mode') (hmatches : mode.Matches layout.depth pre.length)
    (htame : line.Tame) (config : IndentConfig) (tail tail' : List UInt8) :
    (readLine mode pre.length (encode line.text)).1.map
        (Span.shown (pre ++ (encode line.chars ++ tail)))
      = (readLine mode' pre'.length (encode (layout.place config line).1.line.text)).1.map
        (Span.shown (pre' ++ (encode (layout.place config line).1.line.chars ++ tail'))) ∧
    Alike (pre ++ encode line.chars) (pre' ++ encode (layout.place config line).1.line.chars)
      (readLine mode pre.length (encode line.text)).2
      (readLine mode' pre'.length (encode (layout.place config line).1.line.text)).2 := by
  cases mode with
  | inside opener k =>
    cases mode' with
    | outside _ => exact absurd h id
    | inside opener' k' =>
      obtain rfl : k = k' := h.1
      rw [Layout.place_of_inComment (Layout.inComment_of_depth_pos (hmatches.1 ▸ hmatches.2.1))]
      exact shown_kept h tail tail'
  | outside onlyMagics =>
    cases mode' with
    | inside _ _ => exact absurd h id
    | outside onlyMagics' =>
      obtain rfl : onlyMagics = onlyMagics' := h
      refine ⟨shown_moved htame onlyMagics tail tail', ?_⟩
      show Alike _ _ (readOutside onlyMagics _ _).2 (readOutside onlyMagics _ _).2
      by_cases hopen : Byte.trim (encode line.text) = opening
      · have hin : layout.inComment line = true :=
          (Layout.inComment_iff_opening hmatches).mpr (htame.trim_encode_eq_opening_iff.mp hopen)
        rw [Layout.place_of_inComment hin]
        exact alike_opened hopen
      · -- no comment is open behind the line, so all that is known is the flag
        obtain ⟨onlyMagics', hbehind⟩ := readOutside_mode_of_ne onlyMagics pre.length hopen
        rw [← readOutside_mode_eq (trim_encode_place htame).symm hopen, hbehind]
        rfl

/-- **And so do all lines together.** -/
theorem Alike.run {ls : List Line} (config : IndentConfig) (htame : ∀ line ∈ ls, line.Tame) :
    ∀ {mode mode' : Mode} {pre pre' : List UInt8} {layout : Layout} {doc doc' : List UInt8},
      Alike pre pre' mode mode' → mode.Matches layout.depth pre.length →
      doc = pre ++ encode (ls.flatMap Line.chars) →
      doc' = pre' ++ encode (((layout.run config ls).1.map Piece.line).flatMap Line.chars) →
      (readLines doc.length mode pre.length ls).map (Span.shown doc)
        = (readLines doc'.length mode' pre'.length
            ((layout.run config ls).1.map Piece.line)).map (Span.shown doc') := by
  induction ls with
  | nil =>
    intro mode mode' pre pre' layout doc doc' h _ hdoc hdoc'
    obtain rfl : doc = pre := hdoc.trans (List.append_nil _)
    obtain rfl : doc' = pre' := hdoc'.trans (List.append_nil _)
    show (unfinished doc.length mode).map _ = (unfinished doc'.length mode').map _
    cases mode with
    | outside _ =>
      cases mode' with
      | outside _ => rfl
      | inside _ _ => exact absurd h id
    | inside opener k =>
      cases mode' with
      | outside _ => exact absurd h id
      | inside opener' k' =>
        obtain ⟨_, hle, hle', hdrop⟩ := h
        rw [shown_unfinished hle, shown_unfinished hle', hdrop]
  | cons line rest ih =>
    intro mode mode' pre pre' layout doc doc' h hmatches hdoc hdoc'
    have hline := htame line List.mem_cons_self
    rw [Layout.run_cons, List.map_cons] at hdoc' ⊢
    rw [List.flatMap_cons, encode_append] at hdoc hdoc'
    -- what has been read of both documents grows by one line each
    obtain ⟨hshown, hnext⟩ := h.step hmatches hline config (encode (rest.flatMap Line.chars))
      (encode ((((layout.place config line).2.run config rest).1.map Piece.line).flatMap
        Line.chars))
    rw [← hdoc, ← hdoc'] at hshown
    have hmatches' := hmatches.step hline config
    rw [← List.length_append] at hmatches'
    rw [← List.append_assoc] at hdoc hdoc'
    have htail := ih (fun l hl => htame l (List.mem_cons_of_mem _ hl)) hnext hmatches' hdoc hdoc'
    rw [List.length_append, List.length_append] at htail
    rw [readLines, readLines, List.map_append, List.map_append, hshown, htail]

/-! ## The document -/

/-- Nothing that is laid out starts with a byte order mark. -/
theorem head?_reindent (config : IndentConfig) {ls : List Line} (htame : ∀ line ∈ ls, line.Tame)
    (hended : Line.Ended ls) (hmark : Unmarked (ls.flatMap Line.chars)) :
    (((Layout.start.run config ls).1.map Piece.line).flatMap Line.chars).head? ≠ some '\uFEFF' := by
  intro h
  have hended' := Layout.ended_run config hended Layout.start
  cases ls with
  | nil => exact absurd h (by simp [Layout.run])
  | cons line rest =>
    rw [Layout.run_cons, List.map_cons] at h hended'
    -- a mark at the start would be where the first text starts, trimmed or not
    have htrim := trim_head?_of_head? (head?_text_of_head?_chars hended' h)
    rw [Layout.trim_place] at htrim
    exact head?_trim_of_unmarked (htame line List.mem_cons_self) hmark htrim

/-- Indenting a document anew changes nothing that its spans show, as long as nothing is cut off. -/
theorem shown_tokenize_reindent (config : IndentConfig) {text : String} (h : Uniform text.toList)
    (hmark : Unmarked text.toList) :
    (tokenize (reindent config text)).map (Span.shown (reindent config text).toUTF8.data.toList)
      = (tokenize text).map (Span.shown text.toUTF8.data.toList) := by
  obtain ⟨htame, hended⟩ := h.split
  have hchars := Line.flatMap_chars_split text.toList
  have hmark' : text.toList.head? ≠ some '\uFEFF' := by
    intro hhead
    refine hmark ?_
    obtain ⟨back, hback⟩ := List.head?_eq_some_iff.mp hhead
    rw [hback, List.dropWhile_cons_of_neg (by decide)]
    rfl
  have htext : tokenize text
      = readLines (encode text.toList).length (.outside true) 0 (Line.split text.toList) := by
    have htokens := tokenize_lines htame hended (by rw [hchars]; exact hmark')
    rwa [hchars, String.ofList_toList] at htokens
  have hbytes : text.toUTF8.data.toList = encode text.toList := by
    conv => lhs; rw [← String.ofList_toList (s := text)]
    exact toUTF8_ofList _
  rw [reindent_eq, toUTF8_ofList, hbytes, htext, tokenize_lines (Layout.tame_run config htame _)
    (Layout.ended_run config hended _) (head?_reindent config htame hended (by rwa [hchars]))]
  have halike : Alike [] [] (.outside true) (.outside true) := rfl
  have hstart : (Mode.outside true).Matches Layout.start.depth 0 := rfl
  exact (halike.run config htame hstart (by rw [hchars]; rfl) rfl).symm

/-- **Indenting a document anew changes nothing that its spans show**, if a machine can hold both
the document and the result. -/
theorem shown_reindent (config : IndentConfig) {text : String} (h : Uniform text.toList)
    (hmark : Unmarked text.toList) (htext : text.utf8ByteSize < UInt32.size)
    (hresult : (reindent config text).utf8ByteSize < UInt32.size) :
    (tokenizeKept (reindent config text)).map
        (Span.shown (reindent config text).toUTF8.data.toList)
      = (tokenizeKept text).map (Span.shown text.toUTF8.data.toList) := by
  rw [tokenizeKept_of_lt htext, tokenizeKept_of_lt hresult]
  exact shown_tokenize_reindent config h hmark

/-- Code, two comments and a block comment that keeps its indentation. -/
theorem shown_reindent_mixed :
    let text := "if x % c \n  y\t\nend % d\n %\x7b\n\t%\x7d "
    Uniform text.toList ∧ Unmarked text.toList ∧ text.utf8ByteSize < UInt32.size ∧
      (reindent default text).utf8ByteSize < UInt32.size ∧
      (tokenizeKept (reindent default text)).map
          (Span.shown (reindent default text).toUTF8.data.toList)
        = [(.code, encode "if x".toList), (.lineComment, encode "% c".toList),
          (.code, encode "y".toList), (.code, encode "end".toList),
          (.lineComment, encode "% d".toList),
          (.blockComment, encode "%\x7b\n\t%\x7d".toList)] := by
  intro text
  have h : Uniform text.toList := by decide +kernel
  have hmark : Unmarked text.toList := by decide +kernel
  have htext : text.utf8ByteSize < UInt32.size := by decide +kernel
  have hresult : (reindent default text).utf8ByteSize < UInt32.size := by decide +kernel
  exact ⟨h, hmark, htext, hresult,
    (shown_reindent default h hmark htext hresult).trans (by decide +kernel)⟩

/-- White space must not be all that keeps a mark from the start of the document. -/
theorem shown_reindent_mark_behind_blank :
    Tame " \uFEFFx".toList ∧
      (tokenize (reindent default " \uFEFFx")).map
          (Span.shown (reindent default " \uFEFFx").toUTF8.data.toList)
        ≠ (tokenize " \uFEFFx").map (Span.shown " \uFEFFx".toUTF8.data.toList) :=
  ⟨by decide +kernel, by decide +kernel⟩

/-! ## A result that a machine cannot hold -/

theorem encode_blanks (n : Nat) : encode (List.replicate n ' ') = List.replicate n 0x20 := by
  rw [encode, List.flatMap_replicate]
  exact List.flatten_replicate_singleton

/-- A machine that is full among some blanks keeps what is in front of them, and some of them. -/
theorem kept_blanks (front back : List Char) {n m : Nat} (hle : m ≤ n)
    (hm : (encode front).length + m = UInt32.size - 1) :
    Source.kept (String.ofList (front ++ (List.replicate n ' ' ++ back))).toUTF8
      = (String.ofList (front ++ List.replicate m ' ')).toUTF8 := by
  have hsize : (String.ofList (front ++ (List.replicate n ' ' ++ back))).toUTF8.size
      = (encode front).length + (n + (encode back).length) := by
    show (String.ofList (front ++ (List.replicate n ' ' ++ back))).toUTF8.data.size = _
    rw [← Array.length_toList, toUTF8_ofList, encode_append, encode_append, encode_blanks,
      List.length_append, List.length_append, List.length_replicate]
  have hkept : Source.keptSize ((encode front).length + (n + (encode back).length))
      = (encode front).length + m := by
    unfold Source.keptSize
    omega
  refine ByteArray.ext (Array.toList_inj.mp ?_)
  rw [Source.kept, hsize, hkept, ByteArray.data_extract, Array.toList_extract, toUTF8_ofList,
    toUTF8_ofList, encode_append, encode_append, encode_append, encode_blanks, encode_blanks,
    List.extract_eq_take_drop, List.drop_zero, Nat.sub_zero, List.take_length_add_append,
    List.take_append_of_le_length (by rwa [List.length_replicate]), List.take_replicate,
    Nat.min_eq_left hle]

theorem Line.tame_blanks (n : Nat) : Line.Tame ⟨List.replicate n ' ', .none⟩ := by
  have hblank : ∀ c ∈ List.replicate n ' ', c = ' ' := fun c hc => (List.mem_replicate.mp hc).2
  refine ⟨fun h0 => absurd (hblank _ h0) (by decide), fun c hc => ?_, fun c hc _ => ?_⟩
  · rw [hblank c hc]
    decide
  · rw [hblank c hc]
    decide

/-- Blanks behind the last line end show nothing. -/
theorem tokenize_if_blanks (n : Nat) :
    tokenize (String.ofList ("if x\n".toList ++ List.replicate n ' ')) = [⟨⟨0, 4⟩, .code⟩] := by
  let ls : List Line := [⟨"if x".toList, .lf⟩, ⟨List.replicate n ' ', .none⟩]
  have hopener : Uniform "if x\n".toList := by decide +kernel
  have hfirst : Line.Tame ⟨"if x".toList, .lf⟩ := hopener.split.1 _ (by decide +kernel)
  have htame : ∀ line ∈ ls, line.Tame :=
    List.forall_mem_cons.mpr ⟨hfirst, List.forall_mem_singleton.mpr (Line.tame_blanks n)⟩
  have hchars : ls.flatMap Line.chars = "if x\n".toList ++ List.replicate n ' ' := by
    simp [ls, Line.chars, LineEnding.chars]
  have hended : Line.Ended ls := ⟨fun h => absurd h (by decide), fun _ => rfl, trivial⟩
  have hmark : (ls.flatMap Line.chars).head? ≠ some '\uFEFF' := by
    show some 'i' ≠ some '\uFEFF'
    decide
  have hspans := tokenize_lines htame hended hmark
  have htrim : Byte.trim (encode (List.replicate n ' ')) = [] := by
    rw [encode_blanks]
    exact strip_eq_nil_iff.mpr fun b hb => by rw [(List.mem_replicate.mp hb).2]; rfl
  rw [hchars, readLines, readLines, readLine_of_blank _ _ htrim] at hspans
  rw [hspans]
  rfl

/-- A line below an opener has as many blanks in front of it as a level has columns. -/
theorem reindent_if (config : IndentConfig) :
    reindent config "if x\ny"
      = String.ofList ("if x\n".toList ++ (List.replicate config.unit.toNat ' ' ++ ['y'])) := by
  have hsplit : Line.split "if x\ny".toList = [⟨"if x".toList, .lf⟩, ⟨['y'], .none⟩] := by
    decide +kernel
  have hfirst : Layout.start.place config ⟨"if x".toList, .lf⟩
      = (.placed 0 "if x".toList .lf, ⟨"if x".toList, 0⟩) := by
    have htrim : trim "if x".toList = "if x".toList := by decide +kernel
    rw [Layout.place_of_text (by decide +kernel) (by decide +kernel)]
    dsimp only
    rw [htrim, Layout.columnFor_start config htrim]
    rfl
  have hcolumn : (⟨"if x".toList, 0⟩ : Layout).columnFor config ['y'] = config.unit := by
    have hopens : opensBlock "if x".toList = true := by decide +kernel
    have hwidth : leadingWidth "if x".toList = 0 := by decide +kernel
    rw [Layout.columnFor_of_not_dedent (by decide +kernel)]
    dsimp only
    rw [if_pos hopens, hwidth, Column.stepIn, UInt32.toNat_zero, Nat.zero_add, Column.clamp_toNat]
  have hsecond : (⟨"if x".toList, 0⟩ : Layout).place config ⟨['y'], .none⟩
      = (.placed config.unit ['y'] .none, ⟨spaces config.unit ++ ['y'], 0⟩) := by
    have htrim : trim ['y'] = ['y'] := by decide +kernel
    rw [Layout.place_of_text (by decide +kernel) (by decide +kernel)]
    dsimp only
    rw [htrim, hcolumn]
  rw [reindent_eq, hsplit, Layout.run_cons, hfirst, Layout.run_cons, hsecond]
  simp [Layout.run, Piece.line, Line.chars, LineEnding.chars, spaces]

/-- **What does not fit is not seen.** Under a unit that fills a machine, the second of two lines
is cut off, and its span with it. -/
theorem tokenizeKept_reindent_outgrown (config : IndentConfig)
    (hunit : UInt32.size ≤ 6 + config.unit.toNat) :
    tokenizeKept "if x\ny" = [⟨⟨0, 4⟩, .code⟩, ⟨⟨5, 6⟩, .code⟩] ∧
      tokenizeKept (reindent config "if x\ny") = [⟨⟨0, 4⟩, .code⟩] := by
  refine ⟨by decide +kernel, ?_⟩
  have hlength : (encode "if x\n".toList).length = 5 := by decide
  obtain ⟨m, hm⟩ := Nat.exists_eq_add_of_le (show 6 ≤ UInt32.size by decide)
  have hkept := kept_blanks "if x\n".toList ['y'] (show m ≤ config.unit.toNat by omega)
    (by omega)
  rw [tokenizeKept, reindent_if, hkept]
  exact tokenize_if_blanks m

end MatlabEdit
