import MatlabEdit.Proofs.Encoded
import MatlabEdit.Proofs.LineByLine
import MatlabEdit.Proofs.Place

/-!
# Texts that scanner and indentation cut alike

The scanner cuts a document at every line feed and every carriage return, and it
knows four blanks. The indentation cuts at line feeds, gives the carriage return in
front of one to the ending, and knows all white space of Unicode. On a `Tame` text
the two cuts and the two trims agree, and the scanner can be read off the lines of
the indentation (`tokenize_lines`).
-/

namespace MatlabEdit

open Outline

/-- A text on whose lines the two accounts agree. -/
structure Uniform (text : List Char) : Prop where
  /-- There is no NUL. -/
  nul : '\x00' ∉ text
  /-- A carriage return stands directly before a line feed. -/
  lineFeed : ∀ front back, text = front ++ '\r' :: back → back.head? = some '\n'
  /-- White space is ASCII. -/
  white : ∀ c ∈ text, isWhite c = true → c.toNat < 128

/-- A uniform text that does not start with a byte order mark. -/
structure Tame (text : List Char) : Prop extends Uniform text where
  mark : text.head? ≠ some '\uFEFF'

/-- Whether a line feed follows every carriage return. -/
def feedsReturns : List Char → Bool
  | [] => true
  | c :: rest => (c != '\r' || rest.head? == some '\n') && feedsReturns rest

theorem feedsReturns_iff {text : List Char} :
    feedsReturns text = true ↔
      ∀ front back, text = front ++ '\r' :: back → back.head? = some '\n' := by
  induction text with
  | nil => simp [feedsReturns]
  | cons c rest ih =>
    rw [feedsReturns, Bool.and_eq_true, ih]
    constructor
    · rintro ⟨hc, hrest⟩ front back heq
      cases front with
      | nil =>
        obtain ⟨rfl, rfl⟩ := List.cons.inj heq
        simpa using hc
      | cons d front => exact hrest front back (List.cons.inj heq).2
    · intro h
      refine ⟨?_, fun front back heq => h (c :: front) back (by rw [heq]; rfl)⟩
      by_cases hc : c = '\r'
      · simpa [hc] using h [] rest (by rw [hc]; rfl)
      · simp [hc]

/-- The same as a test. -/
def isUniform (text : List Char) : Bool :=
  (text.all fun c => c != '\x00' && (!isWhite c || decide (c.toNat < 128))) && feedsReturns text

theorem isUniform_iff {text : List Char} : isUniform text = true ↔ Uniform text := by
  unfold isUniform
  rw [Bool.and_eq_true, List.all_eq_true, feedsReturns_iff]
  constructor
  · rintro ⟨hall, hfeed⟩
    refine ⟨fun h0 => absurd (hall _ h0) (by decide), hfeed, fun c hc hwhite => ?_⟩
    have hascii := hall c hc
    rw [hwhite, Bool.and_eq_true] at hascii
    exact of_decide_eq_true hascii.2
  · intro h
    refine ⟨fun c hc => ?_, h.lineFeed⟩
    rw [Bool.and_eq_true, bne_iff_ne]
    refine ⟨fun h0 => h.nul (h0 ▸ hc), ?_⟩
    cases hwhite : isWhite c with
    | false => rfl
    | true => exact decide_eq_true (h.white c hc hwhite)

instance (text : List Char) : Decidable (Uniform text) := decidable_of_iff _ isUniform_iff

instance (text : List Char) : Decidable (Tame text) :=
  decidable_of_iff (Uniform text ∧ text.head? ≠ some '\uFEFF')
    ⟨fun ⟨huniform, hmark⟩ => ⟨huniform, hmark⟩, fun h => ⟨h.toUniform, h.mark⟩⟩

/-- A line on which the two trims agree. -/
structure Line.Tame (line : Line) : Prop where
  nul : '\x00' ∉ line.text
  breaks : ∀ c ∈ line.text, c ≠ '\n' ∧ c ≠ '\r'
  white : ∀ c ∈ line.text, isWhite c = true → c.toNat < 128

/-- Only the last line is without an ending. -/
def Line.Ended : List Line → Prop
  | [] => True
  | line :: rest => (line.ending = .none → rest = []) ∧ Line.Ended rest

/-! ## The cut -/

namespace Uniform

variable {run rest : List Char}

theorem of_append (h : Uniform (run ++ '\n' :: rest)) : Uniform rest where
  nul := fun h0 => h.nul (List.mem_append_right _ (List.mem_cons_of_mem _ h0))
  lineFeed := fun front back heq =>
    h.lineFeed (run ++ '\n' :: front) back (by rw [heq, List.append_assoc]; rfl)
  white := fun c hc => h.white c (List.mem_append_right _ (List.mem_cons_of_mem _ hc))

/-- A carriage return in a line is the last of it. -/
theorem eq_concat_of_mem (h : Uniform (run ++ '\n' :: rest)) (hrun : '\n' ∉ run)
    (hcr : '\r' ∈ run) : ∃ front, run = front ++ ['\r'] ∧ '\r' ∉ front := by
  obtain ⟨front, back, rfl, hfront⟩ := List.eq_append_cons_of_mem hcr
  have hback := h.lineFeed front (back ++ '\n' :: rest) (by simp)
  cases back with
  | nil => exact ⟨front, rfl, hfront⟩
  | cons c back =>
    have hc : c = '\n' := by simpa using hback
    exact absurd (by simp [hc]) hrun

theorem terminated (h : Uniform (run ++ '\n' :: rest)) (hrun : '\n' ∉ run) :
    (Line.terminated run).Tame := by
  have hsub : ∀ c ∈ (Line.terminated run).text, c ∈ run ∧ c ≠ '\r' := by
    intro c hc
    unfold Line.terminated at hc
    split at hc
    · rename_i hlast
      -- the one carriage return goes to the ending
      obtain ⟨front, rfl, hfront⟩ := eq_concat_of_mem h hrun (List.mem_of_getLast? hlast)
      rw [List.dropLast_concat] at hc
      refine ⟨List.mem_append_left _ hc, ?_⟩
      rintro rfl
      exact hfront hc
    · rename_i hlast
      refine ⟨hc, ?_⟩
      rintro rfl
      -- any carriage return would be the last character, and there is none
      obtain ⟨front, rfl, _⟩ := eq_concat_of_mem h hrun hc
      exact hlast (by simp)
  refine ⟨fun h0 => ?_, fun c hc => ⟨fun heq => ?_, (hsub c hc).2⟩, fun c hc => ?_⟩
  · exact h.nul (List.mem_append_left _ (hsub _ h0).1)
  · exact hrun (heq ▸ (hsub c hc).1)
  · exact h.white c (List.mem_append_left _ (hsub c hc).1)

/-- A last line without an ending holds no carriage return either. -/
theorem unterminated (h : Uniform run) (hrun : '\n' ∉ run) : (⟨run, .none⟩ : Line).Tame := by
  refine ⟨h.nul, fun c hc => ⟨fun heq => hrun (heq ▸ hc), ?_⟩, h.white⟩
  rintro rfl
  obtain ⟨front, back, rfl⟩ := List.append_of_mem hc
  have hback := h.lineFeed front back rfl
  exact hrun (List.mem_append_right _ (List.mem_cons_of_mem _ (List.mem_of_head? hback)))

end Uniform

/-- Every ending of a terminated line is a break. -/
theorem Line.ending_terminated (run : List Char) : (Line.terminated run).ending ≠ .none := by
  unfold Line.terminated
  split <;> simp

theorem takeWhile_append_lineFeed {text rest : List Char} {c : Char}
    (h : text.dropWhile (· != '\n') = c :: rest) :
    text = text.takeWhile (· != '\n') ++ '\n' :: rest := by
  have hc : c = '\n' := by
    have := head?_dropWhile_eq_false (p := (· != '\n')) (l := text) (a := c) (by rw [h]; rfl)
    simpa using this
  subst hc
  rw [← h, List.takeWhile_append_dropWhile]

theorem lineFeed_notMem_takeWhile (text : List Char) : '\n' ∉ text.takeWhile (· != '\n') := by
  intro h
  exact absurd (List.mem_takeWhile_imp h) (by decide)

/-- The lines of a uniform text. -/
theorem Uniform.split {text : List Char} (h : Uniform text) :
    (∀ line ∈ Line.split text, line.Tame) ∧ Line.Ended (Line.split text) := by
  fun_induction Line.split text with
  | case1 => exact ⟨by simp, trivial⟩
  | case2 text hdrop =>
    have hrun : '\n' ∉ text := by
      intro hmem
      have := List.dropWhile_eq_nil_iff.mp hdrop _ hmem
      exact absurd this (by decide)
    refine ⟨fun line hline => ?_, fun _ => rfl, trivial⟩
    rw [List.mem_singleton.mp hline]
    exact h.unterminated hrun
  | case3 text c rest hdrop ih =>
    have hsplit := takeWhile_append_lineFeed hdrop
    rw [hsplit] at h
    obtain ⟨htame, hended⟩ := ih h.of_append
    refine ⟨fun line hline => ?_, fun hnone => absurd hnone (Line.ending_terminated _), hended⟩
    rcases List.mem_cons.mp hline with rfl | hline
    · exact h.terminated (lineFeed_notMem_takeWhile text)
    · exact htame line hline

/-! ## The trims -/

/-- The ASCII white space of a line is its blanks. -/
theorem toNat_of_isWhite {c : Char} (h : isWhite c = true) (hascii : c.toNat < 128)
    (hn : c ≠ '\n') (hr : c ≠ '\r') : c.toNat = 9 ∨ c.toNat = 11 ∨ c.toNat = 12 ∨ c.toNat = 32 := by
  have hn' : c.toNat ≠ 10 := fun heq => hn (Char.toNat_inj.mp heq)
  have hr' : c.toNat ≠ 13 := fun heq => hr (Char.toNat_inj.mp heq)
  obtain ⟨r, hr, hlo, hhi⟩ := isWhite_iff.mp h
  simp only [whiteSpaceRanges, List.mem_cons, List.not_mem_nil, or_false] at hr
  rcases hr with rfl | rfl | rfl | rfl | rfl | rfl | rfl | rfl | rfl | rfl <;>
    simp only at hlo hhi <;> omega

namespace Line.Tame

variable {line : Line}

theorem agree (h : line.Tame) : Agree isWhite Byte.isBlank line.text where
  pos := by
    intro c hc hwhite b hb
    obtain ⟨hn, hr⟩ := h.breaks c hc
    have hascii := h.white c hc hwhite
    rw [utf8EncodeChar_of_ascii hascii, List.mem_singleton] at hb
    rw [hb]
    rcases toNat_of_isWhite hwhite hascii hn hr with heq | heq | heq | heq <;> rw [heq] <;> rfl
  neg := by
    intro c _ hwhite b hb
    refine Bool.eq_false_iff.mpr fun hblank => ?_
    have hspaces : ∀ n : Nat, n = 0x20 ∨ n = 0x09 ∨ n = 0x0B ∨ n = 0x0C →
        CharRange.covers whiteSpaceRanges n = true := by
      rintro n (rfl | rfl | rfl | rfl) <;> decide
    have hc : c.toNat = 0x20 ∨ c.toNat = 0x09 ∨ c.toNat = 0x0B ∨ c.toNat = 0x0C := by
      rcases Byte.isBlank_iff.mp hblank with rfl | rfl | rfl | rfl
      · exact .inl (toNat_of_mem_utf8EncodeChar hb (by decide))
      · exact .inr (.inl (toNat_of_mem_utf8EncodeChar hb (by decide)))
      · exact .inr (.inr (.inl (toNat_of_mem_utf8EncodeChar hb (by decide))))
      · exact .inr (.inr (.inr (toNat_of_mem_utf8EncodeChar hb (by decide))))
    rw [isWhite, hspaces _ hc] at hwhite
    exact absurd hwhite (by decide)

theorem trim_encode (h : line.Tame) : Byte.trim (encode line.text) = encode (trim line.text) :=
  (encode_strip h.agree).symm

theorem isBreak_of_mem (h : line.Tame) {b : UInt8} (hb : b ∈ encode line.text) :
    Byte.isBreak b = false := by
  refine Bool.eq_false_iff.mpr fun hbreak => ?_
  rcases Byte.isBreak_iff.mp hbreak with rfl | rfl
  · obtain ⟨c, hc, heq⟩ := exists_of_mem_encode hb (by decide)
    exact (h.breaks c hc).1 (Char.toNat_inj.mp heq)
  · obtain ⟨c, hc, heq⟩ := exists_of_mem_encode hb (by decide)
    exact (h.breaks c hc).2 (Char.toNat_inj.mp heq)

/-- Both accounts of an opening delimiter. -/
theorem trim_encode_eq_opening_iff (h : line.Tame) :
    Byte.trim (encode line.text) = opening ↔ blockDelimiter? line.text = some .opening := by
  rw [h.trim_encode, blockDelimiter?_eq_opening_iff]
  exact ⟨fun heq => encode_inj (heq.trans (rfl : opening = encode ['%', '{'])),
    fun heq => by rw [heq]; rfl⟩

/-- And of a closing one. -/
theorem trim_encode_eq_closing_iff (h : line.Tame) :
    Byte.trim (encode line.text) = closing ↔ blockDelimiter? line.text = some .closing := by
  rw [h.trim_encode, blockDelimiter?_eq_closing_iff]
  exact ⟨fun heq => encode_inj (heq.trans (rfl : closing = encode ['%', '}'])),
    fun heq => by rw [heq]; rfl⟩

end Line.Tame

/-! ## Reading the same lines -/

/-- The spans of a document that is given by its lines. -/
def readLines (size : Nat) (mode : Mode) (start : Nat) : List Line → List Span
  | [] => unfinished size mode
  | line :: rest =>
    (readLine mode start (encode line.text)).1
      ++ readLines size (readLine mode start (encode line.text)).2
        (start + (encode line.chars).length) rest

theorem readLine_nil (mode : Mode) (start : Nat) : readLine mode start [] = ([], mode) :=
  readLine_of_blank mode start rfl

/-- A carriage return before a line feed cuts off one more line, but a blank one. -/
theorem read_lines (size : Nat) {ls : List Line} (htame : ∀ line ∈ ls, line.Tame)
    (hended : Line.Ended ls) : ∀ mode start,
      read size mode start (lines (encode (ls.flatMap Line.chars)))
        = readLines size mode start ls := by
  induction ls with
  | nil =>
    intro mode start
    show (readLine mode start []).1 ++ unfinished size (readLine mode start []).2 = _
    rw [readLine_nil]
    rfl
  | cons line rest ih =>
    intro mode start
    have hline : ∀ b ∈ encode line.text, Byte.isBreak b = false := fun b hb =>
      (htame line List.mem_cons_self).isBreak_of_mem hb
    have htail := ih (fun l hl => htame l (List.mem_cons_of_mem _ hl)) hended.2
    have hchars : encode ((line :: rest).flatMap Line.chars)
        = encode line.text ++ (encode line.ending.chars ++ encode (rest.flatMap Line.chars)) := by
      rw [List.flatMap_cons, Line.chars, encode_append, encode_append, List.append_assoc]
    have hlen : (encode line.chars).length
        = (encode line.text).length + (encode line.ending.chars).length := by
      rw [Line.chars, encode_append, List.length_append]
    rw [hchars, readLines, hlen]
    cases hending : line.ending with
    | none =>
      rw [hended.1 hending]
      have hlines : lines (encode line.text ++ (encode [] ++ encode [])) = [encode line.text] := by
        rw [show encode line.text ++ (encode [] ++ encode []) = encode line.text from
          List.append_nil _]
        exact lines_of_forall hline
      exact congrArg (read size mode start) hlines
    | lf =>
      have hlines : lines (encode line.text ++ (0x0A :: encode (rest.flatMap Line.chars)))
          = encode line.text :: lines (encode (rest.flatMap Line.chars)) :=
        lines_append_cons hline rfl _
      show read size mode start
        (lines (encode line.text ++ (0x0A :: encode (rest.flatMap Line.chars)))) = _
      rw [hlines, Outline.read, htail]
      rfl
    | crlf =>
      -- the two bytes of the ending have an empty line between them
      have hlines : lines (encode line.text ++ (0x0D :: 0x0A :: encode (rest.flatMap Line.chars)))
          = encode line.text :: [] :: lines (encode (rest.flatMap Line.chars)) := by
        rw [lines_append_cons hline rfl]
        exact congrArg _ (lines_append_cons (fun _ h => absurd h List.not_mem_nil) rfl _)
      show read size mode start
        (lines (encode line.text ++ (0x0D :: 0x0A :: encode (rest.flatMap Line.chars)))) = _
      rw [hlines, Outline.read, Outline.read, readLine_nil, htail]
      rfl

/-- A text that starts with no byte order mark is all content. -/
theorem content_encode {text : List Char} (h : text.head? ≠ some '\uFEFF') :
    content (encode text) = (0, encode text) := by
  unfold content
  split
  · rename_i rest heq
    -- three bytes that are a mark come from the character, as UTF-8 is read in one way
    have happend : ['\uFEFF'].utf8Encode ++ rest.toByteArray = text.utf8Encode := by
      rw [List.utf8Encode_singleton, ← List.toByteArray_append]
      exact congrArg List.toByteArray heq.symm
    obtain ⟨back, hback⟩ := List.isPrefix_of_utf8Encode_append_eq_utf8Encode _ happend
    rw [← hback] at h
    exact absurd rfl h
  · rfl

theorem zero_notMem_encode {text : List Char} (h : '\x00' ∉ text) : (0 : UInt8) ∉ encode text := by
  intro h0
  obtain ⟨c, hc, heq⟩ := exists_of_mem_encode h0 (by decide)
  exact h ((Char.toNat_inj.mp heq : c = '\x00') ▸ hc)

/-- **The spans of a document can be read off its lines.** -/
theorem tokenize_lines {ls : List Line} (htame : ∀ line ∈ ls, line.Tame) (hended : Line.Ended ls)
    (hmark : (ls.flatMap Line.chars).head? ≠ some '\uFEFF') :
    tokenize (String.ofList (ls.flatMap Line.chars))
      = readLines (encode (ls.flatMap Line.chars)).length (.outside true) 0 ls := by
  have hnul : '\x00' ∉ ls.flatMap Line.chars := by
    intro h0
    obtain ⟨line, hline, hmem⟩ := List.mem_flatMap.mp h0
    rcases List.mem_append.mp hmem with hmem | hmem
    · exact (htame line hline).nul hmem
    · cases hending : line.ending <;> rw [hending] at hmem <;> exact absurd hmem (by decide)
  have hspans := spans_ofBytes (String.ofList (ls.flatMap Line.chars)).toUTF8
    (by rw [toUTF8_ofList]; exact zero_notMem_encode hnul)
  rw [toUTF8_ofList, Outline.spans, content_encode hmark] at hspans
  exact hspans.trans (read_lines _ htame hended _ _)

end MatlabEdit
