import Mathlib.Data.List.DropRight
import MatlabEdit.Proofs.Outline

/-!
# What a span shows

Two documents can have the same spans at different places. What is compared then is
what a span shows: its kind and its text. The blanks at the end of a line are no part
of what is read, so at the end of a text they count in a block comment only, which
is kept to the byte.

Outside block comments, what the spans of a line show can be read off the trimmed line
alone (`shown_readOutside`). This is why moving a line changes nothing.
-/

namespace MatlabEdit

/-- The bytes of a document that a span covers. -/
def Span.bytesOf (doc : List UInt8) (span : Span) : List UInt8 :=
  (doc.drop span.start).take (span.stop - span.start)

/-- The kind and the text of a span. -/
def Span.shown (doc : List UInt8) (span : Span) : SpanKind × List UInt8 :=
  (span.kind,
    if span.kind = .blockComment then span.bytesOf doc
    else (span.bytesOf doc).rdropWhile Byte.isBlank)

/-! ## Blanks at the end -/

variable {α : Type} {p q : α → Bool}

theorem rdropWhile_append {l post : List α} (hpost : ∀ a ∈ post, p a = true) :
    (l ++ post).rdropWhile p = l.rdropWhile p := by
  unfold List.rdropWhile
  rw [List.reverse_append,
    List.dropWhile_append_of_pos fun a ha => hpost a (List.mem_reverse.mp ha)]

theorem rdropWhile_eq_self_of_getLast? {l : List α} (h : ∀ a, l.getLast? = some a → p a = false) :
    l.rdropWhile p = l := by
  rw [List.rdropWhile_eq_self_iff]
  intro hne
  rw [h _ (List.getLast?_eq_some_getLast hne)]
  exact Bool.false_ne_true

/-- What a cut takes off the front stays off when blanks are added at the end. -/
theorem rdropWhile_takeWhile_append {l post : List α} (hpost : ∀ a ∈ post, p a = true)
    (hq : ∀ a ∈ post, q a = true) :
    ((l ++ post).takeWhile q).rdropWhile p = (l.takeWhile q).rdropWhile p := by
  rw [List.takeWhile_append]
  split_ifs with hall
  · rw [List.takeWhile_eq_self_iff.mpr hq, rdropWhile_append hpost,
      (List.takeWhile_prefix q).eq_of_length hall]
  · rfl

theorem rdropWhile_dropWhile_append {l post : List α} {a : α} (ha : a ∈ l) (hqa : q a = false)
    (hpost : ∀ b ∈ post, p b = true) (hlast : ∀ b, l.getLast? = some b → p b = false) :
    ((l ++ post).dropWhile q).rdropWhile p = l.dropWhile q := by
  have hne : l.dropWhile q ≠ [] := by
    intro hnil
    rw [List.dropWhile_eq_nil_iff.mp hnil a ha] at hqa
    exact Bool.false_ne_true hqa.symm
  rw [List.dropWhile_append, if_neg (by rwa [List.isEmpty_iff]), rdropWhile_append hpost]
  apply rdropWhile_eq_self_of_getLast?
  intro b hb
  obtain ⟨front, hfront⟩ := List.dropWhile_suffix (l := l) q
  refine hlast b ?_
  rw [← hfront, List.getLast?_append, hb]
  rfl

/-! ## The spans of a line -/

/-- The text of a span that lies on one line. -/
theorem Span.bytesOf_line {doc pre line tail : List UInt8} {n m : Nat} {kind : SpanKind}
    (hdoc : doc = pre ++ (line ++ tail)) (hn : n ≤ line.length) (hm : m ≤ line.length) :
    Span.bytesOf doc ⟨⟨pre.length + n, pre.length + m⟩, kind⟩ = (line.drop n).take (m - n) := by
  subst hdoc
  show ((pre ++ (line ++ tail)).drop (pre.length + n)).take (pre.length + m - (pre.length + n)) = _
  rw [List.drop_length_add_append, List.drop_append_of_le_length hn, Nat.add_sub_add_left]
  exact List.take_append_of_le_length (by rw [List.length_drop]; omega)

namespace Outline

/-- What the spans of a line show, outside every block comment, in terms of the trimmed line. -/
def shownText (onlyMagics : Bool) (text : List UInt8) : List (SpanKind × List UInt8) :=
  if text = [] then []
  else if text = opening then []
  else if text.head? = some Byte.percent then
    if onlyMagics && isMagicText text then [(.magic, text)] else [(.lineComment, text)]
  else
    (.code, (text.takeWhile (· != Byte.percent)).rdropWhile Byte.isBlank) ::
      (if Byte.percent ∈ text then [(.lineComment, text.dropWhile (· != Byte.percent))] else [])

/-- Behind its indent a line is the trimmed text and blanks. -/
theorem exists_body (line : List UInt8) :
    ∃ post, line.drop (Byte.indent line) = Byte.trim line ++ post ∧
      ∀ b ∈ post, Byte.isBlank b = true := by
  obtain ⟨post, hline, hpost⟩ := exists_margins Byte.isBlank line
  refine ⟨post, ?_, hpost⟩
  have hdrop := congrArg (List.drop (Byte.indent line)) hline
  rw [List.append_assoc] at hdrop
  exact hdrop.trans (List.drop_left' rfl)

theorem takeWhile_append_drop_indent (line : List UInt8) :
    line.takeWhile Byte.isBlank ++ line.drop (Byte.indent line) = line := by
  have hsplit := List.takeWhile_append_dropWhile (p := Byte.isBlank) (l := line)
  have hdrop : line.drop (Byte.indent line) = line.dropWhile Byte.isBlank := by
    conv => lhs; arg 2; rw [← hsplit]
    exact List.drop_left' rfl
  rw [hdrop, hsplit]

/-- The first sign of a line stands behind its indent. -/
theorem takeWhile_percent (line : List UInt8) :
    line.takeWhile (· != Byte.percent) = line.takeWhile Byte.isBlank
      ++ (line.drop (Byte.indent line)).takeWhile (· != Byte.percent) := by
  conv => lhs; rw [← takeWhile_append_drop_indent line]
  exact List.takeWhile_append_of_pos fun b hb => ne_percent_of_isBlank (List.mem_takeWhile_imp hb)

theorem drop_percent (line : List UInt8) :
    line.drop (line.takeWhile (· != Byte.percent)).length
      = (line.drop (Byte.indent line)).dropWhile (· != Byte.percent) := by
  have hsplit := List.takeWhile_append_dropWhile (p := (· != Byte.percent))
    (l := line.drop (Byte.indent line))
  have hline := takeWhile_append_drop_indent line
  rw [← hsplit, ← List.append_assoc, ← takeWhile_percent] at hline
  conv => lhs; arg 2; rw [← hline]
  exact List.drop_left' rfl

variable {onlyMagics : Bool} {doc pre line tail : List UInt8}

theorem shown_whole (hdoc : doc = pre ++ (line ++ tail)) (kind : SpanKind)
    (hkind : kind ≠ .blockComment) :
    Span.shown doc ⟨⟨pre.length + Byte.indent line, pre.length + line.length⟩, kind⟩
      = (kind, Byte.trim line) := by
  obtain ⟨post, hbody, hpost⟩ := exists_body line
  have hindent := Byte.indent_le line
  rw [Span.shown, if_neg hkind, Span.bytesOf_line hdoc hindent (Nat.le_refl _),
    List.take_of_length_le (by rw [List.length_drop]), hbody, rdropWhile_append hpost,
    rdropWhile_eq_self_of_getLast? fun b hb => getLast?_strip hb]

theorem shown_code (hdoc : doc = pre ++ (line ++ tail)) :
    Span.shown doc ⟨⟨pre.length + Byte.indent line,
        pre.length + (line.takeWhile (· != Byte.percent)).length⟩, .code⟩
      = (.code, ((Byte.trim line).takeWhile (· != Byte.percent)).rdropWhile Byte.isBlank) := by
  obtain ⟨post, hbody, hpost⟩ := exists_body line
  have hindent := Byte.indent_le line
  have hsign : (line.takeWhile (· != Byte.percent)).length ≤ line.length :=
    (List.takeWhile_sublist _).length_le
  -- how far the code goes is counted from the indent
  have hlen : (line.takeWhile (· != Byte.percent)).length - Byte.indent line
      = ((line.drop (Byte.indent line)).takeWhile (· != Byte.percent)).length := by
    rw [takeWhile_percent, List.length_append]
    exact Nat.add_sub_cancel_left _ _
  rw [Span.shown, if_neg nofun, Span.bytesOf_line hdoc hindent hsign, hlen,
    ← List.prefix_iff_eq_take.mp (List.takeWhile_prefix _), hbody,
    rdropWhile_takeWhile_append hpost fun b hb => ne_percent_of_isBlank (hpost b hb)]

/-- A line has a comment behind its code exactly when there is a sign on it. -/
theorem sign_lt_iff (line : List UInt8) :
    (line.takeWhile (· != Byte.percent)).length < line.length ↔ Byte.percent ∈ Byte.trim line := by
  obtain ⟨post, hbody, hpost⟩ := exists_body line
  have hne : line.drop (line.takeWhile (· != Byte.percent)).length = [] ↔
      Byte.percent ∉ Byte.trim line := by
    rw [drop_percent, List.dropWhile_eq_nil_iff, hbody]
    constructor
    · intro h hmem
      exact absurd (h _ (List.mem_append_left _ hmem)) (by decide)
    · intro h b hb
      rcases List.mem_append.mp hb with hb | hb
      · exact bne_iff_ne.mpr fun heq => h (heq ▸ hb)
      · exact ne_percent_of_isBlank (hpost b hb)
  rw [List.drop_eq_nil_iff] at hne
  rw [← Nat.not_le, hne, Classical.not_not]

theorem shown_comment (hdoc : doc = pre ++ (line ++ tail)) (hmem : Byte.percent ∈ Byte.trim line) :
    Span.shown doc ⟨⟨pre.length + (line.takeWhile (· != Byte.percent)).length,
        pre.length + line.length⟩, .lineComment⟩
      = (.lineComment, (Byte.trim line).dropWhile (· != Byte.percent)) := by
  obtain ⟨post, hbody, hpost⟩ := exists_body line
  have hsign : (line.takeWhile (· != Byte.percent)).length ≤ line.length :=
    (List.takeWhile_sublist _).length_le
  rw [Span.shown, if_neg nofun, Span.bytesOf_line hdoc hsign (Nat.le_refl _),
    List.take_of_length_le (by rw [List.length_drop]), drop_percent, hbody,
    rdropWhile_dropWhile_append hmem (by decide) hpost fun b hb => getLast?_strip hb]

/-- **What the spans of a line show depends on the trimmed line only.** -/
theorem shown_readOutside (hdoc : doc = pre ++ (line ++ tail)) :
    (readOutside onlyMagics pre.length line).1.map (Span.shown doc)
      = shownText onlyMagics (Byte.trim line) := by
  unfold readOutside shownText
  dsimp only
  split_ifs with hnil hopening hpercent hmagic hlt hmem hmem
  · rfl
  · rfl
  · rw [List.map_singleton, shown_whole hdoc .magic nofun]
  · rw [List.map_singleton, shown_whole hdoc .lineComment nofun]
  · rw [List.map_cons, List.map_singleton, shown_code hdoc, shown_comment hdoc hmem]
  · exact absurd ((sign_lt_iff line).mp (Nat.lt_of_add_lt_add_left hlt)) hmem
  · exact absurd (Nat.add_lt_add_left ((sign_lt_iff line).mpr hmem) _) hlt
  · rw [List.map_singleton, shown_code hdoc]

/-- And so does what is known behind the line, unless a block comment opens. -/
theorem readOutside_mode_eq {line' : List UInt8} {start start' : Nat}
    (h : Byte.trim line = Byte.trim line') (hne : Byte.trim line ≠ opening) :
    (readOutside onlyMagics start line).2 = (readOutside onlyMagics start' line').2 := by
  unfold readOutside
  dsimp only
  rw [← h, if_neg hne]
  split_ifs <;> rfl

end Outline

end MatlabEdit
