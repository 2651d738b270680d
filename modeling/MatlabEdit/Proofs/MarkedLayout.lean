import MatlabEdit.Proofs.Seams

/-!
# A byte order mark and the layout

The scanner skips a byte order mark, and the layout does not. The mark is no white space and
part of no word, so the line behind it is taken for a text that starts with the mark: it is
no delimiter, no keyword is found on it, and white space behind the mark is not in front of
the line (`place_marked`). The lines below are laid out as if they were a document of their
own (`reindent_mark_append_line`), whatever the first line opens.

So a mark changes nothing exactly in front of a line of which the layout needs to know
nothing (`Line.BearsMark`): it is blank, or it is a text at the left edge that opens neither
a block nor a `switch` nor a comment. Behind a mark in front of any other line, there are
lines that are not laid out as they are without it.
-/

namespace MatlabEdit

/-- The line with a byte order mark in front. -/
def Line.marked (line : Line) : Line := ⟨'\uFEFF' :: line.text, line.ending⟩

/-- A line of which nothing has to be known: neither where it stands, nor what it opens. -/
def Line.BearsMark (line : Line) : Prop :=
  trim line.text = [] ∨
    trimStart line.text = line.text ∧ trim line.text ≠ ['%', '{'] ∧
      opensBlock (trim line.text) = false ∧ opensSwitch (trim line.text) = false

instance (line : Line) : Decidable line.BearsMark := by
  unfold Line.BearsMark
  infer_instance

/-! ## A line behind a mark -/

theorem trimEnd_cons {c : Char} (h : isWhite c = false) (text : List Char) :
    trimEnd (c :: text) = c :: trimEnd text := by
  have hstop : [c].dropWhile isWhite = [c] := List.dropWhile_cons_of_neg (by rw [h]; decide)
  rw [trimEnd, trimEnd, List.reverse_cons, List.dropWhile_append, hstop]
  split_ifs with hall
  · rw [List.isEmpty_iff.mp hall]
    rfl
  · rw [List.reverse_append]
    rfl

theorem trim_marked (line : Line) : trim line.marked.text = '\uFEFF' :: trimEnd line.text := by
  have hmark : isWhite '\uFEFF' = false := by decide
  have hstart : trimStart line.marked.text = '\uFEFF' :: line.text :=
    List.dropWhile_cons_of_neg (by rw [hmark]; decide)
  rw [trim, hstart, trimEnd_cons hmark]

/-- A mark is part of no word, so none is found behind it. -/
theorem afterKeyword?_mark {words : List String} (h : "" ∉ words) (text : List Char) :
    afterKeyword? words ('\uFEFF' :: text) = none := by
  have hmark : isWordChar '\uFEFF' = false := by decide +kernel
  have hstart : trimStart ('\uFEFF' :: text) = '\uFEFF' :: text :=
    List.dropWhile_cons_of_neg (by decide)
  have hword : leadingWord ('\uFEFF' :: text) = [] :=
    List.takeWhile_cons_of_neg (by rw [hmark]; decide)
  unfold afterKeyword?
  dsimp only
  rw [hstart, hword]
  exact if_neg h

namespace Layout

/-- **A line behind a mark is a text at the left edge**, and the lines below it are laid out as at
the start of a document. -/
theorem place_marked (config : IndentConfig) (line : Line) :
    (start.place config line.marked).1.chars
        = '\uFEFF' :: (trimEnd line.text ++ line.ending.chars) ∧
      start.Resembles (start.place config line.marked).2 := by
  have htrim := trim_trim line.marked.text
  have hrole : line.marked.role start.depth = .text := by
    rw [Line.role_eq_text_iff, ne_eq, Line.role_eq_comment_iff, trim_marked]
    simp [start]
  rw [place_of_textLine hrole, columnFor_start config htrim, trim_marked]
  refine ⟨rfl, rfl, ?_, ?_, ?_⟩
  · exact leadingWidth_spaces_append fun c hc => by
      obtain rfl := Option.some.inj hc
      decide
  · rw [opensBlock_spaces_append, opensBlock, afterKeyword?_mark (by decide)]
    rfl
  · rw [opensSwitch_spaces_append, opensSwitch, afterKeyword?_mark (by decide)]
    rfl

end Layout

/-! ## A document behind a mark -/

section Document

variable {text : List Char} {first : Line} {rest : List Line}

/-- Every text has a first line, if an empty one is allowed for. -/
theorem Line.exists_cuts_cons (text : List Char) :
    ∃ first rest, Line.Cuts text (first :: rest) ∧
      ((split text).head? = some first ∨ first.text = []) := by
  have hcuts := Line.cuts_split text
  cases hsplit : split text with
  | nil =>
    rw [hsplit] at hcuts
    refine ⟨⟨[], .none⟩, [], ⟨hcuts.flatMap_chars, ?_, fun _ => rfl, trivial⟩, .inr rfl⟩
    intro line hline
    rw [List.mem_singleton.mp hline]
    exact cut_of_ending_none List.not_mem_nil
  | cons first rest =>
    rw [hsplit] at hcuts
    exact ⟨first, rest, hcuts, .inl rfl⟩

/-- The mark goes to the first line. -/
theorem Line.Cuts.mark (h : Line.Cuts text (first :: rest)) :
    Line.Cuts ('\uFEFF' :: text) (first.marked :: rest) where
  flatMap_chars := by
    have htext := h.flatMap_chars
    rw [List.flatMap_cons] at htext ⊢
    rw [← htext]
    rfl
  cut := by
    intro line hline
    rcases List.mem_cons.mp hline with rfl | hline
    · obtain ⟨hfeed, hreturn⟩ := h.cut first List.mem_cons_self
      refine ⟨?_, fun hending hlast => ?_⟩
      · intro hmem
        rcases List.mem_cons.mp hmem with heq | hmem
        · exact absurd heq (by decide)
        · exact hfeed hmem
      · -- the last character of the line is the mark only if there is no other
        rw [Line.marked, List.getLast?_cons] at hlast
        cases hback : first.text.getLast? with
        | none =>
          rw [hback] at hlast
          exact absurd (Option.some.inj hlast) (by decide)
        | some c =>
          rw [hback] at hlast
          exact hreturn hending (hback.trans hlast)
    · exact h.cut line (List.mem_cons_of_mem _ hline)
  ended := h.ended

/-- **The first line goes with the mark, and the rest is a document of its own.** -/
theorem reindent_mark_append_line (config : IndentConfig) {text : String}
    (h : Line.Cuts text.toList (first :: rest)) :
    (reindent config ("\uFEFF" ++ text)).toList
      = '\uFEFF' :: (trimEnd first.text ++ first.ending.chars
        ++ (Layout.start.run config rest).1.flatMap Piece.chars) := by
  have hmark : Line.Cuts ("\uFEFF" ++ text).toList (first.marked :: rest) := by
    rw [String.toList_append]
    exact h.mark
  obtain ⟨hpiece, hbelow⟩ := Layout.place_marked config first
  rw [reindent_of_cuts config hmark, String.toList_ofList, Layout.run_cons, List.flatMap_cons,
    hpiece, hbelow.run_eq]
  rfl

theorem reindent_line (config : IndentConfig) {text : String}
    (h : Line.Cuts text.toList (first :: rest)) :
    (reindent config text).toList = (Layout.start.place config first).1.chars
      ++ ((Layout.start.place config first).2.run config rest).1.flatMap Piece.chars := by
  rw [reindent_of_cuts config h, String.toList_ofList, Layout.run_cons, List.flatMap_cons]

/-- Whether the mark makes a difference, told by the first line and by what comes of the others. -/
theorem reindent_mark_append_iff (config : IndentConfig) {text : String}
    (h : Line.Cuts text.toList (first :: rest)) :
    reindent config ("\uFEFF" ++ text) = "\uFEFF" ++ reindent config text ↔
      trimEnd first.text ++ first.ending.chars
          ++ (Layout.start.run config rest).1.flatMap Piece.chars
        = (Layout.start.place config first).1.chars
          ++ ((Layout.start.place config first).2.run config rest).1.flatMap Piece.chars := by
  rw [← String.toList_inj, String.toList_append, reindent_mark_append_line config h,
    reindent_line config h]
  constructor
  · intro heq
    exact (List.cons.inj heq).2
  · intro heq
    rw [heq]
    rfl

end Document

/-! ## Which lines bear a mark -/

/-- White space in front of a text is what a trim takes away besides that behind it. -/
theorem trimStart_eq_self_of_trimEnd {text : List Char} (h : trimEnd text = trim text)
    (hne : trim text ≠ []) : trimStart text = text := by
  have hsplit := takeWhile_append_trimStart text
  have hback : (trimStart text).reverse.dropWhile isWhite ≠ [] := fun hnil => hne (by
    rw [trim, trimEnd, hnil]
    rfl)
  have hend : trimEnd text = text.takeWhile isWhite ++ trim text := by
    conv => lhs; rw [← hsplit]
    rw [trimEnd, List.reverse_append, List.dropWhile_append,
      if_neg (by rwa [List.isEmpty_iff]), List.reverse_append, List.reverse_reverse]
    rfl
  rw [h] at hend
  have hfront : text.takeWhile isWhite = [] := List.self_eq_append_left.mp hend
  rwa [hfront, List.nil_append] at hsplit

theorem trimEnd_of_blank {text : List Char} (h : trim text = []) : trimEnd text = [] := by
  have hall := strip_eq_nil_iff.mp h
  rw [trimEnd, List.reverse_eq_nil_iff, List.dropWhile_eq_nil_iff]
  exact fun c hc => hall c (List.mem_reverse.mp hc)

/-- **A line bears a mark if it comes out as it does behind one**, and leaves nothing to be
known. -/
theorem Line.bearsMark_iff (config : IndentConfig) (line : Line) :
    line.BearsMark ↔
      trimEnd line.text ++ line.ending.chars = (Layout.start.place config line).1.chars ∧
        Layout.start.Resembles (Layout.start.place config line).2 := by
  unfold BearsMark
  cases hrole : line.role Layout.start.depth with
  | comment =>
    have hopening : trim line.text = ['%', '{'] :=
      (role_eq_comment_iff.mp hrole).resolve_left (Nat.lt_irrefl 0)
    have hdepth : line.depthBelow Layout.start.depth = 1 := if_pos hopening
    rw [Layout.place_of_comment hrole, hopening, hdepth]
    refine iff_of_false (by simp) ?_
    rintro ⟨_, hbelow⟩
    exact Nat.one_ne_zero hbelow.depth_eq
  | blank =>
    have hblank := (role_eq_blank_iff.mp hrole).2
    rw [Layout.place_of_blankLine hrole, trimEnd_of_blank hblank]
    exact iff_of_true (.inl hblank) ⟨rfl, .refl _⟩
  | text =>
    obtain ⟨hcomment, hne⟩ := role_eq_text_iff.mp hrole
    have hopening : trim line.text ≠ ['%', '{'] :=
      fun h => hcomment (role_eq_comment_iff.mpr (.inr h))
    have htrim := Layout.trim_trim line.text
    rw [Layout.place_of_textLine hrole, Layout.columnFor_start config htrim]
    constructor
    · intro h
      obtain ⟨hstart, _, hopens, hswitch⟩ := h.resolve_left hne
      have htext : trim line.text = trimEnd line.text := by rw [trim, hstart]
      refine ⟨by rw [htext]; rfl, rfl, ?_, ?_, ?_⟩
      · exact leadingWidth_spaces_append (ends_of_trim htrim).1
      · rw [opensBlock_spaces_append, hopens]
        rfl
      · rw [opensSwitch_spaces_append, hswitch]
        rfl
    · rintro ⟨hpiece, hbelow⟩
      have hopens := hbelow.opensBlock_eq
      have hswitch := hbelow.opensSwitch_eq
      rw [opensBlock_spaces_append] at hopens
      rw [opensSwitch_spaces_append] at hswitch
      exact .inr ⟨trimStart_eq_self_of_trimEnd (List.append_cancel_right hpiece) hne, hopening,
        hopens, hswitch⟩

theorem reindent_mark_append_of_bearsMark (config : IndentConfig) {text : String}
    (h : ∀ line, (Line.split text.toList).head? = some line → line.BearsMark) :
    reindent config ("\uFEFF" ++ text) = "\uFEFF" ++ reindent config text := by
  obtain ⟨first, rest, hcuts, hfirst⟩ := Line.exists_cuts_cons text.toList
  have hbears : first.BearsMark := by
    rcases hfirst with hhead | hempty
    · exact h first hhead
    · left
      rw [hempty]
      rfl
  obtain ⟨hpiece, hbelow⟩ := (Line.bearsMark_iff config first).mp hbears
  rw [reindent_mark_append_iff config hcuts, hpiece, hbelow.run_eq]

theorem bearsMark_of_forall_mark {config : IndentConfig} {first : Line} (hfirst : first.Whole)
    (h : ∀ rest : String, reindent config ("\uFEFF" ++ (String.ofList first.chars ++ rest))
      = "\uFEFF" ++ reindent config (String.ofList first.chars ++ rest)) : first.BearsMark := by
  have hboth : ∀ rest : List Char, trimEnd first.text ++ first.ending.chars
        ++ (Layout.start.run config (Line.split rest)).1.flatMap Piece.chars
      = (Layout.start.place config first).1.chars
        ++ ((Layout.start.place config first).2.run config (Line.split rest)).1.flatMap
          Piece.chars := by
    intro rest
    have hcuts : Line.Cuts (String.ofList first.chars ++ String.ofList rest).toList
        (first :: Line.split rest) := by
      rw [String.toList_append, String.toList_ofList, String.toList_ofList,
        ← Line.split_chars_append hfirst]
      exact Line.cuts_split _
    exact (reindent_mark_append_iff config hcuts).mp (h _)
  have hpiece : trimEnd first.text ++ first.ending.chars
      = (Layout.start.place config first).1.chars := by
    have hnil : Line.split [] = [] := by
      rw [Line.split]
      rfl
    have hempty := hboth []
    rw [hnil] at hempty
    exact List.append_cancel_right hempty
  refine (Line.bearsMark_iff config first).mpr ⟨hpiece, ?_⟩
  rw [← Layout.looksFresh_iff config]
  intro rest
  have hrest := hboth rest
  rw [hpiece] at hrest
  exact List.append_cancel_left hrest

/-- **A mark makes no difference in front of a line that bears it, and in front of no other
line.** -/
theorem reindent_mark_append (config : IndentConfig) :
    (∀ text : String, (∀ line, (Line.split text.toList).head? = some line → line.BearsMark) →
        reindent config ("\uFEFF" ++ text) = "\uFEFF" ++ reindent config text) ∧
      ∀ first : Line, first.Whole →
        ((∀ rest : String, reindent config ("\uFEFF" ++ (String.ofList first.chars ++ rest))
            = "\uFEFF" ++ reindent config (String.ofList first.chars ++ rest)) ↔
          first.BearsMark) := by
  refine ⟨fun text h => reindent_mark_append_of_bearsMark config h, fun first hfirst => ?_⟩
  refine ⟨bearsMark_of_forall_mark hfirst, fun hbears rest => ?_⟩
  refine reindent_mark_append_of_bearsMark config fun line hline => ?_
  rw [String.toList_append, String.toList_ofList, Line.split_chars_append hfirst] at hline
  rwa [← Option.some.inj hline]

theorem reindent_mark_append_assignment :
    (∀ line, (Line.split "x = 1;\n  if y\nz\n".toList).head? = some line → line.BearsMark) ∧
      reindent default ("\uFEFF" ++ "x = 1;\n  if y\nz\n")
        = "\uFEFF" ++ reindent default "x = 1;\n  if y\nz\n" ∧
      (⟨"x = 1;".toList, .lf⟩ : Line).Whole ∧
      ∀ rest : String, reindent default ("\uFEFF" ++ ("x = 1;\n" ++ rest))
        = "\uFEFF" ++ reindent default ("x = 1;\n" ++ rest) := by
  have hsplit : (Line.split "x = 1;\n  if y\nz\n".toList).head?
      = some ⟨"x = 1;".toList, .lf⟩ := by decide +kernel
  have hbears : (⟨"x = 1;".toList, .lf⟩ : Line).BearsMark := by decide +kernel
  have hfirst : ∀ line, (Line.split "x = 1;\n  if y\nz\n".toList).head? = some line →
      line.BearsMark := by
    intro line hline
    rw [hsplit] at hline
    rwa [← Option.some.inj hline]
  have hwhole : (⟨"x = 1;".toList, .lf⟩ : Line).Whole :=
    ⟨by decide, by decide, fun _ => by decide⟩
  exact ⟨hfirst, (reindent_mark_append default).1 _ hfirst, hwhole,
    ((reindent_mark_append default).2 _ hwhole).mpr hbears⟩

/-- The scanner sees a block comment behind the mark, and the layout moves its lines. -/
theorem reindent_mark_append_opening :
    tokenize "\uFEFF%\x7b\n  a\n%\x7d\n" = [⟨⟨3, 12⟩, .blockComment⟩] ∧
      reindent default ("\uFEFF" ++ "%\x7b\n  a\n%\x7d\n") = "\uFEFF%\x7b\na\n%\x7d\n" ∧
      reindent default "%\x7b\n  a\n%\x7d\n" = "%\x7b\n  a\n%\x7d\n" ∧
      reindent default ("\uFEFF" ++ "%\x7b\n  a\n%\x7d\n")
        ≠ "\uFEFF" ++ reindent default "%\x7b\n  a\n%\x7d\n" := by
  decide +kernel

end MatlabEdit
