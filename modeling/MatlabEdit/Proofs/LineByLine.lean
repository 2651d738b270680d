import MatlabEdit.Proofs.BlockLine
import MatlabEdit.Proofs.Outline
import MatlabEdit.Proofs.ScanLine

/-!
# The scanner reads line by line

The scanner and the outline of a document agree. Between two lines the scanner is
in one of two situations: it is about to ask for the next span, or it is in the
middle of a block comment. `spansFrom` says what is still to come in either, and
the step is that one line takes it to the next (`spansFrom_line`). The run is an
induction over what is ahead.

All this holds where every line end is a break. A NUL byte is a line end for the
look around a delimiter and none for a comment, so a document with NUL bytes has
no outline.
-/

namespace MatlabEdit

open Cursor Outline

variable {s : Source}

namespace Cursor.AtLine

variable {c : Cursor s} {line tail : List UInt8}

theorem pos_forward (hc : c.AtLine line tail) {n : Nat} (hn : n ≤ line.length) :
    (c.forward n).pos = c.pos + n :=
  pos_forward_of_le (by rw [hc.rest, List.length_append]; omega)

theorem isBreak_of_mem (hc : c.AtLine line tail) {b : UInt8} (hb : b ∈ line) :
    Byte.isBreak b = false :=
  (Bool.or_eq_false_iff.mp (hc.line b hb)).1

/-- The text of a line stands behind the leading blanks, and blanks follow it. -/
theorem rest_indent (hc : c.AtLine line tail) :
    ∃ post, (∀ b ∈ post, Byte.isBlank b = true) ∧
      line = line.takeWhile Byte.isBlank ++ Byte.trim line ++ post ∧
      (c.forward (Byte.indent line)).rest = Byte.trim line ++ (post ++ tail) := by
  obtain ⟨post, hline, hpost⟩ := exists_margins Byte.isBlank line
  refine ⟨post, hpost, hline, ?_⟩
  have hrest : c.rest = line.takeWhile Byte.isBlank ++ (Byte.trim line ++ (post ++ tail)) := by
    rw [hc.rest]
    conv => lhs; rw [hline]
    simp only [List.append_assoc]
    rfl
  rw [Cursor.rest_forward, hrest]
  exact List.drop_left

/-- Behind the break of a line, the next one starts. -/
theorem next_line {b : UInt8} (hc : c.AtLine line (b :: tail)) :
    (c.forward (line.length + 1)).rest = tail ∧
      (c.forward (line.length + 1)).pos = c.pos + line.length + 1 ∧
      (c.forward (line.length + 1)).precededByBlanks = true := by
  have hbreak : (c.forward line.length).rest = b :: tail := by
    rw [hc.rest_forward (Nat.le_refl _), List.drop_length]
    rfl
  have hlt := pos_lt_of_rest_eq_cons hbreak
  have hnext : c.forward (line.length + 1) = (c.forward line.length).next hlt := by
    rw [next_eq_forward, forward_forward]
  rw [hnext]
  refine ⟨rest_next_of_rest_eq_cons hbreak, ?_, ?_⟩
  · rw [pos_next, hc.pos_forward (Nat.le_refl _)]
  · refine precededByBlanks_next hlt ?_
    rw [current_of_rest_eq_cons hbreak]
    exact hc.tail b rfl

end Cursor.AtLine

namespace Scanner

variable {c : Cursor s} {line tail : List UInt8}

theorem run_indent (hc : c.AtLine line tail) (phase : Phase) :
    run ⟨c, phase⟩ = run ⟨c.forward (Byte.indent line), phase⟩ := by
  obtain ⟨post, _, hline, _⟩ := hc.rest_indent
  have hrest : c.rest = line.takeWhile Byte.isBlank ++ (Byte.trim line ++ post ++ tail) := by
    rw [hc.rest]
    conv => lhs; rw [hline]
    simp only [List.append_assoc]
  exact run_eq_of_blanks hrest (fun b hb => isSkipped_of_isBlank (List.mem_takeWhile_imp hb)) phase

/-- Where only blanks are left of a line, the scanner goes on at the next one. -/
theorem run_next_line (hc : c.AtLine line tail)
    (htail : ∀ b, tail.head? = some b → Byte.isBreak b = true) {m : Nat} (hm : m ≤ line.length)
    (hblank : ∀ b ∈ line.drop m, Byte.isBlank b = true) (phase : Phase) :
    run ⟨c.forward m, phase⟩ = run ⟨c.forward (line.length + 1), phase⟩ := by
  have hrest := hc.rest_forward hm
  have hskip : ∀ b ∈ line.drop m, isSkipped b = true :=
    fun b hb => isSkipped_of_isBlank (hblank b hb)
  cases tail with
  | nil =>
    -- with no break behind the line, both places are the end of the document
    have hend : (c.forward m).forward (line.drop m).length = c.forward (line.length + 1) := by
      refine eq_of_rest_eq ?_
      rw [forward_forward, Cursor.rest_forward, Cursor.rest_forward, hc.rest, List.append_nil,
        List.length_drop, List.drop_eq_nil_of_le (by omega), List.drop_eq_nil_of_le (by omega)]
    rw [run_eq_of_blanks hrest hskip, hend]
  | cons b tail =>
    have hsplit : (c.forward m).rest = (line.drop m ++ [b]) ++ tail := by
      rw [hrest, List.append_assoc]
      rfl
    -- the break is passed like the blanks before it
    have hrun : ∀ x ∈ line.drop m ++ [b], isSkipped x = true := by
      intro x hx
      rcases List.mem_append.mp hx with hx | hx
      · exact hskip x hx
      · rw [List.mem_singleton.mp hx]
        exact isSkipped_of_isBreak (htail b rfl)
    have hlen : m + (line.drop m ++ [b]).length = line.length + 1 := by
      rw [List.length_append, List.length_drop, List.length_singleton]
      omega
    rw [run_eq_of_blanks hsplit hrun, forward_forward, hlen]

theorem run_line_end (hc : c.AtLine line tail)
    (htail : ∀ b, tail.head? = some b → Byte.isBreak b = true) (phase : Phase) :
    run ⟨c.forward line.length, phase⟩ = run ⟨c.forward (line.length + 1), phase⟩ :=
  run_next_line hc htail (Nat.le_refl _) (by simp) phase

end Scanner

/-! ## Magics -/

theorem headD_dropWhile_append {l tail : List UInt8}
    (htail : ∀ b, tail.head? = some b → Byte.isBreak b = true) :
    Byte.isLetter (((l ++ tail).dropWhile Byte.isBlank).headD Byte.boundary)
      = (l.dropWhile Byte.isBlank).head?.any Byte.isLetter := by
  induction l with
  | nil =>
    cases tail with
    | nil => rfl
    | cons b tail => rcases Byte.isBreak_iff.mp (htail b rfl) with rfl | rfl <;> rfl
  | cons b l ih =>
    rw [List.cons_append]
    by_cases hb : Byte.isBlank b = true
    · rw [List.dropWhile_cons_of_pos hb, List.dropWhile_cons_of_pos hb, ih]
    · rw [List.dropWhile_cons_of_neg hb, List.dropWhile_cons_of_neg hb]
      rfl

/-- Blanks behind a text hold no letter. -/
theorem any_isLetter_dropWhile_append {text post : List UInt8}
    (hpost : ∀ b ∈ post, Byte.isBlank b = true) :
    ((text ++ post).dropWhile Byte.isBlank).head?.any Byte.isLetter
      = (text.dropWhile Byte.isBlank).head?.any Byte.isLetter := by
  rw [List.dropWhile_append]
  cases hd : text.dropWhile Byte.isBlank with
  | nil => rw [List.dropWhile_eq_nil_iff.mpr hpost]; rfl
  | cons a rest => rfl

/-- Behind a text, blanks and a break follow, or the end, but no comment sign. -/
theorem headD_ne_percent {post tail : List UInt8} (hpost : ∀ b ∈ post, Byte.isBlank b = true)
    (htail : ∀ b, tail.head? = some b → Byte.isBreak b = true) :
    (post ++ tail).headD Byte.boundary ≠ Byte.percent := by
  cases post with
  | cons b post =>
    exact bne_iff_ne.mp (ne_percent_of_isBlank (hpost b List.mem_cons_self))
  | nil =>
    cases tail with
    | nil => decide
    | cons b tail =>
      show b ≠ Byte.percent
      intro h
      exact absurd (h ▸ htail b rfl) (by decide)

/-- Whether a magic starts can be read off the text of the line: what follows the text holds no
comment sign and no letter before the line ends. -/
theorem isMagicStart_eq {c : Cursor s} {text post tail : List UInt8}
    (hrest : c.rest = text ++ (post ++ tail)) (hpost : ∀ b ∈ post, Byte.isBlank b = true)
    (htail : ∀ b, tail.head? = some b → Byte.isBreak b = true) (hne : text ≠ []) :
    c.isMagicStart = isMagicText text := by
  have hletter : Byte.isLetter (c.moveBy 2).skipBlanks.current
      = Byte.isLetter (((c.rest.drop 2).dropWhile Byte.isBlank).headD Byte.boundary) := by
    rw [current_eq_headD, skipBlanks, rest_skipWhile, moveBy_two, rest_forward]
  unfold isMagicStart isMagicText
  rw [hletter, peek_zero, peek_one, current_eq_headD, hrest]
  cases text with
  | nil => exact absurd rfl hne
  | cons b text =>
    cases text with
    | nil =>
      -- one sign alone is no magic, and nothing behind the text makes it two
      have hdrop : ([b] ++ (post ++ tail)).drop 1 = post ++ tail := rfl
      have hfalse : ((post ++ tail).headD Byte.boundary == Byte.percent) = false :=
        beq_eq_false_iff_ne.mpr (headD_ne_percent hpost htail)
      rw [hdrop, hfalse]
      simp
    | cons b' after =>
      -- the letter is looked for behind the blanks, on the text or nowhere
      have hdrop : ((b :: b' :: after) ++ (post ++ tail)).drop 2 = after ++ post ++ tail :=
        (List.append_assoc after post tail).symm
      rw [hdrop, headD_dropWhile_append htail, any_isLetter_dropWhile_append hpost]
      simp

/-! ## Code -/

theorem drop_of_eq_append {α : Type} {l pre post : List α} (h : l = pre ++ post) :
    l.drop pre.length = post := by
  subst h
  exact List.drop_left

/-- A line that starts with code is blanks, the code, and what follows from the first comment sign
on. -/
theorem exists_code {line : List UInt8} (hne : Byte.trim line ≠ [])
    (h : (Byte.trim line).head? ≠ some Byte.percent) :
    ∃ b run after, line = line.takeWhile Byte.isBlank ++ b :: run ++ after ∧
      b ≠ Byte.percent ∧ Byte.isBlank b = false ∧ (∀ x ∈ run, x ≠ Byte.percent) ∧
      (∀ x, after.head? = some x → x = Byte.percent) ∧
      line.takeWhile (· != Byte.percent) = line.takeWhile Byte.isBlank ++ b :: run := by
  obtain ⟨post, hline, _⟩ := exists_margins Byte.isBlank line
  obtain ⟨b, text, htext⟩ := List.exists_cons_of_ne_nil hne
  rw [show strip Byte.isBlank line = b :: text from htext] at hline
  have hb : b ≠ Byte.percent := fun heq => h (by rw [htext, heq]; rfl)
  have hpre : ∀ x ∈ line.takeWhile Byte.isBlank, (x != Byte.percent) = true := fun x hx =>
    ne_percent_of_isBlank (List.mem_takeWhile_imp hx)
  refine ⟨b, (text ++ post).takeWhile (· != Byte.percent),
    (text ++ post).dropWhile (· != Byte.percent), ?_, hb, ?_, ?_, ?_, ?_⟩
  · rw [List.append_assoc, List.cons_append, List.takeWhile_append_dropWhile, ← List.cons_append,
      ← List.append_assoc]
    exact hline
  · exact head?_strip (l := line) (by rw [show strip Byte.isBlank line = b :: text from htext]; rfl)
  · intro x hx
    simpa using List.mem_takeWhile_imp hx
  · intro x hx
    simpa using head?_dropWhile_eq_false hx
  · conv => lhs; rw [hline]
    rw [List.append_assoc, List.takeWhile_append_of_pos hpre, List.cons_append,
      List.takeWhile_cons_of_pos (by simpa using hb)]

/-! ## One line -/

/-- The phase that a reading outside every block comment stands for. -/
def phaseOf (onlyMagics : Bool) : Phase := if onlyMagics then .preamble else .body

theorem allowsMagic_phaseOf (onlyMagics : Bool) :
    (phaseOf onlyMagics).allowsMagic = onlyMagics := by
  cases onlyMagics <;> rfl

/-- The spans that are still to come at a cursor. -/
def spansFrom (mode : Mode) (c : Cursor s) : List Span :=
  match mode with
  | .outside onlyMagics => (Scanner.run ⟨c, phaseOf onlyMagics⟩).1
  | .inside opener depth =>
    ⟨⟨opener, (OpenBlock.mk depth c).finish.pos⟩, .blockComment⟩
      :: (Scanner.run ⟨(OpenBlock.mk depth c).finish, .body⟩).1

section Line

variable {c : Cursor s} {line tail : List UInt8} (hc : c.AtLine line tail)
  (htail : ∀ b, tail.head? = some b → Byte.isBreak b = true)
include hc htail

theorem spansFrom_blank {onlyMagics : Bool} (h : Byte.trim line = []) :
    spansFrom (.outside onlyMagics) c
      = spansFrom (.outside onlyMagics) (c.forward (line.length + 1)) := by
  have hrun := Scanner.run_next_line hc htail (Nat.zero_le _) (strip_eq_nil_iff.mp h)
    (phaseOf onlyMagics)
  rw [forward_zero] at hrun
  exact congrArg Prod.fst hrun

theorem spansFrom_opening {onlyMagics : Bool} (h : Byte.trim line = opening) :
    spansFrom (.outside onlyMagics) c
      = spansFrom (.inside (c.pos + Byte.indent line) 1) (c.forward (line.length + 1)) := by
  have hle := OpenBlock.indent_add_two_le h
  have hd := (opensBlock_forward_iff hc (n := Byte.indent line) (by omega)).mpr ⟨rfl, h⟩
  obtain ⟨post, hpost, _, hrest⟩ := hc.rest_indent
  -- a magic has two signs, and the second byte of a delimiter is a brace
  have hmagic : (c.forward (Byte.indent line)).magic? (phaseOf onlyMagics) = none := by
    rw [magic?, isMagicStart_eq hrest hpost htail (by rw [h]; decide), h]
    exact if_neg (by simp [isMagicText, opening, Byte.percent, Byte.openBrace])
  have hblock : (c.forward (Byte.indent line)).blockComment?
      = some ((c.forward (Byte.indent line)).spanTo .blockComment
        (OpenBlock.opened (c.forward (Byte.indent line))).finish) := if_pos hd
  rw [h] at hrest
  rw [spansFrom, Scanner.run_indent hc, Scanner.run_of_blockComment hrest hmagic hblock,
    OpenBlock.finish_opened hc h, spanTo, hc.pos_forward (by omega)]
  rfl

/-- Behind a span that runs to the end of its line, only the break is left. -/
theorem spansFrom_line_end (onlyMagics : Bool) :
    (Scanner.run ⟨c.forward line.length, phaseOf onlyMagics⟩).1
      = spansFrom (.outside onlyMagics) (c.forward (line.length + 1)) :=
  congrArg Prod.fst (Scanner.run_line_end hc htail (phaseOf onlyMagics))

theorem toBreak_forward {m : Nat} (hm : m ≤ line.length) :
    (c.forward m).toBreak = c.forward line.length := by
  have hto := toBreak_eq_forward (hc.rest_forward hm)
    (fun b hb => hc.isBreak_of_mem (List.mem_of_mem_drop hb)) htail
  rw [hto, forward_forward, List.length_drop, Nat.add_sub_cancel' hm]

/-- From a comment sign that starts neither a magic nor a block, a comment takes the rest. -/
theorem run_sign {m : Nat} (hm : m ≤ line.length) {after : List UInt8}
    (hsign : line.drop m = Byte.percent :: after) (hopen : Byte.trim line ≠ opening) {phase : Phase}
    (hmagic : (c.forward m).magic? phase = none) :
    (Scanner.run ⟨c.forward m, phase⟩).1
      = ⟨⟨c.pos + m, c.pos + line.length⟩, .lineComment⟩
        :: spansFrom (.outside false) (c.forward (line.length + 1)) := by
  have hrest : (c.forward m).rest = Byte.percent :: (after ++ tail) := by
    rw [hc.rest_forward hm, hsign, List.cons_append]
  have hblock : (c.forward m).blockComment? = none :=
    if_neg fun hopens => hopen ((opensBlock_forward_iff hc hm).mp hopens).2
  rw [Scanner.run_of_lineComment hrest hmagic hblock, toBreak_forward hc htail hm, spanTo,
    hc.pos_forward hm, hc.pos_forward (Nat.le_refl _)]
  exact congrArg _ (spansFrom_line_end hc htail false)

theorem spansFrom_percent {onlyMagics : Bool} (hopen : Byte.trim line ≠ opening)
    (h : (Byte.trim line).head? = some Byte.percent) :
    spansFrom (.outside onlyMagics) c
      = (if onlyMagics && isMagicText (Byte.trim line) then
          ⟨⟨c.pos + Byte.indent line, c.pos + line.length⟩, .magic⟩
            :: spansFrom (.outside onlyMagics) (c.forward (line.length + 1))
        else
          ⟨⟨c.pos + Byte.indent line, c.pos + line.length⟩, .lineComment⟩
            :: spansFrom (.outside false) (c.forward (line.length + 1))) := by
  have hle := Byte.indent_le line
  obtain ⟨post, hpost, hline, hrest⟩ := hc.rest_indent
  obtain ⟨text, htext⟩ := List.head?_eq_some_iff.mp h
  have hstart := isMagicStart_eq hrest hpost htail (by rw [htext]; simp)
  have hmagic? : (c.forward (Byte.indent line)).magic? (phaseOf onlyMagics)
      = if onlyMagics && isMagicText (Byte.trim line) then
          some ((c.forward (Byte.indent line)).spanTo .magic
            ((c.forward (Byte.indent line)).moveBy 2).skipBlanks.toBreak)
        else none := by
    rw [magic?, allowsMagic_phaseOf, hstart]
  have hdrop : line.drop (Byte.indent line) = Byte.percent :: (text ++ post) := by
    rw [htext, List.append_assoc] at hline
    exact drop_of_eq_append hline
  rw [spansFrom, Scanner.run_indent hc]
  split
  · rename_i hm
    have htwo : Byte.indent line + 2 ≤ line.length := by
      have htake := (Bool.and_eq_true_iff.mp (Bool.and_eq_true_iff.mp hm).2).1
      have hlen := congrArg List.length (eq_of_beq htake)
      have hsum := congrArg List.length hline
      simp only [List.length_take, List.length_append, List.length_cons, List.length_nil]
        at hlen hsum
      unfold Byte.indent
      omega
    -- the blanks behind the two signs are on the way to the end of the line
    have hstop : ((c.forward (Byte.indent line)).moveBy 2).skipBlanks.toBreak
        = c.forward line.length := by
      rw [toBreak_skipBlanks, moveBy_two, forward_forward, toBreak_forward hc htail htwo]
    rw [if_pos hm, hstop] at hmagic?
    rw [htext, List.cons_append] at hrest
    rw [Scanner.run_of_magic hrest hmagic?, spansFrom_line_end hc htail, spanTo, hc.pos_forward hle,
      hc.pos_forward (Nat.le_refl _)]
  · rename_i hm
    rw [if_neg hm] at hmagic?
    exact run_sign hc htail hle hdrop hopen hmagic?

theorem spansFrom_code {onlyMagics : Bool} (hne : Byte.trim line ≠ [])
    (h : (Byte.trim line).head? ≠ some Byte.percent) :
    spansFrom (.outside onlyMagics) c
      = (⟨⟨c.pos + Byte.indent line, c.pos + (line.takeWhile (· != Byte.percent)).length⟩, .code⟩
          :: if c.pos + (line.takeWhile (· != Byte.percent)).length < c.pos + line.length then
            [⟨⟨c.pos + (line.takeWhile (· != Byte.percent)).length, c.pos + line.length⟩,
              .lineComment⟩]
          else [])
        ++ spansFrom (.outside false) (c.forward (line.length + 1)) := by
  obtain ⟨b, run, after, hline, hb, hblank, hrun, hafter, hcode⟩ := exists_code hne h
  have hmem : ∀ x ∈ b :: run, x ∈ line := fun x hx => by
    rw [hline]
    exact List.mem_append_left _ (List.mem_append_right _ hx)
  have hsign :
      (line.takeWhile (· != Byte.percent)).length = Byte.indent line + (run.length + 1) := by
    rw [hcode, List.length_append, List.length_cons]
    rfl
  have hlen : line.length = Byte.indent line + (run.length + 1) + after.length := by
    have := congrArg List.length hline
    rw [List.length_append, ← hcode, hsign] at this
    exact this
  have hrest : (c.forward (Byte.indent line)).rest = b :: run ++ (after ++ tail) := by
    have hdrop : line.drop (Byte.indent line) = b :: run ++ after :=
      drop_of_eq_append (hline.trans (List.append_assoc ..))
    rw [hc.rest_forward (by omega), hdrop, List.append_assoc]
  -- code stops at the first sign, or else where the line does
  have hstop : (c.forward (Byte.indent line)).codeStop
      = c.forward (Byte.indent line + (run.length + 1)) := by
    rw [codeStop_eq_forward hrest, forward_forward]
    · exact fun x hx => ⟨hrun x hx, hc.line x (hmem x (List.mem_cons_of_mem _ hx))⟩
    · intro x hx
      cases after with
      | nil => exact .inr (hc.tail x hx)
      | cons a after => exact .inl (hafter x hx)
  rw [spansFrom, Scanner.run_indent hc, Scanner.run_of_code hrest hb hblank
    (hc.line b (hmem b List.mem_cons_self)), hstop, spanTo, hc.pos_forward (by omega),
    hc.pos_forward (by omega), hsign]
  -- what is left of the line is nothing, or a comment from its first sign on
  cases hcase : after with
  | nil =>
    rw [hcase, List.length_nil, Nat.add_zero] at hlen
    rw [← hlen, if_neg (Nat.lt_irrefl _)]
    exact congrArg _ (spansFrom_line_end hc htail false)
  | cons a after' =>
    have ha : a = Byte.percent := hafter a (by rw [hcase]; rfl)
    have hdrop : line.drop (Byte.indent line + (run.length + 1)) = Byte.percent :: after' := by
      rw [hcase, ha, ← hcode] at hline
      rw [← hsign]
      exact drop_of_eq_append hline
    have hopen : Byte.trim line ≠ opening := fun heq => h (by rw [heq]; rfl)
    rw [if_pos (by rw [hlen, hcase, List.length_cons]; omega)]
    exact congrArg _ (run_sign hc htail (by omega) hdrop hopen (magic?_body _))

theorem spansFrom_outside (onlyMagics : Bool) :
    spansFrom (.outside onlyMagics) c
      = (readOutside onlyMagics c.pos line).1
        ++ spansFrom (readOutside onlyMagics c.pos line).2 (c.forward (line.length + 1)) := by
  unfold readOutside
  dsimp only
  split
  · rename_i hblank
    exact spansFrom_blank hc htail hblank
  split
  · rename_i hopen
    exact spansFrom_opening hc htail hopen
  rename_i hblank hopen
  split
  · rename_i hsign
    rw [spansFrom_percent hc htail hopen hsign]
    split <;> rfl
  · rename_i hsign
    exact spansFrom_code hc htail hblank hsign

/-- Behind the delimiter that ends a block comment, the scanner goes on at the next line. -/
theorem spansFrom_closing_one {opener : Nat} (h : Byte.trim line = closing) :
    spansFrom (.inside opener 1) c
      = ⟨⟨opener, c.pos + Byte.indent line + 2⟩, .blockComment⟩
        :: spansFrom (.outside false) (c.forward (line.length + 1)) := by
  have hle := OpenBlock.indent_add_two_le h
  obtain ⟨post, hpost, hline, _⟩ := hc.rest_indent
  have hdrop : line.drop (Byte.indent line + 2) = post := by
    have := drop_of_eq_append hline
    rwa [List.length_append, h] at this
  have hrun := Scanner.run_next_line hc htail hle (by rw [hdrop]; exact hpost) .body
  show (⟨⟨opener, (OpenBlock.mk 1 c).finish.pos⟩, .blockComment⟩ : Span)
    :: (Scanner.run ⟨(OpenBlock.mk 1 c).finish, .body⟩).1 = _
  rw [OpenBlock.finish_line_of_closing_one hc h, hc.pos_forward hle, ← Nat.add_assoc]
  exact congrArg (fun r : List Span × Scanner s => _ :: r.1) hrun

theorem spansFrom_inside (opener depth : Nat) :
    spansFrom (.inside opener depth) c
      = (readInside opener depth c.pos line).1
        ++ spansFrom (readInside opener depth c.pos line).2 (c.forward (line.length + 1)) := by
  unfold readInside
  dsimp only
  split
  · rename_i hopen
    rw [spansFrom, OpenBlock.finish_line_of_opening hc hopen]
    rfl
  rename_i hopen
  split
  · rename_i hclose
    by_cases hd : depth = 1
    · subst hd
      rw [if_pos rfl]
      exact spansFrom_closing_one hc htail hclose
    · rw [if_neg hd, spansFrom, OpenBlock.finish_line_of_closing hc hclose hd]
      rfl
  · rename_i hclose
    rw [spansFrom, OpenBlock.finish_line_of_other hc hopen hclose]
    rfl

/-- **One line.** Its spans, and then those of the next line in the mode that the line leaves. -/
theorem spansFrom_line (mode : Mode) :
    spansFrom mode c
      = (readLine mode c.pos line).1
        ++ spansFrom (readLine mode c.pos line).2 (c.forward (line.length + 1)) := by
  cases mode with
  | outside onlyMagics => exact spansFrom_outside hc htail onlyMagics
  | inside opener depth => exact spansFrom_inside hc htail opener depth

end Line

/-! ## All lines -/

theorem spansFrom_of_isAtEnd {c : Cursor s} (h : c.isAtEnd = true) (mode : Mode) :
    spansFrom mode c = unfinished s.size mode := by
  cases mode with
  | outside onlyMagics => exact Scanner.run_of_isAtEnd h _
  | inside opener depth =>
    rw [spansFrom, OpenBlock.finish_of_isAtEnd h, Scanner.run_of_isAtEnd h, isAtEnd_iff.mp h]
    rfl

/-- Where no NUL byte is ahead, the line ahead ends at a break or with the document. -/
theorem atLine_of_rest {c : Cursor s} (hstart : c.precededByBlanks = true)
    (hnul : (0 : UInt8) ∉ c.rest) :
    c.AtLine (c.rest.takeWhile fun b => !Byte.isBreak b)
      (c.rest.dropWhile fun b => !Byte.isBreak b) where
  start := hstart
  rest := List.takeWhile_append_dropWhile.symm
  line := by
    intro b hb
    have hbreak : Byte.isBreak b = false := by simpa using List.mem_takeWhile_imp hb
    have hzero : b ≠ Byte.boundary := by
      intro h
      rw [h] at hb
      exact hnul ((List.takeWhile_sublist _).subset hb)
    simp [Byte.isLineEnd, hbreak, hzero]
  tail := by
    intro b hb
    have hbreak : Byte.isBreak b = true := by simpa using head?_dropWhile_eq_false hb
    rw [Byte.isLineEnd, hbreak, Bool.true_or]

/-- **All lines.** From the start of a line, what is still to come is what the lines ahead say. -/
theorem spansFrom_eq_read : ∀ (n : Nat) {c : Cursor s}, c.rest.length = n →
    c.precededByBlanks = true → (0 : UInt8) ∉ c.rest → ∀ mode,
      spansFrom mode c = read s.size mode c.pos (lines c.rest) := by
  intro n
  induction n using Nat.strongRecOn with
  | ind n ih =>
    intro c hn hstart hnul mode
    -- the bytes ahead are a line, up to the first break, and the rest
    have hc := atLine_of_rest hstart hnul
    have hline : ∀ b ∈ c.rest.takeWhile fun b => !Byte.isBreak b, Byte.isBreak b = false :=
      fun b hb => hc.isBreak_of_mem hb
    have htail : ∀ b, (c.rest.dropWhile fun b => !Byte.isBreak b).head? = some b →
        Byte.isBreak b = true := fun b hb => by simpa using head?_dropWhile_eq_false hb
    generalize c.rest.takeWhile (fun b => !Byte.isBreak b) = line at hc hline
    generalize c.rest.dropWhile (fun b => !Byte.isBreak b) = tail at hc htail
    rw [spansFrom_line hc htail mode]
    cases tail with
    | nil =>
      have hrest : c.rest = line := by rw [hc.rest, List.append_nil]
      rw [hrest, lines_of_forall hline, spansFrom_of_isAtEnd
        (isAtEnd_forward_of_le (by rw [hrest]; exact Nat.le_succ _))]
      rfl
    | cons b tail =>
      obtain ⟨hrest, hpos, hnext⟩ := hc.next_line
      -- the break is gone from the rest, so there is less of it
      have hlen : (c.forward (line.length + 1)).rest.length < n := by
        rw [← hn, hrest, hc.rest, List.length_append, List.length_cons]
        omega
      have hnul' : (0 : UInt8) ∉ (c.forward (line.length + 1)).rest := by
        rw [hrest]
        intro h0
        refine hnul ?_
        rw [hc.rest]
        exact List.mem_append_right _ (List.mem_cons_of_mem _ h0)
      rw [ih _ hlen rfl hnext hnul', hrest, hpos, hc.rest, lines_append_cons hline (htail b rfl)]
      rfl

/-! ## Documents -/

/-- The content is what the cursor of a fresh source has ahead. -/
theorem content_eq (bytes : ByteArray) :
    content bytes.data.toList = (markLength bytes, bytes.data.toList.drop (markLength bytes)) := by
  obtain ⟨⟨l⟩⟩ := bytes
  show content l = _
  match l with
  | [] => rfl
  | [_] => simp [content, markLength, startsWithMark, ByteArray.size]
  | [_, _] => simp [content, markLength, startsWithMark, ByteArray.size]
  | a :: b :: c :: rest =>
    have hmark :
        startsWithMark ⟨⟨a :: b :: c :: rest⟩⟩ = (a == 0xEF && b == 0xBB && c == 0xBF) := by
      unfold startsWithMark
      rw [dif_pos (show 2 < (ByteArray.mk ⟨a :: b :: c :: rest⟩).size from by
        show 2 < rest.length + 1 + 1 + 1
        omega)]
      rfl
    unfold markLength
    rw [hmark]
    by_cases h : a = 0xEF ∧ b = 0xBB ∧ c = 0xBF
    · obtain ⟨rfl, rfl, rfl⟩ := h
      rfl
    · rw [if_neg (by simpa [and_assoc] using h)]
      unfold content
      split
      · rename_i heq
        injection heq with h1 heq
        injection heq with h2 heq
        injection heq with h3 heq
        exact absurd ⟨h1, h2, h3⟩ h
      · rfl

/-- The spans of any bytes without a NUL, UTF-8 or not. -/
theorem spans_ofBytes (bytes : ByteArray) (hnul : (0 : UInt8) ∉ bytes.data.toList) :
    (Source.ofBytes bytes).spans = Outline.spans bytes.data.toList := by
  have hbytes : (Source.ofBytes bytes).byteList = bytes.data.toList := by
    rw [Source.byteList, Source.bytes_ofBytes]
  have hrest : (Source.ofBytes bytes).cursor.rest = (content bytes.data.toList).2 := by
    rw [content_eq, rest, hbytes]
    rfl
  have hsize : (Source.ofBytes bytes).size = bytes.data.toList.length := by
    rw [← Source.length_byteList, hbytes]
  have hread := spansFrom_eq_read _ (c := (Source.ofBytes bytes).cursor) rfl precededByBlanks_cursor
    (by
      rw [hrest, content_eq]
      exact fun h => hnul (List.mem_of_mem_drop h)) (.outside true)
  rw [Outline.spans, ← hsize, ← hrest, content_eq]
  exact hread

/-- **The spans of a document without NUL bytes are those of its outline.** -/
theorem tokenize_eq_outline (text : String) (hnul : (0 : UInt8) ∉ text.toUTF8.data.toList) :
    tokenize text = Outline.spans text.toUTF8.data.toList :=
  spans_ofBytes text.toUTF8 hnul

/-- A magic, a nested block comment, code with a comment behind it, and all three breaks. -/
theorem tokenize_eq_outline_mixed :
    (0 : UInt8) ∉ "%% a\r\n%\x7b\r %\x7b\n%\x7d\n\t%\x7d \nx%y".toUTF8.data.toList ∧
      tokenize "%% a\r\n%\x7b\r %\x7b\n%\x7d\n\t%\x7d \nx%y"
        = [⟨⟨0, 4⟩, .magic⟩, ⟨⟨6, 19⟩, .blockComment⟩, ⟨⟨21, 22⟩, .code⟩,
          ⟨⟨22, 24⟩, .lineComment⟩] :=
  ⟨by decide +kernel, (tokenize_eq_outline _ (by decide +kernel)).trans (by decide +kernel)⟩

end MatlabEdit
