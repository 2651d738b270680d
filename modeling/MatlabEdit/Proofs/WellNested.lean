import MatlabEdit.Indent.Column
import MatlabEdit.Proofs.Strip
import MatlabEdit.Text.Line

/-!
# Well-nested programs

The syntax of programs whose blocks are closed: lists of plain lines, blank lines,
comments, and blocks with a header, branches, and an `end`. A program carries how each of
its lines is written, that is the white space around the text and the line's ending, and
so it stands for one document (`Program.lines`).

Beside it stands the document that it ought to be (`Program.canonical`). There every line
starts as many units from the left as blocks are open around it, blank lines are empty, and
comments are as they were.
-/

namespace MatlabEdit

/-! ## Lines -/

/-- A line that is cut from a text as it is: what belongs to its ending is not in its text. -/
structure Line.Whole (line : Line) : Prop where
  noFeed : '\n' ∉ line.text
  ended : line.ending ≠ .none
  noReturn : line.ending = .lf → line.text.getLast? ≠ some '\r'

/-- White space that stays on its line. -/
def IsMargin (margin : List Char) : Prop := ∀ c ∈ margin, isWhite c = true ∧ c ≠ '\n' ∧ c ≠ '\r'

instance (margin : List Char) : Decidable (IsMargin margin) :=
  decidable_of_iff ((margin.all fun c => isWhite c && c != '\n' && c != '\r') = true)
    (by simp [IsMargin, and_assoc])

/-- How a line is written around its text. -/
structure Spacing where
  front : List Char
  back : List Char
  ending : LineEnding
  front_margin : IsMargin front
  back_margin : IsMargin back
  ended : ending ≠ .none

/-- The line that a text makes. -/
def Spacing.line (spacing : Spacing) (text : List Char) : Line :=
  ⟨spacing.front ++ text ++ spacing.back, spacing.ending⟩

/-- A text that makes a line of its own: there is something, no white space at its ends, and it is
not the delimiter of a comment. -/
structure IsContent (text : List Char) : Prop where
  ne_nil : text ≠ []
  noFeed : '\n' ∉ text
  head : ∀ c, text.head? = some c → isWhite c = false
  last : ∀ c, text.getLast? = some c → isWhite c = false
  notOpening : text ≠ ['%', '{']
  notClosing : text ≠ ['%', '}']

/-- No white space at the ends of a text is what a trim leaves. -/
theorem ends_of_trim {text : List Char} (h : trim text = text) :
    (∀ c, text.head? = some c → isWhite c = false) ∧
      ∀ c, text.getLast? = some c → isWhite c = false := by
  rw [trim_eq_strip] at h
  constructor
  · intro c hc
    rw [← h] at hc
    exact head?_strip hc
  · intro c hc
    rw [← h] at hc
    exact getLast?_strip hc

/-- White space around a text is what a trim takes away. -/
theorem trim_margins {front text back : List Char} (hfront : IsMargin front) (hback : IsMargin back)
    (h : trim text = text) : trim (front ++ text ++ back) = text := by
  obtain ⟨hhead, hlast⟩ := ends_of_trim h
  exact strip_append (fun c hc => (hfront c hc).1) (fun c hc => (hback c hc).1) hhead hlast

/-- Nothing of it is taken for the ending of the line. -/
theorem cut_margins {front text back : List Char} (hfront : IsMargin front) (hback : IsMargin back)
    (hfeed : '\n' ∉ text) (htrim : trim text = text) :
    '\n' ∉ front ++ text ++ back ∧ (front ++ text ++ back).getLast? ≠ some '\r' := by
  constructor
  · intro h
    rcases List.mem_append.mp h with h | h
    · rcases List.mem_append.mp h with h | h
      · exact (hfront _ h).2.1 rfl
      · exact hfeed h
    · exact (hback _ h).2.1 rfl
  · intro h
    rw [List.getLast?_append, List.getLast?_append] at h
    rcases Option.or_eq_some_iff.mp h with h | ⟨_, h⟩
    · exact (hback _ (List.mem_of_getLast? h)).2.2 rfl
    rcases Option.or_eq_some_iff.mp h with h | ⟨_, h⟩
    · -- a carriage return is white space, and the text ends with none
      exact absurd ((ends_of_trim htrim).2 _ h) (by decide)
    · exact (hfront _ (List.mem_of_getLast? h)).2.2 rfl

theorem IsContent.trim_eq {text : List Char} (h : IsContent text) : trim text = text := by
  have hstrip : strip isWhite ([] ++ text ++ []) = text :=
    strip_append (by simp) (by simp) h.head h.last
  rwa [List.append_nil] at hstrip

instance (text : List Char) : Decidable (IsContent text) :=
  decidable_of_iff (text ≠ [] ∧ '\n' ∉ text ∧ trim text = text ∧ text ≠ ['%', '{'] ∧
      text ≠ ['%', '}'])
    ⟨fun ⟨hne, hfeed, htrim, hopening, hclosing⟩ =>
        ⟨hne, hfeed, (ends_of_trim htrim).1, (ends_of_trim htrim).2, hopening, hclosing⟩,
      fun h => ⟨h.ne_nil, h.noFeed, h.trim_eq, h.notOpening, h.notClosing⟩⟩

/-- A text that opens a block, or one that does not. Neither is pulled out. -/
structure Phrase (opens : Bool) where
  text : List Char
  content : IsContent text
  opensBlock_eq : opensBlock text = opens
  notDedent : isDedentTrigger text = false

namespace Line

theorem Whole.exists_run {line : Line} (h : line.Whole) :
    ∃ run, line.chars = run ++ ['\n'] ∧ '\n' ∉ run ∧ terminated run = line := by
  obtain ⟨text, ending⟩ := line
  cases ending with
  | none => exact absurd rfl h.ended
  | lf => exact ⟨text, rfl, h.noFeed, if_neg (h.noReturn rfl)⟩
  | crlf =>
    refine ⟨text ++ ['\r'], by simp [chars, LineEnding.chars], ?_, ?_⟩
    · intro hmem
      rcases List.mem_append.mp hmem with hmem | hmem
      · exact h.noFeed hmem
      · exact absurd hmem (by decide)
    · rw [terminated, if_pos (by simp), List.dropLast_concat]

theorem split_chars_append {line : Line} (h : line.Whole) (rest : List Char) :
    split (line.chars ++ rest) = line :: split rest := by
  obtain ⟨run, hchars, hrun, hline⟩ := h.exists_run
  have hpos : ∀ c ∈ run, (c != '\n') = true := fun c hc =>
    bne_iff_ne.mpr fun heq => hrun (heq ▸ hc)
  have htext : line.chars ++ rest = run ++ '\n' :: rest := by
    rw [hchars, List.append_assoc]
    rfl
  -- the first line feed is the one behind the run
  have hdrop : (run ++ '\n' :: rest).dropWhile (· != '\n') = '\n' :: rest := by
    rw [List.dropWhile_append_of_pos hpos]
    exact List.dropWhile_cons_of_neg (by decide)
  have htake : (run ++ '\n' :: rest).takeWhile (· != '\n') = run :=
    takeWhile_append_of_head? hpos fun c hc => by
      rw [← Option.some.inj hc]
      decide
  rw [htext, split]
  split
  · rename_i hnil
    rw [hdrop] at hnil
    exact absurd hnil (List.cons_ne_nil _ _)
  · rename_i c tail hcons
    rw [hdrop] at hcons
    rw [htake, hline, (List.cons.inj hcons).2]

/-- Lines that are whole are the lines of their document. -/
theorem split_flatMap_chars {ls : List Line} (h : ∀ line ∈ ls, line.Whole) :
    split (ls.flatMap chars) = ls := by
  induction ls with
  | nil => rw [List.flatMap_nil, split]; rfl
  | cons line rest ih =>
    rw [List.flatMap_cons, split_chars_append (h line List.mem_cons_self),
      ih fun l hl => h l (List.mem_cons_of_mem _ hl)]

end Line

namespace Spacing

variable (spacing : Spacing)

theorem trim_line {text : List Char} (h : trim text = text) :
    trim (spacing.line text).text = text :=
  trim_margins spacing.front_margin spacing.back_margin h

theorem whole_line {text : List Char} (hfeed : '\n' ∉ text) (htrim : trim text = text) :
    (spacing.line text).Whole where
  noFeed := (cut_margins spacing.front_margin spacing.back_margin hfeed htrim).1
  ended := spacing.ended
  noReturn := fun _ => (cut_margins spacing.front_margin spacing.back_margin hfeed htrim).2

end Spacing

/-! ## Comments -/

/-- A line of a comment that is no delimiter. -/
structure CommentLine where
  line : Line
  whole : line.Whole
  notDelimiter : blockDelimiter? line.text = none

/-- What stands between the delimiters of a comment. -/
inductive CommentBody where
  | nil
  | line (line : CommentLine) (rest : CommentBody)
  | nested (opening : Spacing) (body : CommentBody) (closing : Spacing) (rest : CommentBody)

def CommentBody.lines : CommentBody → List Line
  | nil => []
  | line l rest => l.line :: rest.lines
  | nested opening body closing rest =>
    opening.line ['%', '{'] :: (body.lines ++ closing.line ['%', '}'] :: rest.lines)

/-- A block comment with its delimiters. -/
structure Comment where
  opening : Spacing
  body : CommentBody
  closing : Spacing

def Comment.lines (comment : Comment) : List Line :=
  comment.opening.line ['%', '{'] :: (comment.body.lines ++ [comment.closing.line ['%', '}']])

/-! ## Programs -/

/-- The words that divide a block. -/
inductive BranchWord where
  | onElse
  | onCatch

def BranchWord.text : BranchWord → List Char
  | onElse => ['e', 'l', 's', 'e']
  | onCatch => ['c', 'a', 't', 'c', 'h']

/-- The word that closes a block. -/
def endText : List Char := ['e', 'n', 'd']

mutual

/-- A list of items. -/
inductive Program where
  | nil
  | cons (item : Item) (rest : Program)

inductive Item where
  | plain (spacing : Spacing) (phrase : Phrase false)
  | blank (spacing : Spacing)
  | comment (comment : Comment)
  | block (spacing : Spacing) (header : Phrase true) (body : Program) (branches : Branches)

/-- What follows the first body of a block: more bodies, each behind a word, and the `end`. -/
inductive Branches where
  | close (spacing : Spacing)
  | branch (spacing : Spacing) (word : BranchWord) (body : Program) (rest : Branches)

end

mutual

/-- The lines of a program as they are written. -/
def Program.lines : Program → List Line
  | .nil => []
  | .cons item rest => item.lines ++ rest.lines

def Item.lines : Item → List Line
  | .plain spacing phrase => [spacing.line phrase.text]
  | .blank spacing => [spacing.line []]
  | .comment comment => comment.lines
  | .block spacing header body branches =>
    spacing.line header.text :: (body.lines ++ branches.lines)

def Branches.lines : Branches → List Line
  | .close spacing => [spacing.line endText]
  | .branch spacing word body rest => spacing.line word.text :: (body.lines ++ rest.lines)

end

mutual

/-- How many blocks are open at once at most. -/
def Program.nesting : Program → Nat
  | .nil => 0
  | .cons item rest => max item.nesting rest.nesting

def Item.nesting : Item → Nat
  | .plain _ _ => 0
  | .blank _ => 0
  | .comment _ => 0
  | .block _ _ body branches => max body.nesting branches.nesting + 1

def Branches.nesting : Branches → Nat
  | .close _ => 0
  | .branch _ _ body rest => max body.nesting rest.nesting

end

/-- The line that a text makes with `depth` open blocks around it. -/
def canonicalLine (unit depth : Nat) (text : List Char) (ending : LineEnding) : Line :=
  ⟨List.replicate (depth * unit) ' ' ++ text, ending⟩

mutual

/-- The lines of a program as they ought to be, with `depth` open blocks around it. -/
def Program.canonical (unit depth : Nat) : Program → List Line
  | .nil => []
  | .cons item rest => item.canonical unit depth ++ rest.canonical unit depth

def Item.canonical (unit depth : Nat) : Item → List Line
  | .plain spacing phrase => [canonicalLine unit depth phrase.text spacing.ending]
  | .blank spacing => [⟨[], spacing.ending⟩]
  | .comment comment => comment.lines
  | .block spacing header body branches =>
    canonicalLine unit depth header.text spacing.ending ::
      (body.canonical unit (depth + 1) ++ branches.canonical unit depth)

/-- Words stand where the header stands, and the bodies behind them one level further in. -/
def Branches.canonical (unit depth : Nat) : Branches → List Line
  | .close spacing => [canonicalLine unit depth endText spacing.ending]
  | .branch spacing word body rest =>
    canonicalLine unit depth word.text spacing.ending ::
      (body.canonical unit (depth + 1) ++ rest.canonical unit depth)

end

/-! ## Programs as documents -/

theorem CommentBody.whole_lines (body : CommentBody) : ∀ line ∈ body.lines, line.Whole := by
  induction body with
  | nil => intro line h; exact absurd h List.not_mem_nil
  | line l rest ih =>
    intro line h
    rcases List.mem_cons.mp h with rfl | h
    · exact l.whole
    · exact ih line h
  | nested opening body closing rest ihBody ihRest =>
    intro line h
    rcases List.mem_cons.mp h with rfl | h
    · exact opening.whole_line (by decide) rfl
    rcases List.mem_append.mp h with h | h
    · exact ihBody line h
    rcases List.mem_cons.mp h with rfl | h
    · exact closing.whole_line (by decide) rfl
    · exact ihRest line h

theorem Comment.whole_lines (comment : Comment) : ∀ line ∈ comment.lines, line.Whole := by
  intro line h
  rcases List.mem_cons.mp h with rfl | h
  · exact comment.opening.whole_line (by decide) rfl
  rcases List.mem_append.mp h with h | h
  · exact comment.body.whole_lines line h
  · rw [List.mem_singleton.mp h]
    exact comment.closing.whole_line (by decide) rfl

theorem Phrase.whole_line {opens : Bool} (phrase : Phrase opens) (spacing : Spacing) :
    (spacing.line phrase.text).Whole :=
  spacing.whole_line phrase.content.noFeed phrase.content.trim_eq

theorem BranchWord.whole_line (word : BranchWord) (spacing : Spacing) :
    (spacing.line word.text).Whole := by
  cases word with
  | onElse => exact spacing.whole_line (by decide) rfl
  | onCatch => exact spacing.whole_line (by decide) rfl

mutual

/-- The lines of a program are the lines of its document. -/
theorem Program.whole_lines : ∀ (program : Program), ∀ line ∈ program.lines, line.Whole
  | .nil => fun _ h => absurd h List.not_mem_nil
  | .cons item rest => fun line h => by
    rcases List.mem_append.mp h with h | h
    · exact item.whole_lines line h
    · exact rest.whole_lines line h

theorem Item.whole_lines : ∀ (item : Item), ∀ line ∈ item.lines, line.Whole
  | .plain spacing phrase => fun line h => by
    rw [List.mem_singleton.mp h]
    exact phrase.whole_line spacing
  | .blank spacing => fun line h => by
    rw [List.mem_singleton.mp h]
    exact spacing.whole_line List.not_mem_nil rfl
  | .comment comment => comment.whole_lines
  | .block spacing header body branches => fun line h => by
    rcases List.mem_cons.mp h with rfl | h
    · exact header.whole_line spacing
    rcases List.mem_append.mp h with h | h
    · exact body.whole_lines line h
    · exact branches.whole_lines line h

theorem Branches.whole_lines : ∀ (branches : Branches), ∀ line ∈ branches.lines, line.Whole
  | .close spacing => fun line h => by
    rw [List.mem_singleton.mp h]
    exact spacing.whole_line (by decide) rfl
  | .branch spacing word body rest => fun line h => by
    rcases List.mem_cons.mp h with rfl | h
    · exact word.whole_line spacing
    rcases List.mem_append.mp h with h | h
    · exact body.whole_lines line h
    · exact rest.whole_lines line h

end

/-- The text that lines make. -/
def document (ls : List Line) : String := String.ofList (ls.flatMap Line.chars)

end MatlabEdit
