import MatlabEdit.ByteRange
import MatlabEdit.Keyword
import MatlabEdit.Text.WhiteSpace
import MatlabEdit.Text.WordChar

/-!
# What indentation looks for on a line

Indentation knows a line by a few patterns: it starts with a keyword as a whole word, it ends with
`end`, it holds a keyword and nothing else, it is a delimiter of a block comment. A line is any
text here, so line breaks inside it are white space like any other.

White space in front of a line is passed over. White space behind it is not: a line that goes on
behind its keyword holds more than the keyword. Delimiters may have white space on both sides.
-/

namespace MatlabEdit

/-! ## Lines that start with a keyword -/

/-- What follows the first word of a line, if that word is one of `words`. -/
def afterKeyword? (words : List String) (line : List Char) : Option (List Char) :=
  let body := trimStart line
  if String.ofList (leadingWord body) ∈ words then some (afterWord body) else none

/-- Whether a text ends with the word `end`, or with that word and a semicolon. -/
def endsWithEnd (text : List Char) : Bool :=
  let backwards :=
    match text.reverse with
    | ';' :: rest => rest
    | rest => rest
  match backwards with
  | 'd' :: 'n' :: 'e' :: rest => rest.head?.all fun c => !isWordChar c
  | _ => false

/-- Whether a line starts with a keyword that opens a block, and does not close the block again at
its end. -/
def opensBlock (line : List Char) : Bool :=
  match afterKeyword? blockOpeners line with
  | some rest => !endsWithEnd rest
  | none => false

/-- Whether a line starts with `switch`. -/
def opensSwitch (line : List Char) : Bool := (afterKeyword? ["switch"] line).isSome

/-! ## Lines that hold a keyword and nothing else -/

/-- Whether a line holds nothing but `word`, behind any white space. -/
def isLone (word : String) (line : List Char) : Bool := String.ofList (trimStart line) == word

/-- Whether a line is a `case` without a value. -/
def isBareCase (line : List Char) : Bool := isLone "case" line

/-- Whether a line is an `end` and nothing else. -/
def isBareEnd (line : List Char) : Bool := isLone "end" line

/-- How many bytes a text has in UTF-8. -/
def utf8Length (text : List Char) : Nat := text.foldr (fun c n => c.utf8Size + n) 0

/-- Where on a line a keyword was found that pulls the line out. -/
structure DedentMatch where
  /-- The bytes of the whole line. -/
  line : ByteRange
  /-- The bytes of the keyword. -/
  word : ByteRange
deriving DecidableEq, Repr

/-- The keyword that makes up a line, if it is one that pulls the line out. -/
def dedentMatch? (line : List Char) : Option DedentMatch :=
  if String.ofList (trimStart line) ∈ dedentWords then
    let stop := utf8Length line
    some ⟨⟨0, stop⟩, ⟨utf8Length (line.takeWhile isWhite), stop⟩⟩
  else none

/-- Whether a line is to be indented anew as soon as it is typed. -/
def isDedentTrigger (line : List Char) : Bool := (dedentMatch? line).isSome

/-- The lines with a `dedentMatch?`, as a regular expression for hosts that watch what is typed. -/
def dedentTriggerPattern : String := "^(?:\\s*)(" ++ "|".intercalate dedentWords ++ ")\\b$"

theorem isDedentTrigger_iff {line : List Char} :
    isDedentTrigger line = true ↔ String.ofList (trimStart line) ∈ dedentWords := by
  unfold isDedentTrigger dedentMatch?
  split <;> simp_all

theorem isLone_iff {word : String} {line : List Char} :
    isLone word line = true ↔ String.ofList (trimStart line) = word := by
  simp [isLone]

/-- A bare `end` pulls its line out. -/
theorem isDedentTrigger_of_isBareEnd {line : List Char} (h : isBareEnd line = true) :
    isDedentTrigger line = true := by
  rw [isDedentTrigger_iff, isLone_iff.mp h]
  decide

/-- A bare `case` pulls its line out. -/
theorem isDedentTrigger_of_isBareCase {line : List Char} (h : isBareCase line = true) :
    isDedentTrigger line = true := by
  rw [isDedentTrigger_iff, isLone_iff.mp h]
  decide

/-! ## Delimiters of block comments -/

/-- A delimiter of a block comment. -/
inductive BlockDelimiter where
  | opening
  | closing
deriving DecidableEq, Repr

/-- The delimiter that stands alone on a line, if there is one. -/
def blockDelimiter? (line : List Char) : Option BlockDelimiter :=
  match trim line with
  | ['%', '{'] => some .opening
  | ['%', '}'] => some .closing
  | _ => none

end MatlabEdit
