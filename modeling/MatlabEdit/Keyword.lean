/-!
# Keywords

Two views of the same vocabulary. `KeywordClass` is for a highlighter that follows the nesting
from keyword to keyword; the lists `blockOpeners` and `dedentWords` are for indentation, which
looks at one line. They do not agree on every word: `case` and `otherwise` open a line's block and
pull the line out, but have no class that nests, and `elseif` ends a branch but never pulls out a
line by itself.
-/

namespace MatlabEdit

/-- What a keyword does to the nesting. -/
inductive KeywordClass where
  /-- Opens a block. -/
  | opener
  /-- Closes a block. -/
  | closer
  /-- Closes a branch of a block and opens the next one. -/
  | branch
  /-- Leaves the nesting alone. -/
  | plain
deriving DecidableEq, Repr

namespace KeywordClass

/-- Whether the lines that follow are nested one level deeper than the keyword. -/
def opensBlock : KeywordClass → Bool
  | opener | branch => true
  | closer | plain => false

/-- Whether the keyword ends what is nested above it. -/
def dedents : KeywordClass → Bool
  | closer | branch => true
  | opener | plain => false

/-- The keywords of each class. -/
def words : KeywordClass → List String
  | opener =>
    ["arguments", "enumeration", "events", "for", "function", "if", "methods", "parfor",
      "properties", "switch", "try", "while"]
  | closer => ["end"]
  | branch => ["catch", "else", "elseif"]
  | plain =>
    ["break", "case", "classdef", "continue", "global", "otherwise", "persistent", "return", "spmd"]

/-- Every class. -/
def all : List KeywordClass := [opener, closer, branch, plain]

/-- The class of a word, if the word is a keyword. Case matters. -/
def ofWord? (word : String) : Option KeywordClass := all.find? fun cls => cls.words.contains word

/-- No word is in two classes, so the order in which the classes are tried does not matter. -/
theorem eq_of_mem_words {cls cls' : KeywordClass} {word : String} (h : word ∈ cls.words)
    (h' : word ∈ cls'.words) : cls = cls' := by
  have key : ∀ c c' : KeywordClass, c ≠ c' → ∀ w ∈ c.words, w ∉ c'.words := by
    intro c c' hne
    cases c <;> cases c' <;> first | exact absurd rfl hne | decide
  by_cases he : cls = cls'
  · exact he
  · exact absurd h' (key cls cls' he word h)

theorem mem_words_of_ofWord? {word : String} {cls : KeywordClass} (h : ofWord? word = some cls) :
    word ∈ cls.words := by
  unfold ofWord? at h
  have hc := List.find?_some h
  simpa using hc

/-- The class of a word is the one class that lists it. -/
theorem ofWord?_eq_some_iff {word : String} {cls : KeywordClass} :
    ofWord? word = some cls ↔ word ∈ cls.words := by
  constructor
  · exact mem_words_of_ofWord?
  · intro h
    have hall : cls ∈ all := by cases cls <;> decide
    cases hf : ofWord? word with
    | none =>
      have hno := List.find?_eq_none.mp hf cls hall
      exact absurd (List.contains_iff_mem.mpr h) hno
    | some cls' => rw [eq_of_mem_words h (mem_words_of_ofWord? hf)]

end KeywordClass

/-- The keywords that open a block when a line starts with them. -/
def blockOpeners : List String :=
  ["arguments", "case", "catch", "classdef", "else", "elseif", "enumeration", "for", "function",
    "if", "methods", "otherwise", "parfor", "properties", "switch", "try", "while"]

/-- The keywords that pull a line out by one level when the line holds nothing else. -/
def dedentWords : List String := ["case", "catch", "else", "end", "otherwise"]

end MatlabEdit
