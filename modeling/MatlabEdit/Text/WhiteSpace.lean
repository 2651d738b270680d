import MatlabEdit.Text.CharRange

/-!
# White space of Unicode

Indentation is about characters, not bytes, and a character is white space if it has the Unicode
property White_Space: tab to carriage return, space, next line, no-break space, the Ogham space
mark, the spaces of the general punctuation, the line and paragraph separators, and the
ideographic space. The byte order mark is not white space.
-/

namespace MatlabEdit

/-- The code points with the property White_Space. -/
def whiteSpaceRanges : List CharRange :=
  [⟨0x0009, 0x000D⟩, ⟨0x0020, 0x0020⟩, ⟨0x0085, 0x0085⟩, ⟨0x00A0, 0x00A0⟩, ⟨0x1680, 0x1680⟩,
   ⟨0x2000, 0x200A⟩, ⟨0x2028, 0x2029⟩, ⟨0x202F, 0x202F⟩, ⟨0x205F, 0x205F⟩, ⟨0x3000, 0x3000⟩]

theorem whiteSpaceRanges_ascending : CharRange.ascendingFrom 0 whiteSpaceRanges = true := by decide

/-- Whether a character is white space. -/
def isWhite (c : Char) : Bool := CharRange.covers whiteSpaceRanges c.toNat

theorem isWhite_iff {c : Char} :
    isWhite c = true ↔ ∃ r ∈ whiteSpaceRanges, r.lo ≤ c.toNat ∧ c.toNat ≤ r.hi :=
  CharRange.covers_iff whiteSpaceRanges_ascending

@[simp] theorem isWhite_space : isWhite ' ' = true := by decide

/-- The text without the white space in front of it. -/
def trimStart (text : List Char) : List Char := text.dropWhile isWhite

/-- The text without the white space behind it. -/
def trimEnd (text : List Char) : List Char := (text.reverse.dropWhile isWhite).reverse

/-- The text without the white space around it. -/
def trim (text : List Char) : List Char := trimEnd (trimStart text)

/-- A text is the white space in front of it and what a trim leaves. -/
theorem takeWhile_append_trimStart (text : List Char) :
    text.takeWhile isWhite ++ trimStart text = text := List.takeWhile_append_dropWhile

/-- What a trim leaves does not start with white space. -/
theorem isWhite_of_head?_trimStart {text : List Char} {c : Char}
    (h : (trimStart text).head? = some c) : isWhite c = false := by
  have hnot := List.head?_dropWhile_not isWhite text
  unfold trimStart at h
  rw [h] at hnot
  simpa using hnot

end MatlabEdit
