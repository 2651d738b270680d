/-!
# The bytes that matter to the scanner

A document is scanned as UTF-8 bytes. Every byte that has a meaning here is ASCII, so no byte inside
a longer character is ever mistaken for one of them.

Two notions of "end of line" are kept apart. A *break* is a line feed or a carriage return, and it
is what ends a comment. A *line end* is a break or the boundary byte: what lies outside the
content reads as the boundary byte, so that looking around stops there as it does at a break.
-/

namespace MatlabEdit.Byte

/-- What a read outside the content answers with. -/
def boundary : UInt8 := 0x00

/-- The sign that starts every comment. -/
def percent : UInt8 := 0x25

/-- The brace of a delimiter that opens a block comment. -/
def openBrace : UInt8 := 0x7B

/-- The brace of a delimiter that closes a block comment. -/
def closeBrace : UInt8 := 0x7D

/-- Line feed and carriage return. -/
def isBreak (b : UInt8) : Bool := b == 0x0A || b == 0x0D

/-- A break, or the boundary byte. -/
def isLineEnd (b : UInt8) : Bool := isBreak b || b == boundary

/-- Horizontal white space: space, tab, vertical tab and form feed. -/
def isBlank (b : UInt8) : Bool := b == 0x20 || b == 0x09 || b == 0x0B || b == 0x0C

/-- An ASCII letter. -/
def isLetter (b : UInt8) : Bool := (0x41 ≤ b && b ≤ 0x5A) || (0x61 ≤ b && b ≤ 0x7A)

theorem isBlank_iff {b : UInt8} : isBlank b = true ↔ b = 0x20 ∨ b = 0x09 ∨ b = 0x0B ∨ b = 0x0C := by
  simp [isBlank, or_assoc]

theorem isBreak_iff {b : UInt8} : isBreak b = true ↔ b = 0x0A ∨ b = 0x0D := by
  simp [isBreak]

theorem isLineEnd_iff {b : UInt8} : isLineEnd b = true ↔ b = 0x0A ∨ b = 0x0D ∨ b = 0 := by
  simp [isLineEnd, isBreak, boundary, or_assoc]

@[simp] theorem isLineEnd_boundary : isLineEnd boundary = true := by decide

@[simp] theorem isBlank_boundary : isBlank boundary = false := by decide

/-- A blank never ends a line. -/
theorem isLineEnd_of_isBlank {b : UInt8} (h : isBlank b = true) : isLineEnd b = false := by
  rcases isBlank_iff.mp h with rfl | rfl | rfl | rfl <;> decide

/-- The comment sign is no blank. -/
@[simp] theorem isBlank_percent : isBlank percent = false := by decide

/-- No line ends at a comment sign. -/
@[simp] theorem isLineEnd_percent : isLineEnd percent = false := by decide

end MatlabEdit.Byte
