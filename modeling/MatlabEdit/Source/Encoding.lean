import MatlabEdit.Byte

/-!
# Encoding remarks

Two things about the bytes of a document are worth telling its host, and neither stops the
scanner: a byte order mark in front, which is no part of the content, and NUL bytes, at which
looking around stops as at a line end.
-/

namespace MatlabEdit

/-- What is remarkable about the encoding of a document. -/
inductive EncodingIssue where
  /-- A byte order mark in front of the content. -/
  | byteOrderMark
  /-- A NUL byte at the offset. -/
  | nul (position : Nat)
deriving DecidableEq, Repr

namespace EncodingIssue

/-- Offset of the first byte concerned. -/
def position : EncodingIssue → Nat
  | byteOrderMark => 0
  | nul i => i

/-- How many bytes are concerned. -/
def length : EncodingIssue → Nat
  | byteOrderMark => 3
  | nul _ => 1

end EncodingIssue

/-- Whether the bytes start with the UTF-8 form of the byte order mark. -/
def startsWithMark (bytes : ByteArray) : Bool :=
  if h : 2 < bytes.size then bytes[0] == 0xEF && bytes[1] == 0xBB && bytes[2] == 0xBF else false

/-- Where the content starts: after the byte order mark, if there is one. -/
def markLength (bytes : ByteArray) : Nat :=
  if startsWithMark bytes then EncodingIssue.byteOrderMark.length else 0

/-- A mark lies within the bytes. -/
theorem markLength_le_size (bytes : ByteArray) : markLength bytes ≤ bytes.size := by
  by_cases h : 2 < bytes.size
  · unfold markLength
    split
    · exact h
    · exact Nat.zero_le _
  · simp [markLength, startsWithMark, h]

/-- The offsets of the NUL bytes, in order. -/
def nulPositions (bytes : ByteArray) : List Nat :=
  (List.range bytes.size).filter fun i => if h : i < bytes.size then bytes[i] == 0 else false

/-- All remarks, in the order of their positions. -/
def encodingIssues (bytes : ByteArray) : List EncodingIssue :=
  (if startsWithMark bytes then [.byteOrderMark] else []) ++ (nulPositions bytes).map .nul

theorem mem_nulPositions {bytes : ByteArray} {i : Nat} :
    i ∈ nulPositions bytes ↔ ∃ h : i < bytes.size, bytes[i] = 0 := by
  unfold nulPositions
  simp only [List.mem_filter, List.mem_range]
  constructor
  · rintro ⟨hi, hz⟩
    rw [dif_pos hi] at hz
    exact ⟨hi, beq_iff_eq.mp hz⟩
  · rintro ⟨hi, hz⟩
    exact ⟨hi, by rw [dif_pos hi]; exact beq_iff_eq.mpr hz⟩

end MatlabEdit
