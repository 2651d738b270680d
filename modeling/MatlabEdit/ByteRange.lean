/-!
# Ranges of bytes

Half-open ranges of byte offsets into a text. Spans of the scanner and groups of a matched line are
both reported this way.
-/

namespace MatlabEdit

/-- The bytes from `start` up to, and without, `stop`. -/
structure ByteRange where
  /-- Offset of the first byte. -/
  start : Nat
  /-- Offset just past the last byte. -/
  stop : Nat
deriving DecidableEq, Repr

namespace ByteRange

/-- How many bytes the range holds. -/
def length (r : ByteRange) : Nat := r.stop - r.start

/-- Whether the range holds no byte. -/
def isEmpty (r : ByteRange) : Bool := r.start == r.stop

/-- Whether a byte lies in a range. -/
def Holds (r : ByteRange) (i : Nat) : Prop := r.start ≤ i ∧ i < r.stop

end ByteRange

end MatlabEdit
