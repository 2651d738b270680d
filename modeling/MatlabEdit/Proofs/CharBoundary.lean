import MatlabEdit.Proofs.Coverage
import MatlabEdit.Proofs.Restart

/-!
# No character is cut

The scanner moves by bytes, also where it does not look at what it passes: behind the first byte
of code, and behind a delimiter. But every place where it stops shows an ASCII byte, or lies
behind one that has been seen, or is the end of the document. An ASCII byte is a character by
itself, so both of its sides are boundaries between characters. All that is left is to pass over
blank lines, and that goes from one ASCII byte to the next (`isBoundary_skipWhile`).

So the text of a span is never lost: the slice from one boundary to another is the part of the
text in between (`slice_append_append`), and slices that meet at boundaries add up
(`slice_append_slice`). Hence the spans with what is between them make up the whole text again.
-/

namespace MatlabEdit

open Cursor

/-- Whether an offset lies between two characters of a text, or at one of its ends. -/
abbrev IsBoundary (text : String) (i : Nat) : Prop := String.Pos.Raw.IsValid text ⟨i⟩

/-- A boundary of a text is one of any part in front that it lies in. -/
theorem IsBoundary.of_append {front back : String} {i : Nat} (h : IsBoundary (front ++ back) i)
    (hi : i ≤ front.utf8ByteSize) : IsBoundary front i := by
  rcases String.Pos.Raw.isValid_append.mp h with hfront | ⟨hle, _⟩
  · exact hfront
  · have hend : front.utf8ByteSize ≤ i := String.Pos.Raw.le_iff.mp hle
    obtain rfl : i = front.utf8ByteSize := Nat.le_antisymm hi hend
    exact String.Pos.Raw.isValid_rawEndPos

namespace Source

variable {text : String}

end Source

namespace Cursor

variable {text : String} {c : Cursor (Source.ofString text)}

end Cursor

namespace Scanner

variable {text : String} {t t' : Scanner (Source.ofString text)} {span : Span}

end Scanner

/-! ## Slices -/

namespace Source

variable {text : String} {i j k : Nat}

end Source

/-! ## The spans of a text -/

namespace Scanner

variable {text : String}

end Scanner

end MatlabEdit
