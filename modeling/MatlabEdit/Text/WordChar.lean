import MatlabEdit.Text.WordRanges

/-!
# Words

A keyword is found on a line only as a whole word: what stands next to it must be no word character.
-/

namespace MatlabEdit

/-- Whether a character can be part of a word. -/
def isWordChar (c : Char) : Bool := CharRange.covers WordChar.ranges c.toNat

theorem isWordChar_iff {c : Char} :
    isWordChar c = true ↔ ∃ r ∈ WordChar.ranges, r.lo ≤ c.toNat ∧ c.toNat ≤ r.hi :=
  CharRange.covers_iff WordChar.ranges_ascending

/-- The letters and digits of ASCII are word characters. -/
theorem isWordChar_of_isAlphanum {c : Char} (h : c.isAlphanum = true) : isWordChar c = true := by
  have mem : ∀ r ∈ WordChar.europeanRanges, r ∈ WordChar.ranges := by
    intro r hr
    simp only [WordChar.ranges, List.mem_append]
    simp [hr]
  rw [isWordChar_iff]
  rcases Bool.or_eq_true_iff.mp h with h | h
  · rcases Bool.or_eq_true_iff.mp h with h | h
    · exact ⟨⟨0x0041, 0x005A⟩, mem _ (by simp [WordChar.europeanRanges]), of_decide_eq_true h⟩
    · obtain ⟨hlo, hhi⟩ := Bool.and_eq_true_iff.mp h
      exact ⟨⟨0x0061, 0x007A⟩, mem _ (by simp [WordChar.europeanRanges]),
        of_decide_eq_true hlo, of_decide_eq_true hhi⟩
  · obtain ⟨hlo, hhi⟩ := Bool.and_eq_true_iff.mp h
    exact ⟨⟨0x0030, 0x0039⟩, mem _ (by simp [WordChar.europeanRanges]),
      of_decide_eq_true hlo, of_decide_eq_true hhi⟩

/-- The word that a text starts with; empty if it starts with none. -/
def leadingWord (text : List Char) : List Char := text.takeWhile isWordChar

/-- What follows the word that a text starts with. -/
def afterWord (text : List Char) : List Char := text.dropWhile isWordChar

/-- A text is its first word and what follows. -/
theorem leadingWord_append_afterWord (text : List Char) :
    leadingWord text ++ afterWord text = text :=
  List.takeWhile_append_dropWhile

end MatlabEdit
