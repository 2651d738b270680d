import MatlabEdit.Proofs.Pattern

/-!
# Searching for a keyword

A search backs out of what it has passed and tries again, it prefers one alternative to
another, and it stops at the first match. None of that makes a difference where a keyword is
searched for at the start of a line. A keyword starts where the white space ends, and since no
word character may follow it, it is the whole first word: so there is one way to match at most
(`mem_stops_keyword`), and what is found depends on which words are listed and not on their order
(`find?_keywordLine`).
-/

namespace MatlabEdit

/-! ## Words on a line -/

/-- A word of small letters, as every keyword is. -/
def IsKeyword (word : List Char) : Prop := word ≠ [] ∧ ∀ c ∈ word, c.isLower = true

instance (word : List Char) : Decidable (IsKeyword word) :=
  decidable_of_iff (word ≠ [] ∧ word.all Char.isLower = true) (by rw [IsKeyword, List.all_eq_true])

/-- No word character comes first, so that a word in front is over. -/
def WordStops (rest : List Char) : Prop := ∀ c, rest.head? = some c → isWordChar c = false

/-- No word character comes last, so that a word behind starts there. -/
def WordStarts (front : List Char) : Prop := ∀ c, front.getLast? = some c → isWordChar c = false

theorem isWordChar_of_isLower {c : Char} (h : c.isLower = true) : isWordChar c = true :=
  isWordChar_of_isAlphanum (Bool.or_eq_true_iff.mpr (.inl (Bool.or_eq_true_iff.mpr (.inr h))))

theorem isWhite_of_isLower {c : Char} (h : c.isLower = true) : isWhite c = false := by
  refine Bool.eq_false_iff.mpr fun hwhite => ?_
  obtain ⟨r, hr, hlo, hhi⟩ := isWhite_iff.mp hwhite
  obtain ⟨ha, hz⟩ := Bool.and_eq_true_iff.mp h
  have ha : 97 ≤ c.toNat := of_decide_eq_true ha
  have hz : c.toNat ≤ 122 := of_decide_eq_true hz
  have hrange : ∀ r ∈ whiteSpaceRanges, r.hi < 97 ∨ 122 < r.lo := by decide
  have := hrange r hr
  omega

section Words

variable {front word rest line : List Char}

namespace IsKeyword

theorem exists_getLast? (h : IsKeyword word) :
    ∃ c, word.getLast? = some c ∧ isWordChar c = true := by
  refine ⟨word.getLast h.1, List.getLast?_eq_some_getLast h.1, ?_⟩
  exact isWordChar_of_isLower (h.2 _ (List.getLast_mem h.1))

/-- Where a keyword starts, no word is over. -/
theorem not_wordStops (h : IsKeyword word) (rest : List Char) : ¬ WordStops (word ++ rest) := by
  obtain ⟨c, word, rfl⟩ := List.exists_cons_of_ne_nil h.1
  intro hstops
  have hchar := hstops c rfl
  rw [isWordChar_of_isLower (h.2 c List.mem_cons_self)] at hchar
  cases hchar

theorem head?_append (h : IsKeyword word) (rest : List Char) {c : Char}
    (hc : (word ++ rest).head? = some c) : c.isLower = true := by
  obtain ⟨d, word, rfl⟩ := List.exists_cons_of_ne_nil h.1
  obtain rfl : d = c := Option.some.inj hc
  exact h.2 d List.mem_cons_self

/-- White space in front of a keyword is all the white space that the line starts with. -/
theorem trimStart_eq (h : IsKeyword word) (rest : List Char)
    (hfront : ∀ c ∈ front, isWhite c = true) :
    (front ++ (word ++ rest)).takeWhile isWhite = front ∧
      trimStart (front ++ (word ++ rest)) = word ++ rest := by
  have hhead : ∀ c, (word ++ rest).head? = some c → isWhite c = false := fun c hc =>
    isWhite_of_isLower (h.head?_append rest hc)
  refine ⟨takeWhile_append_of_head? hfront hhead, ?_⟩
  rw [trimStart, List.dropWhile_append_of_pos hfront, dropWhile_eq_self_of_head? hhead]

/-- A keyword that no word character follows is the first word. -/
theorem leadingWord_eq (h : IsKeyword word) (hrest : WordStops rest) :
    leadingWord (word ++ rest) = word ∧ afterWord (word ++ rest) = rest := by
  have hword : ∀ c ∈ word, isWordChar c = true := fun c hc => isWordChar_of_isLower (h.2 c hc)
  refine ⟨takeWhile_append_of_head? hword hrest, ?_⟩
  rw [afterWord, List.dropWhile_append_of_pos hword, dropWhile_eq_self_of_head? hrest]

end IsKeyword

theorem wordStops_afterWord (text : List Char) : WordStops (afterWord text) := fun _ h =>
  head?_dropWhile_eq_false h

theorem wordStops_nil : WordStops [] := fun _ h => nomatch h

end Words

/-! ## Keywords at the start of a line -/

theorem utf8Length_append (a b : List Char) :
    utf8Length (a ++ b) = utf8Length a + utf8Length b := by
  induction a with
  | nil => simp [utf8Length]
  | cons c a ih =>
    show c.utf8Size + utf8Length (a ++ b) = c.utf8Size + utf8Length a + utf8Length b
    rw [ih, Nat.add_assoc]

theorem utf8Length_reverse (a : List Char) : utf8Length a.reverse = utf8Length a := by
  induction a with
  | nil => rfl
  | cons c a ih =>
    rw [List.reverse_cons, utf8Length_append, ih, Nat.add_comm]
    rfl

/-- The point behind a word on a line, with the word as a group. -/
def Point.behindWord (front word rest : List Char) : Point :=
  ⟨word.reverse ++ front.reverse, rest,
    [⟨⟨utf8Length front, utf8Length (front ++ word)⟩, word⟩]⟩

theorem Point.close_word (front word rest : List Char) :
    (Point.mk front.reverse (word ++ rest) []).close
        (Point.past ⟨front.reverse, word ++ rest, []⟩ word rest)
      = behindWord front word rest := by
  rw [close, upTo_of_append word rfl, offset, offset, past_before, ← List.reverse_append,
    utf8Length_reverse, utf8Length_reverse, behindWord, ← List.reverse_append]
  rfl

/-- Behind a word character a word may stop. -/
theorem Point.isWordEdge_of_before {x : Point} {c : Char} (h : x.before.head? = some c)
    (hc : isWordChar c = true) : x.isWordEdge = true ↔ WordStops x.behind := by
  rw [isWordEdge, h, Option.any_some, hc, Bool.true_bne, Bool.not_eq_true', Option.any_eq_false]
  rfl

/-- In front of a word character a word may start. -/
theorem Point.isWordEdge_of_behind {x : Point} {c : Char} (h : x.behind.head? = some c)
    (hc : isWordChar c = true) : x.isWordEdge = true ↔ WordStops x.before := by
  rw [isWordEdge, h, Option.any_some, hc, Bool.bne_true, Bool.not_eq_true', Option.any_eq_false]
  rfl

/-- Behind a keyword the word is over if no word character follows. -/
theorem Point.isWordEdge_behindWord {front word rest : List Char} (h : IsKeyword word) :
    (behindWord front word rest).isWordEdge = true ↔ WordStops rest := by
  obtain ⟨c, hlast, hc⟩ := h.exists_getLast?
  refine isWordEdge_of_before (c := c) ?_ hc
  rw [behindWord, List.head?_append, List.head?_reverse, hlast]
  rfl

namespace Pattern

/-- A line that starts with one of some words, behind white space. -/
def keywordLine (words : List String) : Pattern :=
  seq atStart (seq whites (seq (group (anyOf words)) atWordEdge))

/-- A line that holds one of some words, behind a gap, and nothing else. -/
def loneKeyword (gap : Pattern) (words : List String) : Pattern :=
  seq atStart (seq gap (seq (group (anyOf words)) (seq atWordEdge atEnd)))

section Keyword

variable {words : List String} {line : List Char}

/-- What a pattern comes to that looks for a word behind white space. -/
theorem mem_stops_word {tail : Pattern} {y : Point} :
    y ∈ (seq whites (seq (group (anyOf words)) tail)).stops (Point.start line) ↔
      ∃ front word rest, line = front ++ (word.toList ++ rest) ∧
        (∀ c ∈ front, isWhite c = true) ∧ word ∈ words ∧
          y ∈ tail.stops (Point.behindWord front word.toList rest) := by
  simp only [mem_stops_seq_whites, mem_stops_seq_group, mem_stops_anyOf, Point.start_past]
  constructor
  · rintro ⟨front, _, hline, hfront, _, ⟨word, hword, rest, rfl, rfl⟩, hy⟩
    rw [Point.close_word] at hy
    exact ⟨front, word, rest, hline, hfront, hword, hy⟩
  · rintro ⟨front, word, rest, hline, hfront, hword, hy⟩
    refine ⟨front, _, hline, hfront, _, ⟨word, hword, rest, rfl, rfl⟩, ?_⟩
    rwa [Point.close_word]

/-- A search that can come to one point only comes to it. -/
theorem head?_eq_ite {α : Type} {l : List α} {a : α} {p : Prop} [Decidable p]
    (h : ∀ b, b ∈ l ↔ p ∧ b = a) : l.head? = if p then some a else none := by
  split_ifs with hp
  · cases l with
    | nil => exact absurd ((h a).mpr ⟨hp, rfl⟩) List.not_mem_nil
    | cons b l => rw [List.head?_cons, ((h b).mp List.mem_cons_self).2]
  · rw [List.head?_eq_none_iff, List.eq_nil_iff_forall_not_mem]
    exact fun b hb => hp ((h b).mp hb).1

/-- **There is one way to match a keyword at the start of a line**: the first word is what can be
matched. -/
theorem mem_stops_keyword (hwords : ∀ word ∈ words, IsKeyword word.toList) (y : Point) :
    y ∈ (seq whites (seq (group (anyOf words)) atWordEdge)).stops (Point.start line) ↔
      String.ofList (leadingWord (trimStart line)) ∈ words ∧
        y = Point.behindWord (line.takeWhile isWhite) (leadingWord (trimStart line))
          (afterWord (trimStart line)) := by
  rw [mem_stops_word]
  simp only [mem_stops_atWordEdge]
  constructor
  · rintro ⟨front, word, rest, rfl, hfront, hword, rfl, hedge⟩
    have hkey := hwords word hword
    obtain ⟨htake, hdrop⟩ := hkey.trimStart_eq rest hfront
    obtain ⟨hlead, hafter⟩ := hkey.leadingWord_eq ((Point.isWordEdge_behindWord hkey).mp hedge)
    rw [htake, hdrop, hlead, hafter, String.ofList_toList]
    exact ⟨hword, rfl⟩
  · rintro ⟨hword, rfl⟩
    have hkey := hwords _ hword
    rw [String.toList_ofList] at hkey
    have hline : line = line.takeWhile isWhite ++
        ((String.ofList (leadingWord (trimStart line))).toList ++ afterWord (trimStart line)) := by
      rw [String.toList_ofList, leadingWord_append_afterWord, takeWhile_append_trimStart]
    refine ⟨line.takeWhile isWhite, String.ofList (leadingWord (trimStart line)),
      afterWord (trimStart line), hline, fun c hc => List.mem_takeWhile_imp hc, hword, ?_, ?_⟩
    · rw [String.toList_ofList]
    · rw [String.toList_ofList]
      exact (Point.isWordEdge_behindWord hkey).mpr (wordStops_afterWord _)

/-- A line that starts with one of the words. -/
theorem find?_keywordLine (hwords : ∀ word ∈ words, IsKeyword word.toList) (line : List Char) :
    (keywordLine words).find? line
      = if String.ofList (leadingWord (trimStart line)) ∈ words then
          some ⟨Point.start line, Point.behindWord (line.takeWhile isWhite)
            (leadingWord (trimStart line)) (afterWord (trimStart line))⟩
        else none := by
  rw [keywordLine, find?_atStart, head?_eq_ite (mem_stops_keyword hwords)]
  split_ifs <;> rfl

/-- A line that holds one of the words is a line that starts with it and stops behind it. -/
theorem mem_stops_loneKeyword (hwords : ∀ word ∈ words, IsKeyword word.toList) (y : Point) :
    y ∈ (seq whites (seq (group (anyOf words)) (seq atWordEdge atEnd))).stops (Point.start line) ↔
      String.ofList (trimStart line) ∈ words ∧
        y = Point.behindWord (line.takeWhile isWhite) (trimStart line) [] := by
  rw [mem_stops_word]
  simp only [mem_stops_seq_atWordEdge, mem_stops_atEnd]
  constructor
  · rintro ⟨front, word, rest, rfl, hfront, hword, _, rfl, rfl⟩
    obtain ⟨htake, hdrop⟩ := (hwords word hword).trimStart_eq [] hfront
    rw [htake, hdrop, List.append_nil, String.ofList_toList]
    exact ⟨hword, rfl⟩
  · rintro ⟨hword, rfl⟩
    have hkey := hwords _ hword
    rw [String.toList_ofList] at hkey
    have hline : line = line.takeWhile isWhite ++
        ((String.ofList (trimStart line)).toList ++ []) := by
      rw [String.toList_ofList, List.append_nil, takeWhile_append_trimStart]
    refine ⟨line.takeWhile isWhite, String.ofList (trimStart line), [], hline,
      fun c hc => List.mem_takeWhile_imp hc, hword, ?_⟩
    rw [String.toList_ofList]
    exact ⟨(Point.isWordEdge_behindWord hkey).mpr wordStops_nil, rfl, rfl⟩

/-- A line that holds one of the words and nothing else. -/
theorem find?_loneKeyword (hwords : ∀ word ∈ words, IsKeyword word.toList) (line : List Char) :
    (loneKeyword whites words).find? line
      = if String.ofList (trimStart line) ∈ words then
          some ⟨Point.start line, Point.behindWord (line.takeWhile isWhite) (trimStart line) []⟩
        else none := by
  rw [loneKeyword, find?_atStart, head?_eq_ite (mem_stops_loneKeyword hwords)]
  split_ifs <;> rfl

/-- Brackets around the white space say nothing. -/
theorem find?_loneKeyword_bracket (gap : Pattern) (words : List String) (line : List Char) :
    (loneKeyword (bracket gap) words).find? line = (loneKeyword gap words).find? line := by
  rw [loneKeyword, loneKeyword, find?_atStart, find?_atStart]
  rfl

end Keyword

end Pattern

end MatlabEdit
