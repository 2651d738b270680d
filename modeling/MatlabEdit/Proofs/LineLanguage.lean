import MatlabEdit.Proofs.KeywordLine
import MatlabEdit.Proofs.Place

/-!
# The languages of the line patterns

What indentation looks for on a line can be written as patterns, and searched for as such:
the first search decides where the opener ends, and a second one looks for an `end` in what
follows. Which lines are accepted is said here without a search.

The second search sees a text that is cut off behind the opener. The cut is between a word and
what is no word character, so no `end` starts right behind it, and what stands in front of an
`end` further on is the same as on the whole line (`endsIn_front_iff`). An `end` that starts in
front of the cut would have to be the opener itself (`endsIn_line_iff`). So it makes no
difference that only the rest of the line is searched.
-/

namespace MatlabEdit

/-! ## The patterns -/

namespace Pattern

def blockOpener : Pattern := keywordLine blockOpeners

def switchOpener : Pattern := keywordLine ["switch"]

def firstCase : Pattern := loneKeyword whites ["case"]

def bareEnd : Pattern := loneKeyword whites ["end"]

def dedentTrigger : Pattern := loneKeyword (bracket whites) dedentWords

/-- An `end` at the end, with or without a semicolon. -/
def trailingEnd : Pattern :=
  seq atWordEdge (seq (anyOf ["end"]) (seq (optional (anyOf [";"])) atEnd))

/-- White space to the end. -/
def blankRest : Pattern := seq whites atEnd

/-- What a delimiter of a block comment is, once its line has started. -/
def delimiterBody : Pattern :=
  seq whites (seq (anyOf ["%"]) (seq (group (oneOf ['{', '}'])) blankRest))

/-- A delimiter of a block comment, alone on its line. -/
def delimiter : Pattern := seq atStart delimiterBody

example : blockOpener.source = "^\\s*(" ++ "|".intercalate blockOpeners ++ ")\\b" := rfl

example : trailingEnd.source = "\\bend;?$" := by decide

example : delimiter.source = "^\\s*%([\x7b\x7d])\\s*$" := by decide

end Pattern

theorem isKeyword_of_mem_blockOpeners : ∀ word ∈ blockOpeners, IsKeyword word.toList := by decide

theorem isKeyword_end : IsKeyword "end".toList := by decide

theorem isKeyword_of_mem_dedentWords : ∀ word ∈ dedentWords, IsKeyword word.toList := by decide

/-! ## Keywords -/

section Keyword

variable {line : List Char}

theorem opensSwitch_eq_occursIn : opensSwitch line = Pattern.switchOpener.occursIn line := by
  rw [opensSwitch, afterKeyword?, Pattern.occursIn, Pattern.switchOpener,
    Pattern.find?_keywordLine (by decide)]
  split_ifs <;> rfl

theorem isLone_eq_occursIn {word : String} (h : IsKeyword word.toList) :
    isLone word line = (Pattern.loneKeyword .whites [word]).occursIn line := by
  have hwords : ∀ w ∈ [word], IsKeyword w.toList := by simpa using h
  have hfind := Pattern.find?_loneKeyword hwords line
  rw [Bool.eq_iff_iff, isLone_iff, Pattern.occursIn, hfind]
  split_ifs with hword <;> simpa using hword

theorem isBareCase_eq_occursIn : isBareCase line = Pattern.firstCase.occursIn line :=
  isLone_eq_occursIn (by decide)

theorem isBareEnd_eq_occursIn : isBareEnd line = Pattern.bareEnd.occursIn line :=
  isLone_eq_occursIn isKeyword_end

end Keyword

/-! ## An `end` at the end -/

/-- Behind `front`, the text ends in the word `end`, with or without a semicolon. -/
def EndsIn (front text : List Char) : Prop :=
  ∃ mid tail, text = mid ++ ("end".toList ++ tail) ∧ (tail = [] ∨ tail = [';']) ∧
    WordStarts (front ++ mid)

section Ends

variable {front word rest text : List Char}

theorem wordStops_tail {tail : List Char} (h : tail = [] ∨ tail = [';']) : WordStops tail := by
  rcases h with rfl | rfl
  · exact wordStops_nil
  · intro c hc
    obtain rfl : ';' = c := Option.some.inj hc
    decide +kernel

theorem wordStops_reverse : WordStops front.reverse ↔ WordStarts front := by
  rw [WordStops, WordStarts, List.head?_reverse]

theorem all_not_isWordChar_iff :
    (rest.head?.all fun c => !isWordChar c) = true ↔ WordStops rest := by
  simp only [Option.all_eq_true, Bool.not_eq_true', WordStops]

/-- Read backwards, an `end` comes first, or behind a semicolon. -/
theorem endsWithEnd_iff : endsWithEnd text = true ↔ EndsIn [] text := by
  constructor
  · intro h
    obtain ⟨tail, back, hback, htail, hstops⟩ : ∃ tail back,
        text.reverse = tail ++ 'd' :: 'n' :: 'e' :: back ∧ (tail = [] ∨ tail = [';']) ∧
          WordStops back := by
      unfold endsWithEnd at h
      split at h <;> dsimp only at h <;> split at h
      · next back hrev => exact ⟨[';'], back, hrev, .inr rfl, all_not_isWordChar_iff.mp h⟩
      · cases h
      · next back hrev => exact ⟨[], back, hrev, .inl rfl, all_not_isWordChar_iff.mp h⟩
      · cases h
    refine ⟨back.reverse, tail, ?_, htail, ?_⟩
    · rw [← List.reverse_reverse text, hback]
      rcases htail with rfl | rfl <;> simp
    · rwa [List.nil_append, ← wordStops_reverse, List.reverse_reverse]
  · rintro ⟨mid, tail, rfl, htail, hstarts⟩
    have hall := all_not_isWordChar_iff.mpr (wordStops_reverse.mpr hstarts)
    rcases htail with rfl | rfl <;> simpa [endsWithEnd] using hall

/-- Behind the `end` there may be a semicolon, and then the text is over. -/
theorem Pattern.exists_mem_stops_tail {x : Point} :
    (∃ y, y ∈ (seq (optional (anyOf [";"])) atEnd).stops x) ↔ x.behind = [] ∨ x.behind = [';'] := by
  simp only [mem_stops_seq, mem_stops_optional, mem_stops_anyOf, mem_stops_atEnd,
    List.mem_singleton]
  constructor
  · rintro ⟨_, _, ⟨_, rfl, rest, hbehind, rfl⟩ | rfl, rfl, hend⟩
    · obtain rfl : rest = [] := hend
      exact .inr hbehind
    · exact .inl hend
  · rintro (hend | hbehind)
    · exact ⟨x, x, .inr rfl, rfl, hend⟩
    · exact ⟨_, _, .inl ⟨_, rfl, [], hbehind, rfl⟩, rfl, rfl⟩

/-- An `end` at the end is found wherever in the text it starts. -/
theorem occursIn_trailingEnd_iff : Pattern.trailingEnd.occursIn text = true ↔ EndsIn [] text := by
  have hedge : ∀ front tail, (Point.mk front.reverse ("end".toList ++ tail) []).isWordEdge = true ↔
      WordStarts front := fun front tail =>
    (Point.isWordEdge_of_behind (c := 'e') rfl (isWordChar_of_isLower (by decide))).trans
      wordStops_reverse
  rw [Pattern.occursIn_iff, Pattern.trailingEnd]
  simp only [Pattern.mem_stops_seq_atWordEdge, Pattern.mem_stops_seq_anyOf, List.mem_singleton]
  constructor
  · rintro ⟨front, back, rfl, y, hstarts, _, rfl, tail, hback, hy⟩
    subst hback
    have htail := Pattern.exists_mem_stops_tail.mp ⟨y, hy⟩
    exact ⟨front, tail, rfl, htail, (hedge front tail).mp hstarts⟩
  · rintro ⟨front, tail, rfl, htail, hstarts⟩
    obtain ⟨y, hy⟩ := Pattern.exists_mem_stops_tail
      (x := Point.past ⟨front.reverse, "end".toList ++ tail, []⟩ "end".toList tail).mpr htail
    exact ⟨front, _, rfl, y, (hedge front tail).mpr hstarts, _, rfl, tail, rfl, hy⟩

theorem wordStarts_append_iff {mid : List Char} (h : mid ≠ []) :
    WordStarts (front ++ mid) ↔ WordStarts mid := by
  rw [WordStarts, WordStarts, List.getLast?_append, List.getLast?_eq_some_getLast h, Option.some_or]

/-- What stands in front of a text does not matter to the `end` at its end, if a word is over
there. -/
theorem endsIn_front_iff (hrest : WordStops rest) : EndsIn front rest ↔ EndsIn [] rest := by
  refine exists_congr fun mid => exists_congr fun tail => and_congr_right fun hsplit =>
    and_congr_right fun _ => ?_
  -- the text does not start with the `end`
  have hmid : mid ≠ [] := by
    rintro rfl
    rw [hsplit] at hrest
    exact isKeyword_end.not_wordStops tail hrest
  rw [wordStarts_append_iff hmid, List.nil_append]

/-- A line that starts with a keyword other than `end` ends in `end` behind that keyword, or not
at all. -/
theorem endsIn_line_iff (hfront : ∀ c ∈ front, isWhite c = true) (hword : IsKeyword word)
    (hne : word ≠ "end".toList) (hrest : WordStops rest) :
    EndsIn [] (front ++ (word ++ rest)) ↔ EndsIn (front ++ word) rest := by
  constructor
  · rintro ⟨pre, tail, hline, htail, hstarts⟩
    obtain ⟨mid, rfl, hbody⟩ : ∃ mid, pre = front ++ mid ∧
        word ++ rest = mid ++ ("end".toList ++ tail) := by
      rcases List.append_eq_append_iff.mp hline with hmid | ⟨gap, hgap, hend⟩
      · exact hmid
      · cases gap with
        | nil => exact ⟨[], by simp [hgap], hend.symm⟩
        | cons c gap =>
          obtain rfl : 'e' = c := (List.cons.inj hend).1
          have hwhite := hfront 'e' (by rw [hgap]; simp)
          exact absurd hwhite (by decide)
    rcases List.append_eq_append_iff.mp hbody with ⟨mid, rfl, hmid⟩ | ⟨last, hlast, _⟩
    · exact ⟨mid, tail, hmid, htail, by simpa using hstarts⟩
    · -- the `end` starts in the keyword, and so it is the keyword
      rcases eq_or_ne mid [] with rfl | hmid
      · have hstop := wordStops_tail htail
        have hfirst := congrArg leadingWord hbody
        rw [(hword.leadingWord_eq hrest).1] at hfirst
        exact absurd (hfirst.trans (isKeyword_end.leadingWord_eq hstop).1) hne
      · have hchar := (wordStarts_append_iff hmid).mp hstarts _ (List.getLast?_eq_some_getLast hmid)
        have hmem : mid.getLast hmid ∈ word :=
          hlast ▸ List.mem_append_left _ (List.getLast_mem hmid)
        rw [isWordChar_of_isLower (hword.2 _ hmem)] at hchar
        cases hchar
  · rintro ⟨mid, tail, rfl, htail, hstarts⟩
    exact ⟨front ++ word ++ mid, tail, by simp, htail, hstarts⟩

end Ends

/-! ## Lines that open a block -/

section Opener

variable {line : List Char}

theorem opensBlock_iff :
    opensBlock line = true ↔ ∃ word ∈ blockOpeners, ∃ rest,
      trimStart line = word.toList ++ rest ∧ WordStops rest ∧ ¬ EndsIn word.toList rest := by
  unfold opensBlock afterKeyword?
  dsimp only
  constructor
  · intro h
    split_ifs at h with hword
    refine ⟨_, hword, afterWord (trimStart line), ?_, wordStops_afterWord _, ?_⟩
    · rw [String.toList_ofList, leadingWord_append_afterWord]
    · rw [endsIn_front_iff (wordStops_afterWord _), ← endsWithEnd_iff]
      simpa using h
  · rintro ⟨word, hword, rest, hline, hrest, hend⟩
    obtain ⟨hlead, hafter⟩ := (isKeyword_of_mem_blockOpeners word hword).leadingWord_eq hrest
    rw [hline, hlead, hafter, String.ofList_toList, if_pos hword]
    rw [endsIn_front_iff hrest, ← endsWithEnd_iff] at hend
    simpa using hend

theorem opensBlock_iff_search :
    opensBlock line = true ↔ ∃ found, Pattern.blockOpener.find? line = some found ∧
      Pattern.trailingEnd.occursIn found.stop.behind = false := by
  rw [Pattern.blockOpener, Pattern.find?_keywordLine isKeyword_of_mem_blockOpeners, opensBlock,
    afterKeyword?]
  split_ifs with hword
  · simp only [Option.some.injEq, exists_eq_left', Bool.not_eq_true', ← Bool.not_eq_true,
      endsWithEnd_iff, occursIn_trailingEnd_iff]
    rfl
  · simp

/-- An `end` that closes the block may be looked for on the whole line. -/
theorem occursIn_behind_opener {found : Found} (h : Pattern.blockOpener.find? line = some found) :
    Pattern.trailingEnd.occursIn found.stop.behind = Pattern.trailingEnd.occursIn line := by
  rw [Pattern.blockOpener, Pattern.find?_keywordLine isKeyword_of_mem_blockOpeners] at h
  split_ifs at h with hword
  have hkey := isKeyword_of_mem_blockOpeners _ hword
  rw [String.toList_ofList] at hkey
  have hne : leadingWord (trimStart line) ≠ "end".toList := by
    intro hend
    rw [hend] at hword
    exact absurd hword (by decide)
  have hstop := wordStops_afterWord (trimStart line)
  have hline := endsIn_line_iff (fun c hc => List.mem_takeWhile_imp (l := line) hc) hkey hne hstop
  rw [leadingWord_append_afterWord, takeWhile_append_trimStart, endsIn_front_iff hstop] at hline
  obtain rfl := Option.some.inj h
  rw [Bool.eq_iff_iff, occursIn_trailingEnd_iff, occursIn_trailingEnd_iff, hline]
  rfl

/-- What is listed twice, or in another order, is found all the same. -/
theorem find?_blockOpener_of_mem_iff {words : List String}
    (h : ∀ word, word ∈ words ↔ word ∈ blockOpeners) :
    (Pattern.keywordLine words).find? line = Pattern.blockOpener.find? line := by
  have hwords : ∀ word ∈ words, IsKeyword word.toList := fun word hword =>
    isKeyword_of_mem_blockOpeners word ((h word).mp hword)
  rw [Pattern.blockOpener, Pattern.find?_keywordLine hwords,
    Pattern.find?_keywordLine isKeyword_of_mem_blockOpeners]
  simp only [h]

end Opener

/-! ## Lines that are indented anew -/

section Trigger

variable {line : List Char}

theorem isDedentTrigger_iff_word :
    isDedentTrigger line = true ↔ ∃ word ∈ dedentWords, trimStart line = word.toList := by
  rw [isDedentTrigger_iff]
  constructor
  · intro h
    exact ⟨_, h, String.toList_ofList.symm⟩
  · rintro ⟨word, hword, hline⟩
    rwa [hline, String.ofList_toList]

/-- A line that is a keyword is found as a whole, and the keyword as a part. -/
theorem captures_behindWord (front word : List Char) :
    (Found.mk (Point.start (front ++ word)) (Point.behindWord front word [])).captures
      = [⟨⟨0, utf8Length (front ++ word)⟩, front ++ word⟩,
        ⟨⟨utf8Length front, utf8Length (front ++ word)⟩, word⟩] := by
  rw [Found.captures, Point.upTo_of_append (front ++ word) (List.append_nil _).symm,
    Point.offset, Point.offset, Point.behindWord, ← List.reverse_append, utf8Length_reverse]
  rfl

theorem find?_dedentTrigger (line : List Char) :
    Pattern.dedentTrigger.find? line = if String.ofList (trimStart line) ∈ dedentWords then
      some ⟨Point.start line, Point.behindWord (line.takeWhile isWhite) (trimStart line) []⟩
    else none := by
  rw [Pattern.dedentTrigger, Pattern.find?_loneKeyword_bracket,
    Pattern.find?_loneKeyword isKeyword_of_mem_dedentWords]

theorem captures_dedentTrigger {found : Found} (h : Pattern.dedentTrigger.find? line = some found) :
    found.captures = [⟨⟨0, utf8Length line⟩, line⟩,
      ⟨⟨utf8Length (line.takeWhile isWhite), utf8Length line⟩, trimStart line⟩] := by
  rw [find?_dedentTrigger] at h
  split_ifs at h
  have hline := captures_behindWord (line.takeWhile isWhite) (trimStart line)
  rw [takeWhile_append_trimStart] at hline
  rw [← Option.some.inj h, hline]

/-- The match as it is reported. -/
def Found.dedentMatch? (found : Found) : Option DedentMatch :=
  match found.captures with
  | [whole, word] => some ⟨whole.range, word.range⟩
  | _ => none

theorem isDedentTrigger_eq_occursIn :
    isDedentTrigger line = Pattern.dedentTrigger.occursIn line := by
  rw [isDedentTrigger, dedentMatch?, Pattern.occursIn, find?_dedentTrigger]
  split_ifs <;> rfl

theorem dedentMatch?_eq_search :
    dedentMatch? line = (Pattern.dedentTrigger.find? line).bind Found.dedentMatch? := by
  have hfind := find?_dedentTrigger line
  rw [dedentMatch?]
  split_ifs at hfind ⊢ with hword
  · rw [hfind, Option.bind_some, Found.dedentMatch?, captures_dedentTrigger hfind]
  · rw [hfind, Option.bind_none]

end Trigger

/-! ## Delimiters of block comments -/

section Delimiter

open Pattern

variable {line : List Char}

/-- The delimiter that a search has found, by the brace in it. -/
def Found.delimiter? (found : Found) : Option BlockDelimiter :=
  match found.captures[1]?.map Group.text with
  | some ['{'] => some .opening
  | some ['}'] => some .closing
  | _ => none

theorem Pattern.mem_stops_blankRest {x y : Point} :
    y ∈ blankRest.stops x ↔ (∀ c ∈ x.behind, isWhite c = true) ∧ y = x.past x.behind [] := by
  simp only [blankRest, mem_stops_seq_whites, mem_stops_atEnd, Point.past_behind]
  constructor
  · rintro ⟨run, _, hrun, hwhite, rfl, rfl⟩
    rw [List.append_nil] at hrun
    rw [hrun]
    exact ⟨hwhite, rfl⟩
  · rintro ⟨hwhite, rfl⟩
    exact ⟨x.behind, [], (List.append_nil _).symm, hwhite, rfl, rfl⟩

/-- A delimiter is what a trim leaves of its line. -/
theorem trim_eq_delimiter_iff {brace : Char} (h : brace ∈ ['{', '}']) :
    trim line = ['%', brace] ↔ ∃ front back, line = front ++ ('%' :: brace :: back) ∧
      (∀ c ∈ front, isWhite c = true) ∧ ∀ c ∈ back, isWhite c = true := by
  constructor
  · intro htrim
    obtain ⟨back, hline, hback⟩ := exists_margins isWhite line
    rw [← trim_eq_strip, htrim, List.append_assoc] at hline
    exact ⟨_, back, hline, fun c hc => List.mem_takeWhile_imp hc, hback⟩
  · rintro ⟨front, back, rfl, hfront, hback⟩
    have hsign : ∀ c, ['%', brace].head? = some c → isWhite c = false := fun c hc => by
      obtain rfl : '%' = c := Option.some.inj hc
      decide
    have hbrace : ∀ c, ['%', brace].getLast? = some c → isWhite c = false := fun c hc => by
      obtain rfl : brace = c := Option.some.inj hc
      obtain rfl | rfl : brace = '{' ∨ brace = '}' := by simpa using h
      · decide
      · decide
    have hstrip := strip_append hfront hback hsign hbrace
    rwa [List.append_assoc] at hstrip

/-- What is found of a delimiter is its brace. -/
theorem mem_stops_delimiter {y : Point} (h : y ∈ Pattern.delimiterBody.stops (Point.start line)) :
    ∃ brace ∈ ['{', '}'], trim line = ['%', brace] ∧ y.groups.map Group.text = [[brace]] := by
  simp only [Pattern.delimiterBody, mem_stops_seq_whites, mem_stops_seq_anyOf, mem_stops_seq_group,
    mem_stops_oneOf, mem_stops_blankRest, List.mem_singleton] at h
  obtain ⟨front, _, hline, hfront, _, rfl, _, rfl, _, ⟨brace, hbrace, back, rfl, rfl⟩, hback, rfl⟩
    := h
  refine ⟨brace, hbrace, (trim_eq_delimiter_iff hbrace).mpr ⟨front, back, hline, hfront, hback⟩, ?_⟩
  rw [Point.past_groups, Point.close, Point.upTo_of_append [brace] rfl]
  rfl

theorem exists_mem_stops_delimiter {brace : Char} (hbrace : brace ∈ ['{', '}'])
    (htrim : trim line = ['%', brace]) :
    ∃ y, y ∈ Pattern.delimiterBody.stops (Point.start line) := by
  obtain ⟨front, back, hline, hfront, hback⟩ := (trim_eq_delimiter_iff hbrace).mp htrim
  simp only [Pattern.delimiterBody, mem_stops_seq_whites, mem_stops_seq_anyOf, mem_stops_seq_group,
    mem_stops_oneOf, mem_stops_blankRest, List.mem_singleton]
  exact ⟨_, front, _, hline, hfront, _, rfl, _, rfl, _, ⟨brace, hbrace, back, rfl, rfl⟩, hback, rfl⟩

theorem blockDelimiter?_eq_search :
    blockDelimiter? line = (Pattern.delimiter.find? line).bind Found.delimiter? := by
  rw [Pattern.delimiter, Pattern.find?_atStart]
  cases h : (Pattern.delimiterBody.stops (Point.start line)).head? with
  | none =>
    have hnone : ∀ brace ∈ ['{', '}'], trim line ≠ ['%', brace] := fun brace hbrace htrim => by
      obtain ⟨y, hy⟩ := exists_mem_stops_delimiter hbrace htrim
      rw [List.head?_eq_none_iff.mp h] at hy
      exact absurd hy List.not_mem_nil
    cases hline : blockDelimiter? line with
    | none => rfl
    | some delimiter =>
      cases delimiter with
      | opening => exact absurd (blockDelimiter?_eq_opening_iff.mp hline) (hnone '{' (by simp))
      | closing => exact absurd (blockDelimiter?_eq_closing_iff.mp hline) (hnone '}' (by simp))
  | some y =>
    obtain ⟨brace, hbrace, htrim, hgroups⟩ := mem_stops_delimiter (List.mem_of_mem_head? h)
    have htext : (Found.mk (Point.start line) y).captures[1]?.map Group.text = some [brace] := by
      rw [Found.captures, List.getElem?_cons_succ, ← List.getElem?_map, hgroups]
      rfl
    rw [Option.map_some, Option.bind_some, Found.delimiter?, htext, blockDelimiter?, htrim]
    rcases List.mem_cons.mp hbrace with rfl | hbrace
    · rfl
    · obtain rfl := List.mem_singleton.mp hbrace
      rfl

end Delimiter

/-! ## The three languages -/

/-- How the lines that open a block are told from others. -/
structure OpenerLanguage (line : List Char) : Prop where
  accepts : opensBlock line = true ↔ ∃ word ∈ blockOpeners, ∃ rest,
    trimStart line = word.toList ++ rest ∧ WordStops rest ∧ ¬ EndsIn word.toList rest
  /-- Two searches decide: one for the opener, and one for an `end` in what follows. -/
  searched : opensBlock line = true ↔ ∃ found, Pattern.blockOpener.find? line = some found ∧
    Pattern.trailingEnd.occursIn found.stop.behind = false
  /-- The second search may as well look at the whole line. -/
  cut : ∀ found, Pattern.blockOpener.find? line = some found →
    Pattern.trailingEnd.occursIn found.stop.behind = Pattern.trailingEnd.occursIn line
  /-- The first search may try the words in any order. -/
  order : ∀ words, (∀ word, word ∈ words ↔ word ∈ blockOpeners) →
    (Pattern.keywordLine words).find? line = Pattern.blockOpener.find? line

/-- How the lines that are indented anew are told from others. -/
structure TriggerLanguage (line : List Char) : Prop where
  accepts : isDedentTrigger line = true ↔ ∃ word ∈ dedentWords, trimStart line = word.toList
  /-- Hosts are told of the pattern that is searched for. -/
  written : dedentTriggerPattern = Pattern.dedentTrigger.source
  occurs : isDedentTrigger line = Pattern.dedentTrigger.occursIn line
  searched : dedentMatch? line = (Pattern.dedentTrigger.find? line).bind Found.dedentMatch?
  /-- The whole line is found, and in it the keyword. -/
  captures : ∀ word ∈ dedentWords, trimStart line = word.toList →
    ∃ found, Pattern.dedentTrigger.find? line = some found ∧
      found.captures = [⟨⟨0, utf8Length line⟩, line⟩,
        ⟨⟨utf8Length (line.takeWhile isWhite), utf8Length line⟩, word.toList⟩]

/-- How the delimiters of block comments are told from other lines. -/
structure DelimiterLanguage (line : List Char) : Prop where
  opening : blockDelimiter? line = some .opening ↔ trim line = ['%', '{']
  closing : blockDelimiter? line = some .closing ↔ trim line = ['%', '}']
  searched : blockDelimiter? line = (Pattern.delimiter.find? line).bind Found.delimiter?

/-- **The line patterns accept their languages.** That a search tries the words in some order, or
looks at the rest of a line only, makes no difference to what it finds. -/
theorem linePattern_languages (line : List Char) :
    OpenerLanguage line ∧ TriggerLanguage line ∧ DelimiterLanguage line := by
  refine ⟨⟨opensBlock_iff, opensBlock_iff_search, fun _ => occursIn_behind_opener, fun _ =>
    find?_blockOpener_of_mem_iff⟩, ⟨isDedentTrigger_iff_word, rfl, isDedentTrigger_eq_occursIn,
    dedentMatch?_eq_search, ?_⟩, ⟨blockDelimiter?_eq_opening_iff, blockDelimiter?_eq_closing_iff,
    blockDelimiter?_eq_search⟩⟩
  intro word hword hline
  have hfind := find?_dedentTrigger line
  rw [if_pos (by rwa [hline, String.ofList_toList])] at hfind
  refine ⟨_, hfind, ?_⟩
  rw [← hline]
  exact captures_dedentTrigger hfind

/-- An opener that another one starts with, an `end` that is part of a word, and white space of
two bytes. -/
theorem linePattern_languages_mixed :
    (Pattern.keywordLine blockOpeners.reverse).find? "elseif x, y_end;".toList
        = Pattern.blockOpener.find? "elseif x, y_end;".toList ∧
      Pattern.trailingEnd.occursIn " x, y_end;".toList
        = Pattern.trailingEnd.occursIn "elseif x, y_end;".toList ∧
      ∃ found, Pattern.dedentTrigger.find? "\u00a0otherwise".toList = some found ∧
        found.captures = [⟨⟨0, 11⟩, "\u00a0otherwise".toList⟩, ⟨⟨2, 11⟩, "otherwise".toList⟩] := by
  have opener := (linePattern_languages "elseif x, y_end;".toList).1
  have trigger := (linePattern_languages "\u00a0otherwise".toList).2.1
  refine ⟨opener.order _ fun _ => List.mem_reverse, ?_, ?_⟩
  · exact opener.cut ⟨Point.start "elseif x, y_end;".toList,
      Point.behindWord [] "elseif".toList " x, y_end;".toList⟩ (by decide +kernel)
  · exact trigger.captures "otherwise" (by decide) (by decide)

end MatlabEdit
