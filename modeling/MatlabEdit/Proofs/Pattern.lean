import MatlabEdit.Indent.LinePattern
import MatlabEdit.Proofs.Strip

/-!
# Patterns

Regular expressions, as far as a line of text is looked at with them. A pattern is matched
from a point of a text on, and it may have several points at which to stop. They come in the
order in which they are preferred (`Pattern.stops`): as much white space as there is before
any less, and of some words the first that is listed. What follows a pattern takes the first
of them from which it matches itself.

A pattern is searched for from the front of a text to its back, and the first point from
which it matches is where it is found (`Pattern.find?`). Whether it is found at all does not
depend on what is preferred (`occursIn_iff`), and a pattern that asks for the start of the
text is found there or nowhere (`find?_atStart`).
-/

namespace MatlabEdit

/-! ## Points -/

/-- A part of a match that was asked for. -/
structure Group where
  range : ByteRange
  text : List Char
deriving DecidableEq, Repr

/-- A point of a text, between two characters, and the groups of the match that leads there. -/
structure Point where
  /-- What stands before the point, its last character first. -/
  before : List Char
  /-- What stands behind the point. -/
  behind : List Char
  groups : List Group
deriving DecidableEq, Repr

namespace Point

/-- The start of a text. -/
def start (text : List Char) : Point := ⟨[], text, []⟩

/-- How many bytes stand before the point. -/
def offset (x : Point) : Nat := utf8Length x.before

/-- The point `n` characters further. -/
def forward (x : Point) (n : Nat) : Point :=
  { x with before := (x.behind.take n).reverse ++ x.before, behind := x.behind.drop n }

/-- Whether a word starts or ends here: there is a word character on one side only. -/
def isWordEdge (x : Point) : Bool :=
  x.before.head?.any isWordChar != x.behind.head?.any isWordChar

/-- The text from `x` to `y`. -/
def upTo (x y : Point) : Group :=
  ⟨⟨x.offset, y.offset⟩, x.behind.take (x.behind.length - y.behind.length)⟩

/-- The point `y`, with the text from `x` on as one more group. -/
def close (x y : Point) : Point := { y with groups := y.groups ++ [x.upTo y] }

/-- The point behind `run`, when `rest` follows it. -/
def past (x : Point) (run rest : List Char) : Point := ⟨run.reverse ++ x.before, rest, x.groups⟩

section Past

variable {x : Point} (run rest : List Char)

@[simp] theorem past_before : (x.past run rest).before = run.reverse ++ x.before := rfl

@[simp] theorem past_behind : (x.past run rest).behind = rest := rfl

@[simp] theorem past_groups : (x.past run rest).groups = x.groups := rfl

theorem start_past (text : List Char) : (start text).past run rest = ⟨run.reverse, rest, []⟩ := by
  rw [past, start, List.append_nil]

variable {rest}

theorem forward_of_append (h : x.behind = run ++ rest) :
    x.forward run.length = x.past run rest := by
  rw [forward, past, h, List.take_left, List.drop_left]

/-- Between two points stands what is behind the one and not behind the other. -/
theorem upTo_of_append {y : Point} (h : x.behind = run ++ y.behind) :
    x.upTo y = ⟨⟨x.offset, y.offset⟩, run⟩ := by
  rw [upTo, h, List.length_append, Nat.add_sub_cancel, List.take_left]

end Past

end Point

/-! ## Patterns -/

/-- What is looked for in a text. -/
inductive Pattern where
  /-- The start of the text. -/
  | atStart
  /-- The end of the text. -/
  | atEnd
  /-- The start or the end of a word. -/
  | atWordEdge
  /-- White space, or nothing. -/
  | whites
  /-- One of some words. -/
  | anyOf (words : List String)
  /-- One of some characters. -/
  | oneOf (chars : List Char)
  /-- The pattern, or nothing. -/
  | optional (p : Pattern)
  /-- The pattern, as a part that is asked for. -/
  | group (p : Pattern)
  /-- The pattern, in brackets that say nothing. -/
  | bracket (p : Pattern)
  /-- One pattern and then another. -/
  | seq (p q : Pattern)

/-- Where a pattern has been found. -/
structure Found where
  start : Point
  stop : Point
deriving DecidableEq, Repr

/-- The whole match, and then the parts of it that were asked for. -/
def Found.captures (found : Found) : List Group := found.start.upTo found.stop :: found.stop.groups

namespace Pattern

/-- How the pattern is written. -/
def source : Pattern → String
  | atStart => "^"
  | atEnd => "$"
  | atWordEdge => "\\b"
  | whites => "\\s*"
  | anyOf words => "|".intercalate words
  | oneOf chars => "[" ++ String.ofList chars ++ "]"
  | optional p => p.source ++ "?"
  | group p => "(" ++ p.source ++ ")"
  | bracket p => "(?:" ++ p.source ++ ")"
  | seq p q => p.source ++ q.source

/-- Where a match from `x` on may stop, what is preferred first. -/
def stops : Pattern → Point → List Point
  | atStart, x => if x.before = [] then [x] else []
  | atEnd, x => if x.behind = [] then [x] else []
  | atWordEdge, x => if x.isWordEdge then [x] else []
  | whites, x =>
    (List.range ((x.behind.takeWhile isWhite).length + 1)).reverse.map fun n => x.forward n
  | anyOf words, x =>
    words.filterMap fun word =>
      if word.toList.isPrefixOf x.behind then some (x.forward word.toList.length) else none
  | oneOf chars, x =>
    match x.behind with
    | c :: _ => if c ∈ chars then [x.forward 1] else []
    | [] => []
  | optional p, x => p.stops x ++ [x]
  | group p, x => (p.stops x).map x.close
  | bracket p, x => p.stops x
  | seq p q, x => (p.stops x).flatMap q.stops

/-- The first match in a text, and of those that start where it does the one that is preferred. -/
def find? (p : Pattern) (text : List Char) : Option Found :=
  (List.range (text.length + 1)).findSome? fun n =>
    let x := (Point.start text).forward n
    (p.stops x).head?.map fun stop => ⟨x, stop⟩

/-- Whether there is a match in a text. -/
def occursIn (p : Pattern) (text : List Char) : Bool := (p.find? text).isSome

/-! ## Where a match may stop -/

section Stops

variable {p q : Pattern} {x y : Point}

theorem mem_ite_singleton {α : Type} {a b : α} {c : Prop} [Decidable c] :
    b ∈ (if c then [a] else []) ↔ b = a ∧ c := by
  rw [List.mem_ite_nil_right, List.mem_singleton, and_comm]

theorem mem_stops_atEnd : y ∈ atEnd.stops x ↔ y = x ∧ x.behind = [] := mem_ite_singleton

theorem mem_stops_atWordEdge : y ∈ atWordEdge.stops x ↔ y = x ∧ x.isWordEdge = true :=
  mem_ite_singleton

theorem mem_stops_whites :
    y ∈ whites.stops x ↔ ∃ run rest, x.behind = run ++ rest ∧ (∀ c ∈ run, isWhite c = true) ∧
      y = x.past run rest := by
  refine List.mem_map.trans ?_
  constructor
  · rintro ⟨n, hn, rfl⟩
    rw [List.mem_reverse, List.mem_range] at hn
    refine ⟨x.behind.take n, x.behind.drop n, (List.take_append_drop _ _).symm, fun c hc => ?_, rfl⟩
    -- the first `n` characters are part of the run
    have hsplit := List.takeWhile_append_dropWhile (p := isWhite) (l := x.behind)
    rw [← hsplit, List.take_append_of_le_length (by omega)] at hc
    exact List.mem_takeWhile_imp (List.mem_of_mem_take hc)
  · rintro ⟨run, rest, hbehind, hrun, rfl⟩
    refine ⟨run.length, ?_, Point.forward_of_append run hbehind⟩
    rw [List.mem_reverse, List.mem_range, hbehind, List.takeWhile_append_of_pos hrun,
      List.length_append]
    omega

theorem mem_stops_anyOf {words : List String} :
    y ∈ (anyOf words).stops x ↔ ∃ word ∈ words, ∃ rest, x.behind = word.toList ++ rest ∧
      y = x.past word.toList rest := by
  refine List.mem_filterMap.trans (exists_congr fun word => and_congr_right fun _ => ?_)
  constructor
  · intro h
    split_ifs at h with hstarts
    obtain ⟨rest, hrest⟩ := List.isPrefixOf_iff_prefix.mp hstarts
    exact ⟨rest, hrest.symm, by rw [← Option.some.inj h, Point.forward_of_append _ hrest.symm]⟩
  · rintro ⟨rest, hbehind, rfl⟩
    rw [if_pos (List.isPrefixOf_iff_prefix.mpr ⟨rest, hbehind.symm⟩),
      Point.forward_of_append _ hbehind]

theorem mem_stops_oneOf {chars : List Char} :
    y ∈ (oneOf chars).stops x ↔ ∃ c ∈ chars, ∃ rest, x.behind = [c] ++ rest ∧
      y = x.past [c] rest := by
  obtain ⟨before, behind, groups⟩ := x
  cases behind with
  | nil =>
    refine iff_of_false List.not_mem_nil ?_
    rintro ⟨c, _, rest, hnil, _⟩
    cases hnil
  | cons c rest =>
    have hnext : (Point.mk before (c :: rest) groups).forward 1 = _ :=
      Point.forward_of_append [c] rfl
    refine mem_ite_singleton.trans ?_
    rw [hnext]
    constructor
    · rintro ⟨rfl, hc⟩
      exact ⟨c, hc, rest, rfl, rfl⟩
    · rintro ⟨d, hd, rest', heq, rfl⟩
      obtain ⟨rfl, rfl⟩ := List.cons.inj heq
      exact ⟨rfl, hd⟩

theorem mem_stops_optional : y ∈ (optional p).stops x ↔ y ∈ p.stops x ∨ y = x :=
  List.mem_append.trans (or_congr_right List.mem_singleton)

theorem mem_stops_seq : y ∈ (seq p q).stops x ↔ ∃ z ∈ p.stops x, y ∈ q.stops z := List.mem_flatMap

/-! What comes first in a sequence says from where the rest of it is matched. -/

theorem mem_stops_seq_atWordEdge :
    y ∈ (seq atWordEdge q).stops x ↔ x.isWordEdge = true ∧ y ∈ q.stops x := by
  simp only [mem_stops_seq, mem_stops_atWordEdge, and_assoc, exists_eq_left]

theorem mem_stops_seq_whites :
    y ∈ (seq whites q).stops x ↔ ∃ run rest, x.behind = run ++ rest ∧
      (∀ c ∈ run, isWhite c = true) ∧ y ∈ q.stops (x.past run rest) := by
  rw [mem_stops_seq]
  constructor
  · rintro ⟨z, hz, hy⟩
    obtain ⟨run, rest, hbehind, hrun, rfl⟩ := mem_stops_whites.mp hz
    exact ⟨run, rest, hbehind, hrun, hy⟩
  · rintro ⟨run, rest, hbehind, hrun, hy⟩
    exact ⟨_, mem_stops_whites.mpr ⟨run, rest, hbehind, hrun, rfl⟩, hy⟩

theorem mem_stops_seq_anyOf {words : List String} :
    y ∈ (seq (anyOf words) q).stops x ↔ ∃ word ∈ words, ∃ rest,
      x.behind = word.toList ++ rest ∧ y ∈ q.stops (x.past word.toList rest) := by
  rw [mem_stops_seq]
  constructor
  · rintro ⟨z, hz, hy⟩
    obtain ⟨word, hword, rest, hbehind, rfl⟩ := mem_stops_anyOf.mp hz
    exact ⟨word, hword, rest, hbehind, hy⟩
  · rintro ⟨word, hword, rest, hbehind, hy⟩
    exact ⟨_, mem_stops_anyOf.mpr ⟨word, hword, rest, hbehind, rfl⟩, hy⟩

theorem mem_stops_seq_group :
    y ∈ (seq (group p) q).stops x ↔ ∃ z ∈ p.stops x, y ∈ q.stops (x.close z) := by
  rw [mem_stops_seq]
  constructor
  · rintro ⟨_, hgroup, hy⟩
    obtain ⟨z, hz, rfl⟩ := List.mem_map.mp hgroup
    exact ⟨z, hz, hy⟩
  · rintro ⟨z, hz, hy⟩
    exact ⟨_, List.mem_map_of_mem hz, hy⟩

theorem stops_seq_atStart (p : Pattern) (x : Point) :
    (seq atStart p).stops x = if x.before = [] then p.stops x else [] := by
  show (if x.before = [] then [x] else []).flatMap p.stops = _
  split_ifs
  · exact List.flatMap_singleton _ _
  · rfl

end Stops

/-! ## The search -/

variable {p : Pattern} {text : List Char}

/-- A pattern occurs in a text if it matches somewhere. -/
theorem occursIn_iff :
    p.occursIn text = true ↔
      ∃ front back, text = front ++ back ∧ ∃ y, y ∈ p.stops ⟨front.reverse, back, []⟩ := by
  rw [occursIn, find?, List.findSome?_isSome_iff]
  dsimp only
  constructor
  · rintro ⟨n, _, hsome⟩
    rw [Option.isSome_map, List.isSome_head?] at hsome
    refine ⟨text.take n, text.drop n, (List.take_append_drop _ _).symm, ?_⟩
    refine List.exists_mem_of_ne_nil _ ?_
    simpa [Point.forward, Point.start] using hsome
  · rintro ⟨front, back, rfl, y, hy⟩
    have hforward : (Point.start (front ++ back)).forward front.length = _ :=
      Point.forward_of_append front rfl
    refine ⟨front.length, List.mem_range.mpr (by rw [List.length_append]; omega), ?_⟩
    rw [Option.isSome_map, List.isSome_head?, hforward]
    simpa [Point.start, Point.past] using List.ne_nil_of_mem hy

/-- What asks for the start of a text is found there, or nowhere. -/
theorem find?_atStart (p : Pattern) (text : List Char) :
    (seq atStart p).find? text =
      (p.stops (Point.start text)).head?.map fun stop => ⟨Point.start text, stop⟩ := by
  have hfirst :
      (seq atStart p).stops ((Point.start text).forward 0) = p.stops (Point.start text) := by
    exact stops_seq_atStart p (Point.start text)
  have hlater : ∀ n < text.length,
      (seq atStart p).stops ((Point.start text).forward (n + 1)) = [] := by
    intro n hn
    rw [stops_seq_atStart, if_neg]
    intro hnil
    have hlen := congrArg List.length hnil
    simp only [Point.forward, Point.start, List.append_nil, List.length_reverse, List.length_take,
      List.length_nil] at hlen
    omega
  rw [find?, List.range_succ_eq_map, List.findSome?_cons, List.findSome?_map]
  dsimp only
  rw [hfirst]
  cases hhead : (p.stops (Point.start text)).head? with
  | some stop => rfl
  | none =>
    refine List.findSome?_eq_none_iff.mpr fun n hn => ?_
    have hnil := hlater n (List.mem_range.mp hn)
    dsimp only [Function.comp]
    rw [hnil]
    rfl

end Pattern

end MatlabEdit
