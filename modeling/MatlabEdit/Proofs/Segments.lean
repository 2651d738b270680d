import MatlabEdit.Proofs.LineByLine

/-!
# Segments

Looking around stops at a NUL byte as it does at a line break. What a delimiter has for itself
is therefore not a line but a *segment*: the content is cut at each line feed, each carriage
return and each NUL byte (`Source.segments`).

A segment knows where it starts. Its *ink* is the place of its first byte that is no blank,
which is where a delimiter stands on it if there is one. An opening delimiter weighs one and a
closing one minus one, so the weights of some segments add up to the depth at which they leave
a block comment.

Proofs about the segments of a document are inductions on `Cursor.Ahead`: the segments ahead
of a cursor are the one it stands at and those ahead of the next.
-/

namespace MatlabEdit

/-- A piece of a content between two line ends. -/
structure Segment where
  /-- Where it starts in the document. -/
  start : Nat
  bytes : List UInt8
deriving DecidableEq, Repr

namespace Segment

/-- Where its first byte stands that is no blank. -/
def ink (segment : Segment) : Nat := segment.start + Byte.indent segment.bytes

/-- What it adds to the depth of a block comment. -/
def weight (segment : Segment) : Int :=
  if Byte.trim segment.bytes = Outline.opening then 1
  else if Byte.trim segment.bytes = Outline.closing then -1
  else 0

/-- The segments of which the first starts at `start`. Between two of them stands one byte. -/
def ofPieces (start : Nat) : List (List UInt8) → List Segment
  | [] => []
  | bytes :: rest => ⟨start, bytes⟩ :: ofPieces (start + bytes.length + 1) rest

end Segment

/-- The segments of a content. -/
def Source.segments (s : Source) : List Segment :=
  Segment.ofPieces s.contentStart ((s.byteList.drop s.contentStart).splitOnP Byte.isLineEnd)

/-- What segments add to the depth together. -/
def balance : List Segment → Int
  | [] => 0
  | segment :: rest => segment.weight + balance rest

namespace Segment

theorem weight_of_opening {segment : Segment} (h : Byte.trim segment.bytes = Outline.opening) :
    segment.weight = 1 := if_pos h

theorem weight_of_closing {segment : Segment} (h : Byte.trim segment.bytes = Outline.closing) :
    segment.weight = -1 := by
  have hne : Byte.trim segment.bytes ≠ Outline.opening := by
    rw [h]
    decide
  rw [weight, if_neg hne, if_pos h]

theorem weight_of_other {segment : Segment} (hopen : Byte.trim segment.bytes ≠ Outline.opening)
    (hclose : Byte.trim segment.bytes ≠ Outline.closing) : segment.weight = 0 := by
  rw [weight, if_neg hopen, if_neg hclose]

/-- No segment closes more than one block comment. -/
theorem neg_one_le_weight (segment : Segment) : -1 ≤ segment.weight := by
  unfold weight
  split_ifs <;> decide

theorem trim_of_weight_neg {segment : Segment} (h : segment.weight < 0) :
    Byte.trim segment.bytes = Outline.closing := by
  by_contra hclose
  by_cases hopen : Byte.trim segment.bytes = Outline.opening
  · rw [weight_of_opening hopen] at h
    exact absurd h (by decide)
  · rw [weight_of_other hopen hclose] at h
    exact absurd h (by decide)

end Segment

@[simp] theorem balance_nil : balance [] = 0 := rfl

@[simp] theorem balance_cons (segment : Segment) (segments : List Segment) :
    balance (segment :: segments) = segment.weight + balance segments := rfl

@[simp] theorem balance_append (left right : List Segment) :
    balance (left ++ right) = balance left + balance right := by
  induction left with
  | nil => exact (Int.zero_add _).symm
  | cons segment left ih => rw [List.cons_append, balance_cons, balance_cons, ih, Int.add_assoc]

theorem balance_filter_eq_zero {p : Segment → Bool} {segments : List Segment}
    (h : ∀ segment ∈ segments, p segment = false) : balance (segments.filter p) = 0 := by
  have hnil : segments.filter p = [] := List.filter_eq_nil_iff.mpr fun segment hsegment => by
    rw [h segment hsegment]
    exact Bool.false_ne_true
  rw [hnil, balance_nil]

/-- The segments up to a place are those before it and those at it. -/
theorem balance_filter_lt_succ (segments : List Segment) (n : Nat) :
    balance (segments.filter (·.ink < n + 1))
      = balance (segments.filter (·.ink < n)) + balance (segments.filter (·.ink = n)) := by
  induction segments with
  | nil => rfl
  | cons segment segments ih =>
    rcases Nat.lt_trichotomy segment.ink n with hlt | heq | hgt
    · rw [List.filter_cons_of_pos (by simpa using Nat.lt_succ_of_lt hlt),
        List.filter_cons_of_pos (by simpa using hlt),
        List.filter_cons_of_neg (by simpa using Nat.ne_of_lt hlt), balance_cons, balance_cons, ih]
      omega
    · rw [List.filter_cons_of_pos (by simp [heq]), List.filter_cons_of_neg (by simp [heq]),
        List.filter_cons_of_pos (by simp [heq]), balance_cons, balance_cons, ih]
      omega
    · rw [List.filter_cons_of_neg (by simpa using Nat.succ_le_of_lt hgt),
        List.filter_cons_of_neg (by simpa using Nat.le_of_lt hgt),
        List.filter_cons_of_neg (by simpa using Nat.ne_of_gt hgt), ih]

namespace Cursor

variable {s : Source} {c d : Cursor s} {segments : List Segment}

/-- The segments ahead of a cursor that stands at the start of one. -/
inductive Ahead : Cursor s → List Segment → Prop where
  /-- The document ends with the segment. -/
  | last {c : Cursor s} {line : List UInt8} : c.AtLine line [] → Ahead c [⟨c.pos, line⟩]
  /-- A byte that ends a line follows, and then the others. -/
  | cons {c : Cursor s} {line tail : List UInt8} {b : UInt8} {segments : List Segment} :
    c.AtLine line (b :: tail) → Ahead (c.forward (line.length + 1)) segments →
      Ahead c (⟨c.pos, line⟩ :: segments)

/-- What is ahead of a cursor splits into a segment and what follows it. -/
theorem atLine_takeWhile (hstart : c.precededByBlanks = true) :
    c.AtLine (c.rest.takeWhile fun b => !Byte.isLineEnd b)
      (c.rest.dropWhile fun b => !Byte.isLineEnd b) where
  start := hstart
  rest := List.takeWhile_append_dropWhile.symm
  line := fun b hb => by simpa using List.mem_takeWhile_imp hb
  tail := fun b hb => by simpa using head?_dropWhile_eq_false hb

/-- A place between the ends of a segment. -/
theorem AtLine.exists_forward {line tail : List UInt8} (hc : c.AtLine line tail)
    (hd : c.pos ≤ d.pos) (hle : d.pos ≤ c.pos + line.length) :
    ∃ n ≤ line.length, d = c.forward n := by
  refine ⟨d.pos - c.pos, by omega, Cursor.ext ?_⟩
  rw [hc.pos_forward (by omega)]
  omega

/-- Nothing is behind the last segment. -/
theorem AtLine.pos_le_of_last {line : List UInt8} (hc : c.AtLine line []) :
    d.pos ≤ c.pos + line.length := by
  have hlen := c.length_rest
  rw [hc.rest, List.append_nil] at hlen
  have hle := d.pos_le_size
  omega

theorem ahead_ofPieces : ∀ {n : Nat} {c : Cursor s}, c.rest.length = n → c.precededByBlanks = true →
    c.Ahead (Segment.ofPieces c.pos (c.rest.splitOnP Byte.isLineEnd)) := by
  intro n
  induction n using Nat.strongRecOn with
  | ind n ih =>
    intro c hn hstart
    have hc := atLine_takeWhile hstart
    generalize c.rest.takeWhile (fun b => !Byte.isLineEnd b) = line at hc
    generalize c.rest.dropWhile (fun b => !Byte.isLineEnd b) = tail at hc
    cases tail with
    | nil =>
      rw [hc.rest, List.append_nil, List.splitOnP_eq_singleton hc.line]
      exact .last hc
    | cons b tail =>
      obtain ⟨hrest, hpos, hnext⟩ := hc.next_line
      have hlt : tail.length < n := by
        rw [← hn, hc.rest, List.length_append, List.length_cons]
        omega
      have hahead := ih tail.length hlt (congrArg List.length hrest) hnext
      rw [hrest, hpos] at hahead
      rw [hc.rest, List.splitOnP_append_cons_of_forall_mem hc.line b (hc.tail b rfl)]
      exact .cons hc hahead

theorem ahead_segments (s : Source) : s.cursor.Ahead s.segments :=
  ahead_ofPieces rfl precededByBlanks_cursor

namespace Ahead

theorem pos_le_ink (h : c.Ahead segments) : ∀ segment ∈ segments, c.pos ≤ segment.ink := by
  induction h with
  | last hc =>
    intro segment hsegment
    rw [List.mem_singleton.mp hsegment]
    exact Nat.le_add_right _ _
  | cons hc _ ih =>
    intro segment hsegment
    rcases List.mem_cons.mp hsegment with rfl | hsegment
    · exact Nat.le_add_right _ _
    · have hle := ih segment hsegment
      rw [hc.next_line.2.1] at hle
      omega

/-- The ink of a segment is before that of every later one. -/
theorem lt_ink_of_mem {line : List UInt8} {later : List Segment}
    (h : c.Ahead (⟨c.pos, line⟩ :: later)) :
    ∀ segment ∈ later, c.pos + line.length < segment.ink := by
  intro segment hsegment
  cases h with
  | last _ => cases hsegment
  | cons hc hlater =>
    have hle := hlater.pos_le_ink segment hsegment
    rw [hc.next_line.2.1] at hle
    omega

/-- Every place ahead lies on a segment, or at its end. -/
theorem exists_segment (h : c.Ahead segments) (hd : c.pos ≤ d.pos) :
    ∃ before line tail later, ∃ e : Cursor s, segments = before ++ ⟨e.pos, line⟩ :: later ∧
      e.AtLine line tail ∧ e.Ahead (⟨e.pos, line⟩ :: later) ∧
        ∃ n ≤ line.length, d = e.forward n := by
  induction h with
  | @last c line hc =>
    exact ⟨[], line, [], [], c, rfl, hc, .last hc, hc.exists_forward hd hc.pos_le_of_last⟩
  | @cons c line tail b segments hc hlater ih =>
    rcases Nat.lt_or_ge (c.pos + line.length) d.pos with hlt | hge
    · rw [hc.next_line.2.1] at ih
      obtain ⟨before, line', tail', later, e, hsegments, hrest⟩ := ih (by omega)
      exact ⟨⟨c.pos, line⟩ :: before, line', tail', later, e, by rw [hsegments]; rfl, hrest⟩
    · exact ⟨[], line, b :: tail, segments, c, rfl, hc, .cons hc hlater, hc.exists_forward hd hge⟩

end Ahead

end Cursor

end MatlabEdit
