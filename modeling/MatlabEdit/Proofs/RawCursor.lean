import MatlabEdit.Proofs.Standalone

/-!
# Cursors that are plain words

A machine has no type that keeps a cursor in its document. It has a buffer and three 32-bit words:
where the content starts, where the cursor stands, and where the document ends. Nothing holds
them together, so every use of them can go wrong. An index can be outside the buffer, a range
can be the wrong way round, a sum can be no word, a clamp can be asked for between bounds that
have changed places. And a loop that only a byte of the buffer can stop can run on.

`RawCursor` is that cursor. Each of its operations is partial: it has an answer only where none of
this happens. Here it is shown for reads, moves and looks that on the words of a cursor
(`Cursor.raw`) each of them has an answer, and that it is the one that the cursor gives. What
carries it is the zero behind the document: it is in the buffer, so that a read at the end is one,
and it is no blank, so that no loop goes on there. Of a loop only one round is looked at, for it
ends as the cursor's does if their rounds agree (`fix_eq_of_rounds`,
`RawCursor.fix_eq_skipWhile`).
-/

namespace MatlabEdit

/-- What is done with an answer. -/
theorem bind_of_eq_some {α β : Type} {x : Part α} {a : α} (h : x = .some a) (next : α → Part β) :
    x >>= next = next a := by
  rw [h]
  exact Part.bind_some a next

/-- A loop whose rounds are those of another, seen in another way, ends as that one does. -/
theorem fix_eq_of_rounds {α α' β : Type} {round : α →. β ⊕ α} {round' : α' →. β ⊕ α'}
    {view : α → α'} (hround : ∀ a, round' (view a) = (round a).map (Sum.map id view))
    {a : α} {b : β} (h : round.fix a = .some b) : round'.fix (view a) = .some b := by
  refine PFun.fixInduction' (Part.eq_some_iff.mp h) (fun last hlast => ?_)
    fun a next _ hnext ih => ?_
  · refine fix_eq_of_inl ?_
    rw [hround, Part.eq_some_iff.mpr hlast, Part.map_some]
    rfl
  · refine (fix_eq_of_inr ?_).trans ih
    rw [hround, Part.eq_some_iff.mpr hnext, Part.map_some]
    rfl

/-! ## Words -/

namespace Word

/-- The sum of two words, if it is one. -/
def add (a b : UInt32) : Part UInt32 :=
  if a.toNat + b.toNat < UInt32.size then .some (a + b) else .none

/-- The difference of two words, if it is one. -/
def sub (a b : UInt32) : Part UInt32 := if b ≤ a then .some (a - b) else .none

/-- The number between two bounds that is nearest to `x`, if the bounds are in order. -/
def clamp {α : Type} [LE α] [DecidableLE α] (lo hi x : α) : Part α :=
  if lo ≤ hi then .some (if x ≤ lo then lo else if hi ≤ x then hi else x) else .none

/-- A word as a signed number of twice its length. -/
def signed (a : UInt32) : Int64 := Int64.ofNat a.toNat

/-- The index for a signed number, if there is one. -/
def index? (x : Int64) : Option Nat := if 0 ≤ x.toInt then some x.toInt.toNat else none

/-- The word for a number, if there is one. -/
def ofNat? (n : Nat) : Option UInt32 := if n < UInt32.size then some (UInt32.ofNat n) else none

/-- The word for a signed number, if there is one. -/
def ofSigned? (x : Int64) : Option UInt32 := (index? x).bind ofNat?

theorem add_ofNat {a b : Nat} (h : a + b < UInt32.size) :
    add (UInt32.ofNat a) (UInt32.ofNat b) = .some (UInt32.ofNat (a + b)) := by
  rw [add, UInt32.toNat_ofNat_of_lt' (by omega), UInt32.toNat_ofNat_of_lt' (by omega), if_pos h,
    UInt32.ofNat_add]

theorem sub_ofNat {a b : Nat} (hle : b ≤ a) (h : a < UInt32.size) :
    sub (UInt32.ofNat a) (UInt32.ofNat b) = .some (UInt32.ofNat (a - b)) := by
  have ha := UInt32.toNat_ofNat_of_lt' h
  have hb := UInt32.toNat_ofNat_of_lt' (Nat.lt_of_le_of_lt hle h)
  have hword : UInt32.ofNat b ≤ UInt32.ofNat a := by
    rwa [UInt32.le_iff_toNat_le, ha, hb]
  rw [sub, if_pos hword]
  refine congrArg _ (UInt32.toNat.inj ?_)
  rw [UInt32.toNat_sub_of_le _ _ hword, ha, hb, UInt32.toNat_ofNat_of_lt' (by omega)]

theorem clamp_ofNat {lo hi : Nat} (hle : lo ≤ hi) (hhi : hi < UInt32.size) (x : UInt32) :
    clamp (UInt32.ofNat lo) (UInt32.ofNat hi) x
      = .some (UInt32.ofNat (max lo (min x.toNat hi))) := by
  have hlo' := UInt32.toNat_ofNat_of_lt' (Nat.lt_of_le_of_lt hle hhi)
  have hhi' := UInt32.toNat_ofNat_of_lt' hhi
  unfold clamp
  simp only [UInt32.le_iff_toNat_le, hlo', hhi']
  rw [if_pos hle]
  refine congrArg _ (UInt32.toNat.inj ?_)
  rw [UInt32.toNat_ofNat_of_lt' (by omega)]
  split_ifs
  · rw [hlo']
    omega
  · rw [hhi']
    omega
  · omega

theorem clamp_signed {lo hi : Int64} (hle : lo.toInt ≤ hi.toInt) (x : Int64) :
    ∃ y, clamp lo hi x = .some y ∧ y.toInt = max lo.toInt (min x.toInt hi.toInt) := by
  unfold clamp
  simp only [Int64.le_iff_toInt_le]
  rw [if_pos hle]
  refine ⟨_, rfl, ?_⟩
  split_ifs <;> omega

theorem toInt_signed (a : UInt32) : (signed a).toInt = a.toNat :=
  Int64.toInt_ofNat_of_lt (Nat.lt_trans a.toNat_lt (by decide))

theorem index?_eq_some {x : Int64} {n : Nat} (h : x.toInt = n) : index? x = some n := by
  rw [index?, h, if_pos (Int.natCast_nonneg n), Int.toNat_natCast]

theorem ofNat?_eq_some {n : Nat} (h : n < UInt32.size) : ofNat? n = some (UInt32.ofNat n) :=
  if_pos h

theorem ofSigned?_eq_some {x : Int64} {n : Nat} (h : x.toInt = n) (hn : n < UInt32.size) :
    ofSigned? x = some (UInt32.ofNat n) := by
  rw [ofSigned?, index?_eq_some h, Option.bind_some, ofNat?_eq_some hn]

end Word

/-! ## The operations of a machine -/

/-- A cursor as a machine has it. -/
structure RawCursor where
  buffer : ByteArray
  /-- Where the content starts. -/
  start : UInt32
  pos : UInt32
  /-- Where the document ends. -/
  size : UInt32

namespace RawCursor

/-- Part of a buffer, if it is one. -/
def extract (buffer : ByteArray) (start stop : Nat) : Part ByteArray :=
  if start ≤ stop ∧ stop ≤ buffer.size then .some (buffer.extract start stop) else .none

theorem extract_eq_some {buffer : ByteArray} {i j : Nat} (hij : i ≤ j) (hj : j ≤ buffer.size) :
    extract buffer i j = .some (buffer.extract i j) := if_pos ⟨hij, hj⟩

/-- The byte under the cursor, if that is in the buffer. -/
def current (c : RawCursor) : Part UInt8 := .ofOption c.buffer.data[c.pos.toNat]?

/-- The place `n` bytes away, wherever that is. -/
def reach (c : RawCursor) (n : Int32) : Int64 := Word.signed c.pos + n.toInt64

/-- The byte `n` places away, or the boundary byte where that is outside the content. -/
def peek (c : RawCursor) (n : Int32) : UInt8 :=
  if c.reach n < Word.signed c.start ∨ Word.signed c.size ≤ c.reach n then Byte.boundary
  else ((Word.index? (c.reach n)).bind fun i => c.buffer.data[i]?).getD Byte.boundary

/-- Whether the cursor is past the last byte. -/
def isAtEnd (c : RawCursor) : Bool := c.size ≤ c.pos

/-- The cursor `n` bytes further, with no look at where that is. -/
def skip (c : RawCursor) (n : UInt32) : Part RawCursor := do
  return { c with pos := ← Word.add c.pos n }

/-- The cursor one byte further. At the end it stays. -/
def advance (c : RawCursor) : Part RawCursor := if c.pos < c.size then c.skip 1 else .some c

/-- The cursor `n` bytes further, clamped. -/
def moveBy (c : RawCursor) (n : Int32) : Part RawCursor := do
  let place ← Word.clamp (Word.signed c.start) (Word.signed c.size) (c.reach n)
  return { c with pos := (Word.ofSigned? place).getD c.size }

/-- The cursor at offset `i`, clamped. -/
def moveTo (c : RawCursor) (i : UInt32) : Part RawCursor := do
  return { c with pos := ← Word.clamp c.start c.size i }

/-- The text of a range of bytes, clamped. -/
def slice (c : RawCursor) (start stop : UInt32) : Part String := do
  let stop := min stop.toNat c.size.toNat
  let bytes ← extract c.buffer (min start.toNat stop) stop
  return (String.fromUTF8? bytes).getD ""

/-- The cursor at the next break, or at the end. -/
def toBreak (c : RawCursor) : Part RawCursor := do
  let ahead ← extract c.buffer c.pos.toNat c.size.toNat
  match ahead.data.toList.findIdx? Byte.isBreak with
  | some n => c.skip (UInt32.ofNat n)
  | none => return { c with pos := c.size }

/-- One round of `skipBlankLines`. -/
def passBlankLine (c : RawCursor) : Part (RawCursor ⊕ RawCursor) := do
  if c.isAtEnd then return .inl c
  let b ← c.current
  if Byte.isBlank b || Byte.isBreak b then return .inr (← c.skip 1)
  return .inl c

/-- The cursor behind the blanks and breaks that start at it. -/
def skipBlankLines (c : RawCursor) : Part RawCursor := PFun.fix passBlankLine c

/-- One round of `skipBlanks`. Only a byte that is no blank is the last. -/
def passBlank (c : RawCursor) : Part (RawCursor ⊕ RawCursor) := do
  if Byte.isBlank (← c.current) then return .inr (← c.advance)
  return .inl c

/-- The cursor behind the blanks that start at it. -/
def skipBlanks (c : RawCursor) : Part RawCursor := PFun.fix passBlank c

/-- One round of `skipCode`. -/
def passCode (c : RawCursor) : Part (RawCursor ⊕ RawCursor) := do
  let b ← c.current
  if c.isAtEnd || b == Byte.percent || Byte.isLineEnd b then return .inl c
  return .inr (← c.advance)

/-- The cursor at the next comment sign or line end, or at the end. -/
def skipCode (c : RawCursor) : Part RawCursor := PFun.fix passCode c

/-- One round of `precededByBlanks`. -/
def lookBehind (c : RawCursor) : Part (Bool ⊕ RawCursor) := do
  if Byte.isLineEnd (c.peek (-1)) then return .inl true
  if !Byte.isBlank (c.peek (-1)) then return .inl false
  return .inr (← c.moveBy (-1))

/-- Whether nothing but blanks stands between the start of the line and the cursor. -/
def precededByBlanks (c : RawCursor) : Part Bool := PFun.fix lookBehind c

/-- One round of `followedByBlanks`. -/
def lookAhead (c : RawCursor) : Part (Bool ⊕ RawCursor) := do
  if Byte.isLineEnd (c.peek 0) then return .inl true
  if !Byte.isBlank (c.peek 0) then return .inl false
  return .inr (← c.advance)

/-- Whether nothing but blanks stands between the cursor and the end of the line. -/
def followedByBlanks (c : RawCursor) : Part Bool := PFun.fix lookAhead c

/-- Whether a delimiter with this brace stands at the cursor, alone on its line. -/
def isDelimiter (brace : UInt8) (c : RawCursor) : Part Bool := do
  if c.peek 0 != Byte.percent || c.peek 1 != brace then return false
  if !(← c.precededByBlanks) then return false
  (← c.moveBy 2).followedByBlanks

end RawCursor

variable {s : Source}

/-- The words of a cursor. -/
def Cursor.raw (c : Cursor s) : RawCursor :=
  ⟨s.buffer, UInt32.ofNat s.contentStart, UInt32.ofNat c.pos, UInt32.ofNat s.size⟩

/-! ## They agree with those of a cursor -/

namespace RawCursor

variable {c d : Cursor s} (hs : s.size < UInt32.size)
include hs

theorem toNat_start : c.raw.start.toNat = s.contentStart :=
  UInt32.toNat_ofNat_of_lt' (Nat.lt_of_le_of_lt s.contentStart_le hs)

theorem toNat_pos : c.raw.pos.toNat = c.pos :=
  UInt32.toNat_ofNat_of_lt' (Nat.lt_of_le_of_lt c.pos_le_size hs)

theorem toNat_size : c.raw.size.toNat = s.size := UInt32.toNat_ofNat_of_lt' hs

theorem pos_lt_size_iff : c.raw.pos < c.raw.size ↔ c.pos < s.size := by
  rw [UInt32.lt_iff_toNat_lt, toNat_pos hs, toNat_size hs]

theorem isAtEnd_raw : c.raw.isAtEnd = c.isAtEnd := by
  rw [Bool.eq_iff_iff, Cursor.isAtEnd_iff, isAtEnd, decide_eq_true_iff, UInt32.le_iff_toNat_le,
    toNat_pos hs, toNat_size hs]
  have := c.pos_le_size
  omega

/-! ### Reads -/

/-- The zero behind the document is in the buffer. -/
theorem current_raw : c.raw.current = .some c.current := by
  rw [current, toNat_pos hs]
  exact congrArg Part.ofOption
    (Array.getElem?_eq_getElem (Nat.lt_of_le_of_lt c.pos_le_size s.size_lt))

/-- A word and a signed word add up within twice their length. -/
theorem toInt_reach (n : Int32) : (c.raw.reach n).toInt = c.pos + n.toInt := by
  have hlo := n.le_toInt
  have hhi := n.toInt_lt
  have hpos := c.pos_le_size
  have hsize : UInt32.size = 2 ^ 32 := rfl
  rw [reach, Int64.toInt_add, Word.toInt_signed, toNat_pos hs, Int32.toInt_toInt64]
  exact Int.bmod_eq_of_le (by omega) (by omega)

theorem peek_raw (n : Int32) : c.raw.peek n = c.peek n.toInt := by
  have hreach := toInt_reach (c := c) hs n
  unfold peek Cursor.peek
  simp only [Int64.lt_iff_toInt_lt, Int64.le_iff_toInt_le, Word.toInt_signed, toNat_start hs,
    toNat_size hs, hreach]
  cases hplace : (c.pos : Int) + n.toInt with
  | ofNat i =>
    rw [hplace, Int.ofNat_eq_natCast] at hreach
    rw [Int.ofNat_eq_natCast]
    dsimp only
    split_ifs with hout
    · rcases hout with hlo | hhi
      · exact (Source.byteAt_of_lt_contentStart (Int.ofNat_lt.mp hlo)).symm
      · exact (Source.byteAt_of_size_le (Int.ofNat_le.mp hhi)).symm
    · have hin : s.contentStart ≤ i ∧ i < s.size := by omega
      have hbuf : i < s.buffer.data.size := Nat.lt_trans hin.2 s.size_lt
      rw [Word.index?_eq_some hreach, Option.bind_some, Source.byteAt_of_lt hin.1 hin.2]
      show (s.buffer.data[i]?).getD _ = _
      rw [Array.getElem?_eq_getElem hbuf]
      rfl
  | negSucc i =>
    have hneg := Int.negSucc_lt_zero i
    exact if_pos (.inl (by omega))

theorem peek_zero_raw : c.raw.peek 0 = c.peek 0 := peek_raw hs 0

theorem peek_one_raw : c.raw.peek 1 = c.peek 1 := peek_raw hs 1

/-! ### Moves -/

theorem skip_raw {n : Nat} (hd : d.pos = c.pos + n) :
    c.raw.skip (UInt32.ofNat n) = .some d.raw := by
  have hle := d.pos_le_size
  have hadd := Word.add_ofNat (a := c.pos) (b := n) (by omega)
  rw [← hd] at hadd
  have hpos : c.raw.pos = UInt32.ofNat c.pos := rfl
  rw [skip, hpos, bind_of_eq_some hadd]
  rfl

theorem advance_raw : c.raw.advance = .some c.advance.raw := by
  unfold advance Cursor.advance
  split_ifs with h h' h'
  · exact skip_raw hs (d := c.next h') (n := 1) rfl
  · exact absurd ((pos_lt_size_iff hs).mp h) h'
  · exact absurd ((pos_lt_size_iff hs).mpr h') h
  · rfl

theorem moveTo_raw (i : UInt32) : c.raw.moveTo i = .some (c.moveTo i.toNat).raw := by
  have hclamp : Word.clamp c.raw.start c.raw.size i = _ := Word.clamp_ofNat s.contentStart_le hs i
  rw [moveTo, bind_of_eq_some hclamp]
  rfl

theorem moveBy_raw (n : Int32) : c.raw.moveBy n = .some (c.moveBy n.toInt).raw := by
  have hstart := s.contentStart_le
  have hbounds : (Word.signed c.raw.start).toInt ≤ (Word.signed c.raw.size).toInt := by
    rw [Word.toInt_signed, Word.toInt_signed, toNat_start hs, toNat_size hs]
    omega
  obtain ⟨place, hclamp, hplace⟩ := Word.clamp_signed hbounds (c.raw.reach n)
  rw [Word.toInt_signed, Word.toInt_signed, toNat_start hs, toNat_size hs, toInt_reach hs] at hplace
  have hpos : place.toInt = (c.moveBy n.toInt).pos := by
    rw [hplace, Cursor.moveBy, Cursor.pos_moveTo]
    omega
  have hlt := Nat.lt_of_le_of_lt (c.moveBy n.toInt).pos_le_size hs
  unfold moveBy
  rw [bind_of_eq_some hclamp, Word.ofSigned?_eq_some hpos hlt]
  rfl

theorem moveBy_two_raw : c.raw.moveBy 2 = .some (c.moveBy 2).raw := moveBy_raw hs 2

omit hs in
theorem extract_raw {i j : Nat} (hij : i ≤ j) (hj : j ≤ s.size) :
    extract s.buffer i j = .some (s.buffer.extract i j) :=
  extract_eq_some hij (Nat.le_of_lt (Nat.lt_of_le_of_lt hj s.size_lt))

theorem slice_raw (start stop : UInt32) :
    c.raw.slice start stop = .some (s.slice start.toNat stop.toNat) := by
  unfold slice
  dsimp only
  rw [toNat_size hs]
  have hextract := extract_raw (Nat.min_le_right start.toNat (min stop.toNat s.size))
    (Nat.min_le_right stop.toNat s.size)
  have hbuffer : c.raw.buffer = s.buffer := rfl
  rw [hbuffer, bind_of_eq_some hextract]
  rfl

/-! ### Runs of bytes -/

theorem skip_one_raw (h : c.pos < s.size) : c.raw.skip 1 = .some (c.next h).raw :=
  skip_raw hs (Cursor.pos_next c h)

/-- To look for a break is to pass what is none. -/
theorem toBreak_raw : c.raw.toBreak = .some c.toBreak.raw := by
  have hahead : extract c.raw.buffer c.raw.pos.toNat c.raw.size.toNat
      = .some (s.buffer.extract c.pos s.size) := by
    rw [toNat_pos hs, toNat_size hs]
    exact extract_raw c.pos_le_size (Nat.le_refl _)
  have hrest : (s.buffer.extract c.pos s.size).data.toList = c.rest := by
    show _ = (s.buffer.extract 0 s.size).data.toList.drop c.pos
    simp [List.drop_take]
  unfold toBreak
  rw [bind_of_eq_some hahead, hrest]
  cases hfind : c.rest.findIdx? Byte.isBreak with
  | some n =>
    obtain ⟨hn, hbreak, hbefore⟩ := List.findIdx?_eq_some_iff_getElem.mp hfind
    have hstop : c.toBreak = c.forward n := by
      have hskip := Cursor.skipWhile_eq_forward (p := fun b => !Byte.isBreak b)
        (List.take_append_drop n c.rest).symm
        (fun b hb => by
          obtain ⟨i, hi, rfl⟩ := List.mem_take_iff_getElem.mp hb
          simpa using hbefore i (by omega))
        (fun b hb => by
          rw [List.head?_drop, List.getElem?_eq_getElem hn] at hb
          rw [← Option.some.inj hb, hbreak]
          rfl)
      rwa [List.length_take_of_le (Nat.le_of_lt hn)] at hskip
    rw [hstop]
    exact skip_raw hs (Cursor.pos_forward_of_le (Nat.le_of_lt hn))
  | none =>
    have hnone := List.findIdx?_eq_none_iff.mp hfind
    have hstop : c.toBreak.pos = s.size := by
      have hskip := Cursor.skipWhile_eq_forward (p := fun b => !Byte.isBreak b)
        (List.append_nil c.rest).symm (fun b hb => by rw [hnone b hb]; rfl)
        (fun b hb => by cases hb)
      rw [Cursor.toBreak, hskip]
      exact Cursor.isAtEnd_iff.mp (Cursor.isAtEnd_forward_of_le (Nat.le_refl _))
    rw [Cursor.raw, Cursor.raw, hstop]
    rfl

omit hs in
theorem isAtEnd_of_not_lt (h : ¬ c.pos < s.size) : c.isAtEnd = true :=
  Cursor.isAtEnd_iff.mpr (Nat.le_antisymm c.pos_le_size (Nat.not_lt.mp h))

omit hs in
/-- A loop that goes on by one byte for as long as `p` holds of it skips what `p` holds of. -/
theorem fix_eq_skipWhile {p : UInt8 → Bool} {round : RawCursor →. RawCursor ⊕ RawCursor}
    (hround : ∀ c : Cursor s, round c.raw
      = .some (if !c.isAtEnd && p c.current then .inr c.advance.raw else .inl c.raw))
    (c : Cursor s) : round.fix c.raw = .some (c.skipWhile p).raw := by
  fun_induction Cursor.skipWhile p c with
  | case1 c h hp ih =>
    refine (fix_eq_of_inr ?_).trans ih
    rw [hround, Cursor.isAtEnd_eq_false_iff.mpr h, hp, Cursor.advance_of_lt h]
    rfl
  | case2 c h hp =>
    refine fix_eq_of_inl ?_
    rw [hround, Bool.eq_false_iff.mpr hp, Bool.and_false]
    rfl
  | case3 c h =>
    refine fix_eq_of_inl ?_
    rw [hround, isAtEnd_of_not_lt h]
    rfl

theorem skipBlankLines_raw : c.raw.skipBlankLines = .some c.skipBlankLines.raw := by
  refine fix_eq_skipWhile (fun c => ?_) c
  rw [passBlankLine, isAtEnd_raw hs, bind_of_eq_some (current_raw hs)]
  cases hend : c.isAtEnd with
  | true => rfl
  | false =>
    cases Byte.isBlank c.current || Byte.isBreak c.current with
    | true =>
      have hlt := Cursor.isAtEnd_eq_false_iff.mp hend
      rw [Cursor.advance_of_lt hlt]
      exact bind_of_eq_some (skip_one_raw hs hlt) _
    | false => rfl

/-- At the end stands the zero, and it is no blank. -/
theorem skipBlanks_raw : c.raw.skipBlanks = .some c.skipBlanks.raw := by
  refine fix_eq_skipWhile (fun c => ?_) c
  rw [passBlank, bind_of_eq_some (current_raw hs)]
  cases hend : c.isAtEnd with
  | true =>
    rw [Cursor.current_of_isAtEnd hend, Byte.isBlank_boundary]
    rfl
  | false =>
    cases Byte.isBlank c.current with
    | true => exact bind_of_eq_some (advance_raw hs) _
    | false => rfl

/-- Code goes on up to a byte that is not passed, or to the end. -/
theorem skipCode_raw :
    c.raw.skipCode
      = .some (c.skipWhile fun b => !(b == Byte.percent || Byte.isLineEnd b)).raw := by
  refine fix_eq_skipWhile (fun c => ?_) c
  rw [passCode, bind_of_eq_some (current_raw hs), isAtEnd_raw hs, Bool.or_assoc, ← Bool.not_or]
  cases c.isAtEnd || (c.current == Byte.percent || Byte.isLineEnd c.current) with
  | true => rfl
  | false => exact bind_of_eq_some (advance_raw hs) _

/-! ### Looks -/

theorem precededByBlanks_raw (c : Cursor s) :
    c.raw.precededByBlanks = .some c.precededByBlanks := by
  refine fix_eq_of_rounds (fun c => ?_) c.lookBack_eq_some
  have hpeek : c.raw.peek (-1) = c.peek (-1) := peek_raw hs (-1)
  have hmove : c.raw.moveBy (-1) = .some (c.moveBy (-1)).raw := moveBy_raw hs (-1)
  rw [Part.map_some, lookBehind, hpeek]
  cases Byte.isLineEnd (c.peek (-1)) with
  | true => rfl
  | false =>
    cases Byte.isBlank (c.peek (-1)) with
    | true => exact bind_of_eq_some hmove _
    | false => rfl

theorem followedByBlanks_raw (c : Cursor s) :
    c.raw.followedByBlanks = .some c.followedByBlanks := by
  refine fix_eq_of_rounds (fun c => ?_) c.lookAhead_eq_some
  rw [Part.map_some, lookAhead, peek_zero_raw hs]
  cases Byte.isLineEnd (c.peek 0) with
  | true => rfl
  | false =>
    cases Byte.isBlank (c.peek 0) with
    | true => exact bind_of_eq_some (advance_raw hs) _
    | false => rfl

theorem isDelimiter_raw (brace : UInt8) :
    c.raw.isDelimiter brace = .some (c.isDelimiter brace) := by
  rw [isDelimiter, peek_zero_raw hs, peek_one_raw hs, Cursor.isDelimiter]
  by_cases hread : (c.peek 0 != Byte.percent || c.peek 1 != brace) = true
  · have hnone : (c.peek 0 == Byte.percent && c.peek 1 == brace) = false := by
      simpa [bne, ← Bool.not_and] using hread
    rw [if_pos hread, hnone]
    rfl
  · have hboth : (c.peek 0 == Byte.percent && c.peek 1 == brace) = true := by
      simpa [bne, ← Bool.not_and] using hread
    rw [if_neg hread, hboth, bind_of_eq_some (precededByBlanks_raw hs c)]
    cases hback : c.precededByBlanks with
    | false => rfl
    | true =>
      rw [if_neg (by decide), bind_of_eq_some (moveBy_two_raw hs), followedByBlanks_raw hs]
      rfl

theorem opensBlock_raw : c.raw.isDelimiter Byte.openBrace = .some c.opensBlock :=
  isDelimiter_raw hs _

theorem closesBlock_raw : c.raw.isDelimiter Byte.closeBrace = .some c.closesBlock :=
  isDelimiter_raw hs _

end RawCursor

end MatlabEdit
