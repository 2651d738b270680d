import MatlabEdit.Proofs.RawScanner

/-!
# What a host can reach

A host has the words of a cursor and does with them what it likes. It moves by numbers of its own,
asks for comments and for spans, keeps copies and goes back to them. Nothing checks where that
leads, and every read takes for granted that it has led to a place in the document, with the
buffer going on behind it.

It has (`host_cursors_safe`). The buffer is laid out with a zero behind the document, and the
first cursor stands where the content starts; a host that only asks for spans finds all of them
from there (`tokenizeRaw_eq`). A step leads from the words of a cursor to the words of a cursor
(`perform_raw`), whatever the numbers are, and so does a run of them (`RawHost.run_inDocument`). At
the words of a cursor every read is within the buffer, and the zero ends every loop that has no
other end (`safe_raw`).
-/

namespace MatlabEdit

/-! ## The buffer -/

namespace Word

/-- How many bytes come in a block. -/
def block : UInt64 := UInt64.ofNat Source.blockSize

/-- The next multiple of a block above a number, by its bits. -/
def roundUp (n : UInt64) : UInt64 := (n + 1 + block - 1) &&& ~~~(block - 1)

/-- To clear the bits below a block is to round down. -/
theorem toNat_and_not_block (x : UInt64) : (x &&& ~~~(block - 1)).toNat = x.toNat / 64 * 64 := by
  have hclear : x.toBitVec &&& ~~~63#64 = (x.toBitVec >>> 6) <<< 6 := by
    have hmask : ∀ i < 64, (63#64).getLsbD i = decide (i < 6) := by decide
    refine BitVec.eq_of_getLsbD_eq fun i hi => ?_
    rw [BitVec.getLsbD_and, BitVec.getLsbD_not, hmask i hi, BitVec.getLsbD_shiftLeft,
      BitVec.getLsbD_ushiftRight]
    by_cases hlow : i < 6
    · simp [hlow]
    · simp [hlow, hi, Nat.add_sub_cancel' (Nat.not_lt.mp hlow)]
  have hlt := x.toNat_lt
  show (x.toBitVec &&& ~~~63#64).toNat = _
  rw [hclear, BitVec.toNat_shiftLeft, BitVec.toNat_ushiftRight, Nat.shiftLeft_eq,
    Nat.shiftRight_eq_div_pow, UInt64.toNat_toBitVec]
  omega

theorem toNat_roundUp {n : Nat} (h : n < UInt32.size) :
    (roundUp (UInt64.ofNat n)).toNat = Source.paddedSize n := by
  have hsize : UInt32.size = 2 ^ 32 := rfl
  have hblock : block.toNat = 64 := rfl
  have hone : (1 : UInt64).toNat = 1 := rfl
  have hn : (UInt64.ofNat n).toNat = n := UInt64.toNat_ofNat_of_lt' (Nat.lt_trans h (by decide))
  have hsum : (UInt64.ofNat n + 1 + block).toNat = n + 65 := by
    rw [UInt64.toNat_add, UInt64.toNat_add, hn, hone, hblock]
    omega
  have hle : (1 : UInt64) ≤ UInt64.ofNat n + 1 + block := by
    rw [UInt64.le_iff_toNat_le, hsum, hone]
    omega
  rw [roundUp, toNat_and_not_block, UInt64.toNat_sub_of_le _ _ hle, hsum, hone, Source.paddedSize,
    Source.blockSize]
  omega

end Word

namespace RawCursor

open Source (keptSize kept)

/-- The cursor at the start of a document, behind a mark, if the buffer goes on behind it. -/
def atStart (buffer : ByteArray) (mark size : UInt32) : Part RawCursor :=
  if size.toNat < buffer.size then .some ⟨buffer, min mark size, min mark size, size⟩ else .none

/-- The cursor at the start of a document. The buffer is made of zeros, and what is kept of the
document is written over the first of them. -/
def ofBytes (bytes : ByteArray) : Part RawCursor := do
  let size := keptSize bytes.size
  let room := (Word.roundUp (UInt64.ofNat size)).toNat
  let front ← extract bytes 0 size
  let behind ← extract (List.replicate room 0).toByteArray size room
  atStart (front ++ behind) (UInt32.ofNat (markLength front))
    ((Word.ofNat? size).getD (UInt32.ofNat (UInt32.size - 1)))

/-- What is not written over is the padding. -/
theorem extract_zeros (bytes : ByteArray) :
    (List.replicate (Source.paddedSize bytes.size) 0).toByteArray.extract bytes.size
      (Source.paddedSize bytes.size) = Source.padding bytes := by
  refine ByteArray.ext ?_
  rw [ByteArray.data_extract, List.data_toByteArray, Source.padding, List.data_toByteArray,
    List.toArray_replicate, List.toArray_replicate, Array.extract_replicate, Nat.min_self]

theorem atStart_eq (s : Source) (hs : s.size < UInt32.size) :
    atStart s.buffer (UInt32.ofNat s.contentStart) (UInt32.ofNat s.size) = .some s.cursor.raw := by
  have hsize := UInt32.toNat_ofNat_of_lt' hs
  have hbuffer : (UInt32.ofNat s.size).toNat < s.buffer.size := by
    rw [hsize]
    exact s.size_lt
  have hstart : min (UInt32.ofNat s.contentStart) (UInt32.ofNat s.size)
      = UInt32.ofNat s.contentStart := by
    refine if_pos ?_
    rw [UInt32.le_iff_toNat_le, hsize,
      UInt32.toNat_ofNat_of_lt' (Nat.lt_of_le_of_lt s.contentStart_le hs)]
    exact s.contentStart_le
  rw [atStart, if_pos hbuffer, hstart]
  rfl

theorem atStart_ofBytes (bytes : ByteArray) (hs : bytes.size < UInt32.size) :
    atStart (bytes ++ Source.padding bytes) (UInt32.ofNat (markLength bytes))
        (UInt32.ofNat bytes.size)
      = .some (Source.ofBytes bytes).cursor.raw := atStart_eq (Source.ofBytes bytes) hs

theorem ofBytes_eq (bytes : ByteArray) :
    ofBytes bytes = .some (Source.ofBytes (kept bytes)).cursor.raw := by
  have hlt := Source.keptSize_lt bytes.size
  have hpadded := Source.lt_paddedSize (keptSize bytes.size)
  have hfront : extract bytes 0 (keptSize bytes.size) = .some (kept bytes) :=
    extract_eq_some (Nat.zero_le _) (Source.keptSize_le _)
  have hbehind := extract_zeros (kept bytes)
  rw [Source.size_kept] at hbehind
  have hroom :
      (List.replicate (Source.paddedSize (keptSize bytes.size)) (0 : UInt8)).toByteArray.size
        = Source.paddedSize (keptSize bytes.size) := by
    rw [List.size_toByteArray, List.length_replicate]
  have hzeros : extract (List.replicate (Source.paddedSize (keptSize bytes.size)) 0).toByteArray
      (keptSize bytes.size) (Source.paddedSize (keptSize bytes.size))
        = .some (Source.padding (kept bytes)) := by
    rw [extract_eq_some (Nat.le_of_lt hpadded) hroom.ge, hbehind]
  rw [ofBytes, Word.toNat_roundUp hlt, bind_of_eq_some hfront, bind_of_eq_some hzeros,
    Word.ofNat?_eq_some hlt, Option.getD_some]
  rw [← Source.size_kept] at hlt ⊢
  exact atStart_ofBytes (kept bytes) hlt

/-- How the cursor of a machine stands at the start of some bytes. -/
structure LaidOut (bytes : ByteArray) (c : RawCursor) : Prop where
  size_eq : c.size.toNat = bytes.size
  /-- A mark is no part of the content. -/
  start_eq : c.start.toNat = markLength bytes
  pos_eq : c.pos = c.start
  /-- Behind the bytes are zeros. -/
  buffer_eq : c.buffer.data.toList
    = bytes.data.toList ++ List.replicate (c.buffer.size - bytes.size) 0
  /-- There is at least one of them, and there are no more than fill a block. -/
  size_lt : bytes.size < c.buffer.size
  dvd_size : 64 ∣ c.buffer.size
  size_le : ∀ n, bytes.size < n → 64 ∣ n → c.buffer.size ≤ n

theorem laidOut (bytes : ByteArray) (hs : bytes.size < UInt32.size) :
    (Source.ofBytes bytes).cursor.raw.LaidOut bytes := by
  have hsize : (Source.ofBytes bytes).cursor.raw.buffer.size = Source.paddedSize bytes.size :=
    Source.size_padded bytes
  refine ⟨toNat_size (s := Source.ofBytes bytes) hs, toNat_start (s := Source.ofBytes bytes) hs,
    rfl, ?_, ?_, ?_, ?_⟩
  · rw [hsize]
    show (bytes ++ Source.padding bytes).data.toList = _
    rw [ByteArray.data_append, Array.toList_append, Source.padding, List.data_toByteArray]
  · rw [hsize]
    exact Source.lt_paddedSize _
  · rw [hsize]
    exact Source.blockSize_dvd_paddedSize _
  · intro n
    rw [hsize]
    exact Source.paddedSize_le

end RawCursor

/-- The spans of a text, as a machine finds them. -/
def tokenizeRaw (text : String) : Part (List RawSpan) := do
  RawScanner.run ⟨← RawCursor.ofBytes text.toUTF8, .preamble⟩

/-- **A machine finds spans in every text**, and they are those of what it keeps of it. -/
theorem tokenizeRaw_eq (text : String) :
    tokenizeRaw text = .some ((tokenizeKept text).map Span.raw) := by
  have hs := Source.size_kept_lt text.toUTF8
  rw [tokenizeRaw, bind_of_eq_some (RawCursor.ofBytes_eq text.toUTF8), tokenizeKept]
  generalize Source.kept text.toUTF8 = bytes at hs ⊢
  exact RawScanner.run_raw (s := Source.ofBytes bytes) hs (Source.ofBytes bytes).scanner

/-! ## Steps -/

/-- What a host can do to its cursor. The numbers are its own. -/
inductive CursorMove where
  | advance
  | moveBy (n : Int32)
  | moveTo (i : UInt32)
  | skipBlankLines
  | toBreak
  /-- Ask whether a comment stands right here. -/
  | comment (phase : Phase)
  /-- Ask for the next span. -/
  | next (phase : Phase)

/-- Where a move leads. -/
def Cursor.perform {s : Source} (c : Cursor s) : CursorMove → Cursor s
  | .advance => c.advance
  | .moveBy n => c.moveBy n.toInt
  | .moveTo i => c.moveTo i.toNat
  | .skipBlankLines => c.skipBlankLines
  | .toBreak => c.toBreak
  | .comment phase => (Scanner.mk c phase).comment?.2.cursor
  | .next phase => (Scanner.mk c phase).next?.2.cursor

/-- Where a move leads, if it leads anywhere. -/
def RawCursor.perform (c : RawCursor) : CursorMove → Part RawCursor
  | .advance => c.advance
  | .moveBy n => c.moveBy n
  | .moveTo i => c.moveTo i
  | .skipBlankLines => c.skipBlankLines
  | .toBreak => c.toBreak
  | .comment phase => do return (← RawScanner.comment? ⟨c, phase⟩).2.cursor
  | .next phase => do return (← RawScanner.next? ⟨c, phase⟩).2.cursor

/-- A host's cursor, and the copies that it has kept. -/
structure RawHost where
  cursor : RawCursor
  saved : List RawCursor

/-- What a host can do. -/
inductive HostAct where
  | move (m : CursorMove)
  | save
  /-- Go back to a copy. The last one is the first. -/
  | restore (i : Nat)

namespace RawHost

/-- All cursors of a host. -/
def cursors (host : RawHost) : List RawCursor := host.cursor :: host.saved

/-- What a step makes of a host. Without the copy to go back to, it stays. -/
def step (host : RawHost) : HostAct → Part RawHost
  | .move m => do return { host with cursor := ← host.cursor.perform m }
  | .save => return { host with saved := host.cursor :: host.saved }
  | .restore i => return { host with cursor := host.saved[i]?.getD host.cursor }

/-- All cursors have the words of one in the document. -/
def InDocument (s : Source) (host : RawHost) : Prop := ∀ c ∈ host.cursors, ∃ d : Cursor s, c = d.raw

end RawHost

section Reached

variable {s : Source} (hs : s.size < UInt32.size)
include hs

theorem RawCursor.perform_raw (c : Cursor s) (m : CursorMove) :
    c.raw.perform m = .some (c.perform m).raw := by
  cases m with
  | advance => exact advance_raw hs
  | moveBy n => exact moveBy_raw hs n
  | moveTo i => exact moveTo_raw hs i
  | skipBlankLines => exact skipBlankLines_raw hs
  | toBreak => exact toBreak_raw hs
  | comment phase =>
    have hcomment : RawScanner.comment? ⟨c.raw, phase⟩ = _ :=
      RawScanner.comment?_raw hs (t := ⟨c, phase⟩)
    rw [perform, bind_of_eq_some hcomment]
    rfl
  | next phase =>
    have hnext : RawScanner.next? ⟨c.raw, phase⟩ = _ := RawScanner.next?_raw hs (t := ⟨c, phase⟩)
    rw [perform, bind_of_eq_some hnext]
    rfl

namespace RawHost

variable {host : RawHost}

/-- A step has somewhere to lead, and that is in the document. -/
theorem step_inDocument (h : host.InDocument s) (st : HostAct) :
    ∃ host', host.step st = .some host' ∧ host'.InDocument s := by
  obtain ⟨c, hc⟩ := h host.cursor List.mem_cons_self
  have hsaved : ∀ c ∈ host.saved, ∃ d : Cursor s, c = d.raw :=
    fun c hc => h c (List.mem_cons_of_mem _ hc)
  cases st with
  | move m =>
    refine ⟨⟨(c.perform m).raw, host.saved⟩, ?_, List.forall_mem_cons.mpr ⟨⟨_, rfl⟩, hsaved⟩⟩
    rw [step, hc, bind_of_eq_some (RawCursor.perform_raw hs c m)]
    rfl
  | save => exact ⟨_, rfl, List.forall_mem_cons.mpr ⟨⟨c, hc⟩, h⟩⟩
  | restore i =>
    refine ⟨_, rfl, List.forall_mem_cons.mpr ⟨?_, hsaved⟩⟩
    cases hcopy : host.saved[i]? with
    | some d => exact hsaved d (List.mem_of_getElem? hcopy)
    | none => exact ⟨c, hc⟩

/-- **So has a run of steps**, by induction on the steps. -/
theorem run_inDocument (steps : List HostAct) : ∀ {host : RawHost}, host.InDocument s →
    ∃ host', steps.foldlM step host = .some host' ∧ host'.InDocument s := by
  induction steps with
  | nil => exact fun h => ⟨_, rfl, h⟩
  | cons st rest ih =>
    intro host h
    obtain ⟨host', hstep, h'⟩ := step_inDocument hs h st
    obtain ⟨last, hrun, hlast⟩ := ih h'
    refine ⟨last, ?_, hlast⟩
    rw [List.foldlM_cons, bind_of_eq_some hstep, hrun]

end RawHost

end Reached

/-! ## Reads -/

/-- The cursor at another place of its document. -/
def RawCursor.setPos (c : RawCursor) (pos : UInt32) : RawCursor := { c with pos := pos }

/-- What a machine takes for granted at a cursor. -/
structure RawCursor.Safe (c : RawCursor) : Prop where
  start_le_pos : c.start ≤ c.pos
  pos_le_size : c.pos ≤ c.size
  /-- The buffer goes on behind the document. -/
  size_lt : c.size.toNat < c.buffer.size
  /-- A read of the buffer is a read of the content. -/
  current_eq : c.current = .some (c.peek 0)
  slice : ∀ i j, (c.slice i j).Dom
  toBreak : c.toBreak.Dom
  /-- The loops come to an end. -/
  skipBlanks : c.skipBlanks.Dom
  precededByBlanks : c.precededByBlanks.Dom
  followedByBlanks : c.followedByBlanks.Dom

variable {s : Source}

theorem RawCursor.safe_raw (hs : s.size < UInt32.size) (c : Cursor s) : c.raw.Safe where
  start_le_pos := by
    rw [UInt32.le_iff_toNat_le, toNat_start hs, toNat_pos hs]
    exact c.contentStart_le_pos
  pos_le_size := by
    rw [UInt32.le_iff_toNat_le, toNat_pos hs, toNat_size hs]
    exact c.pos_le_size
  size_lt := by
    rw [toNat_size hs]
    exact s.size_lt
  current_eq := by
    rw [current_raw hs, peek_zero_raw hs, Cursor.peek_zero]
  slice i j := by
    rw [slice_raw hs]
    trivial
  toBreak := by
    rw [toBreak_raw hs]
    trivial
  skipBlanks := by
    rw [skipBlanks_raw hs]
    trivial
  precededByBlanks := by
    rw [precededByBlanks_raw hs]
    trivial
  followedByBlanks := by
    rw [followedByBlanks_raw hs]
    trivial

/-- Every place of the content is that of a cursor. -/
theorem RawCursor.safe_of_mem (hs : s.size < UInt32.size) {pos : UInt32}
    (hstart : s.cursor.raw.start ≤ pos) (hpos : pos ≤ s.cursor.raw.size) :
    (s.cursor.raw.setPos pos).Safe := by
  rw [UInt32.le_iff_toNat_le, toNat_start hs] at hstart
  rw [UInt32.le_iff_toNat_le, toNat_size hs] at hpos
  have hplace : s.cursor.raw.setPos pos = (⟨pos.toNat, hstart, hpos⟩ : Cursor s).raw := by
    show _ = RawCursor.mk _ _ (UInt32.ofNat pos.toNat) _
    rw [UInt32.ofNat_toNat]
    rfl
  rw [hplace]
  exact safe_raw hs _

theorem RawHost.run_safe (hs : s.size < UInt32.size) (steps : List HostAct) :
    ∃ host, steps.foldlM step ⟨s.cursor.raw, []⟩ = .some host ∧
      ∀ c ∈ host.cursors, c = s.cursor.raw.setPos c.pos ∧ c.Safe := by
  have hfirst : InDocument s ⟨s.cursor.raw, []⟩ :=
    List.forall_mem_cons.mpr ⟨⟨_, rfl⟩, fun c hc => absurd hc List.not_mem_nil⟩
  obtain ⟨host, hrun, hhost⟩ := run_inDocument hs steps hfirst
  refine ⟨host, hrun, fun c hc => ?_⟩
  obtain ⟨d, rfl⟩ := hhost c hc
  exact ⟨rfl, RawCursor.safe_raw hs d⟩

/-- **Whatever a host does, its cursors are safe.** A machine lays out every text, in the smallest
number of blocks that leaves room behind what is kept of it, which is all of it unless the machine
cannot count its bytes. Every place of the content is safe, and no run of steps leads anywhere
else. -/
theorem host_cursors_safe (text : String) :
    ∃ first : RawCursor, RawCursor.ofBytes text.toUTF8 = .some first ∧
      first.LaidOut (Source.kept text.toUTF8) ∧
      (text.utf8ByteSize < UInt32.size → Source.kept text.toUTF8 = text.toUTF8) ∧
      (∀ pos, first.start ≤ pos → pos ≤ first.size → (first.setPos pos).Safe) ∧
      ∀ steps : List HostAct, ∃ host, steps.foldlM RawHost.step ⟨first, []⟩ = .some host ∧
        ∀ c ∈ host.cursors, c = first.setPos c.pos ∧ c.Safe := by
  have hs := Source.size_kept_lt text.toUTF8
  have hkept : text.utf8ByteSize < UInt32.size → Source.kept text.toUTF8 = text.toUTF8 :=
    fun h => Source.kept_of_lt h
  have hfirst := RawCursor.ofBytes_eq text.toUTF8
  generalize Source.kept text.toUTF8 = bytes at hs hkept hfirst ⊢
  exact ⟨_, hfirst, RawCursor.laidOut bytes hs, hkept,
    fun pos => RawCursor.safe_of_mem (s := Source.ofBytes bytes) hs,
    RawHost.run_safe (s := Source.ofBytes bytes) hs⟩

/-- A mark is in front, and the host sends its cursor as far both ways as its numbers go. -/
theorem host_cursors_safe_far :
    let text := "\uFEFF%% x\n"
    let steps : List HostAct := [.save, .move (.moveBy (-2147483648)), .move (.moveTo 4294967295),
      .save, .move (.next .preamble), .restore 1, .move (.comment .preamble)]
    text.utf8ByteSize < UInt32.size ∧
      ∃ first, RawCursor.ofBytes text.toUTF8 = .some first ∧ Source.kept text.toUTF8 = text.toUTF8 ∧
        first.buffer.size ≤ 64 ∧ first.start ≤ 5 ∧ 5 ≤ first.size ∧ (first.setPos 5).Safe ∧
        ∃ host, steps.foldlM RawHost.step ⟨first, []⟩ = .some host ∧ host.cursor.Safe := by
  intro text steps
  have htext : text.utf8ByteSize < UInt32.size := by decide
  obtain ⟨first, hfirst, hlaid, hkept, hplaces, hruns⟩ := host_cursors_safe text
  rw [hkept htext] at hlaid
  have hlow : first.start ≤ 5 := by
    rw [UInt32.le_iff_toNat_le, hlaid.start_eq]
    decide +kernel
  have hhigh : 5 ≤ first.size := by
    rw [UInt32.le_iff_toNat_le, hlaid.size_eq]
    decide +kernel
  obtain ⟨host, hrun, hsafe⟩ := hruns steps
  exact ⟨htext, first, hfirst, hkept htext, hlaid.size_le 64 (by decide +kernel) (by decide), hlow,
    hhigh, hplaces 5 hlow hhigh, host, hrun, (hsafe _ List.mem_cons_self).2⟩

end MatlabEdit
