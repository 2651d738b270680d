import MatlabEdit.Comment.Block
import MatlabEdit.Proofs.Rest
import MatlabEdit.Proofs.Strip

/-!
# Where a delimiter can stand

A look around a cursor stops at the line ends, so it can be answered from the
line alone: what it finds behind the cursor is a prefix of the line, what it
finds ahead is a suffix. Hence a delimiter stands on a line exactly if the line,
trimmed, *is* the delimiter, and then it stands behind the leading blanks and
nowhere else (`isDelimiter_forward_iff`).
-/

namespace MatlabEdit.Cursor

variable {s : Source}

/-- The cursor stands at the start of `line`, and `tail` is what follows the line. -/
structure AtLine (c : Cursor s) (line tail : List UInt8) : Prop where
  /-- Nothing of the line is behind the cursor. -/
  start : c.precededByBlanks = true
  /-- The line is ahead. -/
  rest : c.rest = line ++ tail
  /-- The line does not end within. -/
  line : ∀ b ∈ line, Byte.isLineEnd b = false
  /-- The line does end here. -/
  tail : ∀ b, tail.head? = some b → Byte.isLineEnd b = true

theorem isLineEnd_headD {tail : List UInt8}
    (h : ∀ b, tail.head? = some b → Byte.isLineEnd b = true) :
    Byte.isLineEnd (tail.headD Byte.boundary) = true := by
  cases tail with
  | nil => exact Byte.isLineEnd_boundary
  | cons b tail => exact h b rfl

/-! ## Looking around on a line -/

theorem precededByBlanks_forward {run tail : List UInt8} :
    ∀ {c : Cursor s}, c.rest = run ++ tail → (∀ b ∈ run, Byte.isLineEnd b = false) →
      (c.forward run.length).precededByBlanks = (c.precededByBlanks && run.all Byte.isBlank) := by
  induction run with
  | nil => intro c _ _; simp
  | cons b run ih =>
    intro c hrest hrun
    have hlt := pos_lt_of_rest_eq_cons hrest
    have hcur := current_of_rest_eq_cons hrest
    -- what the look back says of the run so far is what it says from its second byte on
    have hstep := ih (rest_next_of_rest_eq_cons hrest) fun x hx =>
      hrun x (List.mem_cons_of_mem _ hx)
    rw [next_eq_forward, forward_forward, Nat.add_comm] at hstep
    rw [List.length_cons, hstep, ← next_eq_forward hlt, List.all_cons]
    cases hb : Byte.isBlank b with
    | true => rw [precededByBlanks_next_of_isBlank hlt (by rw [hcur, hb])]; simp
    | false =>
      rw [precededByBlanks_next_of_neg hlt (by rw [hcur]; exact hrun b List.mem_cons_self)
        (by rw [hcur, hb])]
      simp

theorem followedByBlanks_of_rest {run tail : List UInt8}
    (htail : ∀ b, tail.head? = some b → Byte.isLineEnd b = true) :
    ∀ {c : Cursor s}, c.rest = run ++ tail → (∀ b ∈ run, Byte.isLineEnd b = false) →
      c.followedByBlanks = run.all Byte.isBlank := by
  induction run with
  | nil =>
    intro c hrest _
    refine followedByBlanks_of_isLineEnd ?_
    rw [current_eq_headD, hrest]
    exact isLineEnd_headD htail
  | cons b run ih =>
    intro c hrest hrun
    have hlt := pos_lt_of_rest_eq_cons hrest
    have hcur := current_of_rest_eq_cons hrest
    rw [List.all_cons]
    cases hb : Byte.isBlank b with
    | true =>
      rw [followedByBlanks_of_isBlank hlt (by rw [hcur, hb]), Bool.true_and]
      exact ih (rest_next_of_rest_eq_cons hrest) fun x hx => hrun x (List.mem_cons_of_mem _ hx)
    | false =>
      rw [followedByBlanks_of_neg (by rw [hcur]; exact hrun b List.mem_cons_self)
        (by rw [hcur, hb]), Bool.false_and]

/-! ## Delimiters -/

/-- The two bytes of a delimiter fit on the line, for no line end is one of them. -/
theorem exists_of_isDelimiter {c : Cursor s} {brace : UInt8} {run tail : List UInt8}
    (hrest : c.rest = run ++ tail) (htail : ∀ b, tail.head? = some b → Byte.isLineEnd b = true)
    (hbrace : Byte.isLineEnd brace = false) (h : c.isDelimiter brace = true) :
    ∃ after, run = Byte.percent :: brace :: after := by
  obtain ⟨h0, h1, _, _⟩ := isDelimiter_iff.mp h
  have hend := isLineEnd_headD htail
  rw [peek_zero, current_eq_headD, hrest] at h0
  rw [peek_one, hrest] at h1
  cases run with
  | nil =>
    rw [List.nil_append] at h0
    -- the line is over, so its end stands where the sign should
    rw [h0] at hend
    exact absurd hend (by decide)
  | cons b run =>
    have hb : b = Byte.percent := h0
    cases run with
    | nil =>
      have ht : tail.headD Byte.boundary = brace := h1
      -- the same for the brace
      rw [ht, hbrace] at hend
      exact absurd hend (by decide)
    | cons b' run =>
      have hb' : b' = brace := h1
      exact ⟨run, by rw [hb, hb']⟩

namespace AtLine

variable {c : Cursor s} {line tail : List UInt8} {n : Nat}

theorem rest_forward (hc : c.AtLine line tail) (hn : n ≤ line.length) :
    (c.forward n).rest = line.drop n ++ tail := by
  rw [Cursor.rest_forward, hc.rest, List.drop_append_of_le_length hn]

theorem precededByBlanks_forward (hc : c.AtLine line tail) (hn : n ≤ line.length) :
    (c.forward n).precededByBlanks = (line.take n).all Byte.isBlank := by
  have hrun : (line.take n).length = n := List.length_take_of_le hn
  have hsplit : c.rest = line.take n ++ (line.drop n ++ tail) := by
    rw [hc.rest, ← List.append_assoc, List.take_append_drop]
  have hbefore := Cursor.precededByBlanks_forward hsplit fun b hb =>
    hc.line b (List.mem_of_mem_take hb)
  rwa [hrun, hc.start, Bool.true_and] at hbefore

theorem followedByBlanks_forward (hc : c.AtLine line tail) (hn : n ≤ line.length) {b b' : UInt8}
    {after : List UInt8} (hdrop : line.drop n = b :: b' :: after) :
    ((c.forward n).moveBy 2).followedByBlanks = after.all Byte.isBlank := by
  refine followedByBlanks_of_rest hc.tail ?_ ?_
  · rw [moveBy_two, Cursor.rest_forward, hc.rest_forward hn, hdrop]
    rfl
  · intro x hx
    refine hc.line x (List.mem_of_mem_drop (i := n) ?_)
    rw [hdrop]
    exact List.mem_cons_of_mem _ (List.mem_cons_of_mem _ hx)

end AtLine

variable {c : Cursor s} {brace : UInt8} {line tail : List UInt8} {n : Nat}

theorem trim_of_isDelimiter (hc : c.AtLine line tail) (hend : Byte.isLineEnd brace = false)
    (hblank : Byte.isBlank brace = false) (hn : n ≤ line.length)
    (h : (c.forward n).isDelimiter brace = true) :
    n = Byte.indent line ∧ Byte.trim line = [Byte.percent, brace] := by
  obtain ⟨after, hdrop⟩ := exists_of_isDelimiter (hc.rest_forward hn) hc.tail hend h
  obtain ⟨_, _, hbefore, hafter⟩ := isDelimiter_iff.mp h
  rw [hc.precededByBlanks_forward hn, List.all_eq_true] at hbefore
  rw [hc.followedByBlanks_forward hn hdrop, List.all_eq_true] at hafter
  -- blanks, the two bytes, blanks: a trim leaves the two bytes
  have hline : line = line.take n ++ [Byte.percent, brace] ++ after := by
    rw [List.append_assoc]
    show line = line.take n ++ Byte.percent :: brace :: after
    rw [← hdrop, List.take_append_drop]
  constructor
  · rw [hline, List.append_assoc, Byte.indent_of_append hbefore (by simp),
      List.length_take_of_le hn]
  · rw [hline]
    exact strip_append hbefore hafter (by simp) (by simpa using hblank)

theorem isDelimiter_of_trim (hc : c.AtLine line tail)
    (htrim : Byte.trim line = [Byte.percent, brace]) :
    (c.forward (Byte.indent line)).isDelimiter brace = true := by
  have hn := Byte.indent_le line
  obtain ⟨post, hline, hpost⟩ := exists_margins Byte.isBlank line
  have htake : line.take (Byte.indent line) = line.takeWhile Byte.isBlank :=
    (List.prefix_iff_eq_take.mp (List.takeWhile_prefix _)).symm
  have hdrop : line.drop (Byte.indent line) = Byte.percent :: brace :: post := by
    have hpre := List.take_append_drop (Byte.indent line) line
    rw [htake] at hpre
    refine List.append_cancel_left (hpre.trans ?_)
    rw [Byte.trim] at htrim
    rw [htrim, List.append_assoc] at hline
    exact hline
  refine isDelimiter_iff.mpr ⟨?_, ?_, ?_, ?_⟩
  · rw [peek_zero, current_eq_headD, hc.rest_forward hn, hdrop]
    rfl
  · rw [peek_one, hc.rest_forward hn, hdrop]
    rfl
  · rw [hc.precededByBlanks_forward hn, htake]
    exact List.all_takeWhile
  · rw [hc.followedByBlanks_forward hn hdrop, List.all_eq_true]
    exact hpost

/-- On a line that is a delimiter but for blanks, the delimiter stands behind the leading blanks;
on any other line there is none. -/
theorem isDelimiter_forward_iff (hc : c.AtLine line tail) (hend : Byte.isLineEnd brace = false)
    (hblank : Byte.isBlank brace = false) (hn : n ≤ line.length) :
    (c.forward n).isDelimiter brace = true ↔
      n = Byte.indent line ∧ Byte.trim line = [Byte.percent, brace] := by
  constructor
  · exact trim_of_isDelimiter hc hend hblank hn
  · rintro ⟨rfl, htrim⟩
    exact isDelimiter_of_trim hc htrim

theorem opensBlock_forward_iff (hc : c.AtLine line tail) (hn : n ≤ line.length) :
    (c.forward n).opensBlock = true ↔
      n = Byte.indent line ∧ Byte.trim line = [Byte.percent, Byte.openBrace] :=
  isDelimiter_forward_iff hc (by decide) (by decide) hn

theorem closesBlock_forward_iff (hc : c.AtLine line tail) (hn : n ≤ line.length) :
    (c.forward n).closesBlock = true ↔
      n = Byte.indent line ∧ Byte.trim line = [Byte.percent, Byte.closeBrace] :=
  isDelimiter_forward_iff hc (by decide) (by decide) hn

end MatlabEdit.Cursor
