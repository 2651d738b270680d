import Mathlib.Data.List.Perm.Subperm
import MatlabEdit.Proofs.NextSpan

/-!
# The spans leave nothing out

What the scanner passes over between two spans is blanks and breaks, and nothing
else of a document is outside its spans. They are in order, none is empty, and
each starts on a byte that is no blank and no break, so there are no more of them
than there are such bytes (`CoveredFrom.length_le`).

One call shows the gap and the span behind it (`next?_gap`), and the run is put
together from its calls (`coveredFrom_run`). Where the scanner starts makes no
difference, and neither does the phase.
-/

namespace MatlabEdit

open Cursor

/-- The offsets from `start` on of the bytes that are no blanks and no breaks. -/
def Source.inkFrom (s : Source) (start : Nat) : List Nat :=
  (List.range' start (s.size - start)).filter fun i => !isSkipped (s.byteAt i)

/-- The spans of a document from `start` on. -/
structure Source.CoveredFrom (s : Source) (start : Nat) (spans : List Span) : Prop where
  /-- A span holds at least one byte, and all its bytes are in the document. -/
  filled : ∀ span ∈ spans, span.start < span.stop ∧ span.stop ≤ s.size
  /-- A span starts on a byte that is no blank and no break. -/
  inked : ∀ span ∈ spans, isSkipped (s.byteAt span.start) = false
  /-- No span starts before `start`. -/
  behind : ∀ span ∈ spans, start ≤ span.start
  /-- A span starts where the one before it stops, or later. -/
  ordered : spans.Pairwise fun a b => a.stop ≤ b.start
  /-- A byte in no span is a blank or a break. -/
  gaps : ∀ i, start ≤ i → i < s.size → (∀ span ∈ spans, ¬ span.Holds i) →
    isSkipped (s.byteAt i) = true

variable {s : Source} {start : Nat} {span : Span} {spans : List Span}

theorem Source.mem_inkFrom {i : Nat} :
    i ∈ s.inkFrom start ↔ start ≤ i ∧ i < s.size ∧ isSkipped (s.byteAt i) = false := by
  unfold inkFrom
  rw [List.mem_filter, List.mem_range'_1, Bool.not_eq_true']
  constructor
  · rintro ⟨⟨hle, hlt⟩, hink⟩
    exact ⟨hle, by omega, hink⟩
  · rintro ⟨hle, hlt, hink⟩
    exact ⟨⟨hle, by omega⟩, hink⟩

namespace Source.CoveredFrom

theorem nil (h : ∀ i, start ≤ i → i < s.size → isSkipped (s.byteAt i) = true) :
    s.CoveredFrom start [] where
  filled := by simp
  inked := by simp
  behind := by simp
  ordered := .nil
  gaps := fun i hle hlt _ => h i hle hlt

/-- A gap, a span, and what covers the document from the end of that span on. -/
theorem cons (hle : start ≤ span.start) (hlt : span.start < span.stop) (hsize : span.stop ≤ s.size)
    (hgap : ∀ i, start ≤ i → i < span.start → isSkipped (s.byteAt i) = true)
    (hink : isSkipped (s.byteAt span.start) = false) (h : s.CoveredFrom span.stop spans) :
    s.CoveredFrom start (span :: spans) where
  filled := by
    intro x hx
    rcases List.mem_cons.mp hx with rfl | hx
    · exact ⟨hlt, hsize⟩
    · exact h.filled x hx
  inked := by
    intro x hx
    rcases List.mem_cons.mp hx with rfl | hx
    · exact hink
    · exact h.inked x hx
  behind := by
    intro x hx
    rcases List.mem_cons.mp hx with rfl | hx
    · exact hle
    · have := h.behind x hx
      omega
  ordered := List.pairwise_cons.mpr ⟨h.behind, h.ordered⟩
  gaps := by
    intro i hi hi' hout
    rcases Nat.lt_or_ge i span.start with hbefore | hin
    · exact hgap i hi hbefore
    · -- the byte is not in this span, so it comes behind it
      have hpast : span.stop ≤ i := by
        by_contra hin'
        exact hout span List.mem_cons_self ⟨hin, by omega⟩
      exact h.gaps i hpast hi' fun x hx => hout x (List.mem_cons_of_mem _ hx)

/-- There are no more spans than bytes on which one could start. -/
theorem length_le (h : s.CoveredFrom start spans) : spans.length ≤ (s.inkFrom start).length := by
  -- no two spans start on the same byte, for the first of them holds one
  have hdistinct : (spans.map fun span => span.start).Nodup := by
    rw [List.Nodup, List.pairwise_map]
    refine h.ordered.imp_of_mem ?_
    intro a b ha _ hab heq
    have := (h.filled a ha).1
    omega
  have hsub : (spans.map fun span => span.start) ⊆ s.inkFrom start := by
    intro i hi
    obtain ⟨span, hspan, rfl⟩ := List.mem_map.mp hi
    obtain ⟨hlt, hsize⟩ := h.filled span hspan
    exact mem_inkFrom.mpr ⟨h.behind span hspan, by omega, h.inked span hspan⟩
  have hle := (List.subperm_of_subset hdistinct hsub).length_le
  rwa [List.length_map] at hle

end Source.CoveredFrom

namespace Scanner

variable {t t' : Scanner s}

/-- What a call passes over to get to its span. -/
theorem next?_gap (h : t.next? = (some span, t')) :
    (∀ i, t.cursor.pos ≤ i → i < span.start → isSkipped (s.byteAt i) = true) ∧
      isSkipped (s.byteAt span.start) = false := by
  obtain ⟨he, rfl, _⟩ := next?_eq_some_iff.mp h
  constructor
  · intro i hi hi'
    exact skipWhile_passes _ t.cursor hi hi'
  · have hink := isSkipped_skipBlankLines he
    rwa [current_eq_byteAt] at hink

/-- A call that answers nothing has passed over all that was left. -/
theorem next?_none_gap (h : t.next? = (none, t')) {i : Nat} (hi : t.cursor.pos ≤ i)
    (hi' : i < s.size) : isSkipped (s.byteAt i) = true := by
  cases he : t.cursor.skipBlankLines.isAtEnd with
  | false =>
    rw [next?_of_lt he] at h
    exact absurd (Prod.mk.inj h).1 (by simp)
  | true =>
    refine skipWhile_passes _ t.cursor hi ?_
    rw [isAtEnd_iff] at he
    show i < t.cursor.skipBlankLines.pos
    omega

theorem coveredFrom_run (t : Scanner s) : s.CoveredFrom t.cursor.pos t.run.1 := by
  fun_induction run t with
  | case1 t span t' h spans last hrun ih =>
    rw [hrun] at ih
    obtain ⟨hle, hlt, hstop⟩ := next?_some h
    obtain ⟨hgap, hink⟩ := next?_gap h
    refine .cons hle hlt ?_ hgap hink ?_
    · rw [hstop]
      exact t'.cursor.pos_le_size
    · rw [hstop]
      exact ih
  | case2 t t' h => exact .nil fun i hi hi' => next?_none_gap h hi hi'

/-! ## Behind the last span -/

theorem after_add (t : Scanner s) (m n : Nat) : t.after (m + n) = (t.after m).after n := by
  induction m generalizing t with
  | zero => rw [Nat.zero_add, after]
  | succ m ih =>
    rw [Nat.succ_add]
    exact ih t.next?.2

/-- Behind a call that answers nothing, no other answers anything, and the phase is what it was. -/
theorem answer_of_none {m n : Nat} (h : t.answer m = none) (hle : m ≤ n) :
    t.answer n = none ∧ (t.after (n + 1)).phase = (t.after m).phase := by
  obtain ⟨k, rfl⟩ := Nat.exists_eq_add_of_le hle
  have hnext : (t.after m).next? = (none, (t.after m).next?.2) := Prod.ext h rfl
  have hphase := (next?_none hnext).2
  cases k with
  | zero =>
    refine ⟨h, ?_⟩
    rw [Nat.add_zero, after_succ]
    exact hphase
  | succ k =>
    have hlast : t.after (m + (k + 1)) = (t.after m).next?.2 := by
      rw [after_add, after_of_none hnext]
    refine ⟨?_, ?_⟩
    · rw [answer, hlast, next?_of_none hnext]
    · rw [after_succ, hlast, next?_of_none hnext]
      exact hphase

/-- **The spans from any offset on, in either phase.** They are what the calls answer one after the
other, they cover the document, and when they are over nothing changes any more. -/
theorem answers_cover (s : Source) (i : Nat) (phase : Phase) :
    let t : Scanner s := ⟨s.cursor.moveTo i, phase⟩
    let start := max s.contentStart (min i s.size)
    (∀ n, t.answer n = t.run.1[n]?) ∧
      t.run.1.length ≤ (s.inkFrom start).length ∧
      s.CoveredFrom start t.run.1 ∧
      ∀ m n, t.answer m = none → m ≤ n →
        t.answer n = none ∧ (t.after (n + 1)).phase = (t.after m).phase := by
  intro t start
  have hcovered : s.CoveredFrom start t.run.1 := coveredFrom_run t
  refine ⟨answer_eq_getElem? t, hcovered.length_le, hcovered, ?_⟩
  intro m n h hle
  exact answer_of_none h hle

end Scanner

end MatlabEdit
