import Mathlib.Data.List.TakeWhile
import MatlabEdit.Text.WhiteSpace
import MatlabEdit.Byte

/-!
# Stripping both ends of a list

Two trims meet in this development. A line of bytes is trimmed of blanks by the
scanner's rules, and a line of characters is trimmed of white space by those of
the indentation. Both are `strip`, and what is proved here of `strip` holds of
both.
-/

namespace MatlabEdit

variable {α : Type} {p : α → Bool}

/-- A list without the elements at its ends that have property `p`. -/
def strip (p : α → Bool) (l : List α) : List α := ((l.dropWhile p).reverse.dropWhile p).reverse

theorem trim_eq_strip (text : List Char) : trim text = strip isWhite text := rfl

theorem takeWhile_eq_nil_of_head? {l : List α} (h : ∀ a, l.head? = some a → p a = false) :
    l.takeWhile p = [] := by
  cases l with
  | nil => rfl
  | cons a l => exact List.takeWhile_cons_of_neg (by simp [h a rfl])

theorem dropWhile_eq_self_of_head? {l : List α} (h : ∀ a, l.head? = some a → p a = false) :
    l.dropWhile p = l := by
  cases l with
  | nil => rfl
  | cons a l => exact List.dropWhile_cons_of_neg (by simp [h a rfl])

theorem takeWhile_append_of_head? {run l : List α} (hrun : ∀ a ∈ run, p a = true)
    (hl : ∀ a, l.head? = some a → p a = false) : (run ++ l).takeWhile p = run := by
  rw [List.takeWhile_append_of_pos hrun, takeWhile_eq_nil_of_head? hl, List.append_nil]

/-- What a `dropWhile` leaves starts with an element at which it stopped. -/
theorem head?_dropWhile_eq_false {l : List α} {a : α} (h : (l.dropWhile p).head? = some a) :
    p a = false := by
  have hnot := List.head?_dropWhile_not p l
  rw [h] at hnot
  simpa using hnot

/-- Margins of `p` around a text that has none are what a strip takes away. -/
theorem strip_append {pre text post : List α} (hpre : ∀ a ∈ pre, p a = true)
    (hpost : ∀ a ∈ post, p a = true) (hhead : ∀ a, text.head? = some a → p a = false)
    (hlast : ∀ a, text.getLast? = some a → p a = false) : strip p (pre ++ text ++ post) = text := by
  have hrev : ∀ a ∈ post.reverse, p a = true := fun a ha => hpost a (List.mem_reverse.mp ha)
  unfold strip
  rw [List.append_assoc, List.dropWhile_append_of_pos hpre]
  cases text with
  | nil => simp [List.dropWhile_eq_nil_iff.mpr hpost]
  | cons a text =>
    rw [dropWhile_eq_self_of_head? (l := a :: text ++ post) (by simpa using hhead a rfl),
      List.reverse_append, List.dropWhile_append_of_pos hrev,
      dropWhile_eq_self_of_head? (by rw [List.head?_reverse]; exact hlast), List.reverse_reverse]

/-- A list is its stripped middle and two margins, the first of which is as long as it can be. -/
theorem exists_margins (p : α → Bool) (l : List α) :
    ∃ post, l = l.takeWhile p ++ strip p l ++ post ∧ ∀ a ∈ post, p a = true := by
  refine ⟨((l.dropWhile p).reverse.takeWhile p).reverse, ?_, ?_⟩
  · have hback := List.takeWhile_append_dropWhile (p := p) (l := (l.dropWhile p).reverse)
    have hmid := congrArg List.reverse hback
    rw [List.reverse_append, List.reverse_reverse] at hmid
    unfold strip
    rw [List.append_assoc, hmid, List.takeWhile_append_dropWhile]
  · intro a ha
    exact List.mem_takeWhile_imp (List.mem_reverse.mp ha)

theorem getLast?_strip {l : List α} {a : α} (h : (strip p l).getLast? = some a) : p a = false := by
  unfold strip at h
  rw [List.getLast?_reverse] at h
  exact head?_dropWhile_eq_false h

theorem head?_strip {l : List α} {a : α} (h : (strip p l).head? = some a) : p a = false := by
  obtain ⟨post, hl, hpost⟩ := exists_margins p l
  have hdrop : l.dropWhile p = strip p l ++ post := by
    have hsplit := List.takeWhile_append_dropWhile (p := p) (l := l)
    rw [List.append_assoc] at hl
    exact List.append_cancel_left (hsplit.trans hl)
  refine head?_dropWhile_eq_false (l := l) ?_
  rw [hdrop, List.head?_append, h]
  rfl

/-- Nothing is left exactly of a list that is all margin. -/
theorem strip_eq_nil_iff {l : List α} : strip p l = [] ↔ ∀ a ∈ l, p a = true := by
  constructor
  · intro h
    obtain ⟨post, hl, hpost⟩ := exists_margins p l
    intro a ha
    rw [hl, h, List.append_nil] at ha
    rcases List.mem_append.mp ha with ha | ha
    · exact List.mem_takeWhile_imp ha
    · exact hpost a ha
  · intro h
    rw [strip, List.dropWhile_eq_nil_iff.mpr h]
    rfl

theorem mem_of_mem_strip {l : List α} {a : α} (h : a ∈ strip p l) : a ∈ l := by
  obtain ⟨post, hl, _⟩ := exists_margins p l
  rw [hl]
  exact List.mem_append_left _ (List.mem_append_right _ h)

/-- What a filter drops anyway may be stripped. -/
theorem filter_strip {q : α → Bool} {l : List α} (h : ∀ a ∈ l, p a = true → q a = false) :
    (strip p l).filter q = l.filter q := by
  obtain ⟨post, hl, hpost⟩ := exists_margins p l
  have hfront : (l.takeWhile p).filter q = [] := List.filter_eq_nil_iff.mpr fun a ha => by
    rw [h a ((List.takeWhile_sublist p).subset ha) (List.mem_takeWhile_imp ha)]
    exact Bool.false_ne_true
  have hback : post.filter q = [] := List.filter_eq_nil_iff.mpr fun a ha => by
    have hmem : a ∈ l := by
      rw [hl]
      exact List.mem_append_right _ ha
    rw [h a hmem (hpost a ha)]
    exact Bool.false_ne_true
  conv => rhs; rw [hl]
  rw [List.filter_append, List.filter_append, hfront, hback, List.nil_append, List.append_nil]

namespace Byte

/-- A line without the blanks at its ends. -/
def trim (line : List UInt8) : List UInt8 := strip isBlank line

/-- How many blanks a line starts with. -/
def indent (line : List UInt8) : Nat := (line.takeWhile isBlank).length

theorem indent_le (line : List UInt8) : indent line ≤ line.length :=
  (List.takeWhile_prefix _).length_le

theorem indent_of_append {pre text : List UInt8} (hpre : ∀ b ∈ pre, isBlank b = true)
    (htext : ∀ b, text.head? = some b → isBlank b = false) : indent (pre ++ text) = pre.length := by
  rw [indent, takeWhile_append_of_head? hpre htext]

end Byte

end MatlabEdit
