/-!
# Ranges of code points

A character class is a list of ranges in ascending order. Looking up a code point stops at the
first range that reaches as far as the code point, and `covers_iff` says that nothing is lost by
stopping there.
-/

namespace MatlabEdit

/-- The code points from `lo` to `hi`, both included. -/
structure CharRange where
  lo : Nat
  hi : Nat
deriving DecidableEq, Repr

namespace CharRange

/-- Whether every range holds a code point, starts at `n` or above, and ends before the next one
starts. -/
def ascendingFrom (n : Nat) : List CharRange → Bool
  | [] => true
  | r :: rest => n ≤ r.lo && r.lo ≤ r.hi && ascendingFrom (r.hi + 1) rest

/-- Whether an ascending list of ranges holds the code point `n`. -/
def covers : List CharRange → Nat → Bool
  | [], _ => false
  | r :: rest, n => if n ≤ r.hi then r.lo ≤ n else covers rest n

theorem le_lo_of_ascendingFrom {n : Nat} {ranges : List CharRange}
    (h : ascendingFrom n ranges = true) : ∀ r ∈ ranges, n ≤ r.lo := by
  induction ranges generalizing n with
  | nil =>
    intro r hr
    cases hr
  | cons q rest ih =>
    simp only [ascendingFrom, Bool.and_eq_true, decide_eq_true_eq] at h
    obtain ⟨⟨hn, hq⟩, hrest⟩ := h
    intro r hr
    rcases List.mem_cons.mp hr with rfl | hr
    · exact hn
    · have := ih hrest r hr
      omega

/-- A lookup in an ascending list finds exactly the code points that lie in one of its ranges. -/
theorem covers_iff {n k : Nat} {ranges : List CharRange} (h : ascendingFrom n ranges = true) :
    covers ranges k = true ↔ ∃ r ∈ ranges, r.lo ≤ k ∧ k ≤ r.hi := by
  induction ranges generalizing n with
  | nil => simp [covers]
  | cons q rest ih =>
    have hcons := h
    simp only [ascendingFrom, Bool.and_eq_true, decide_eq_true_eq] at hcons
    obtain ⟨⟨_, hq⟩, hrest⟩ := hcons
    unfold covers
    by_cases hk : k ≤ q.hi
    · rw [if_pos hk]
      constructor
      · intro hlo
        exact ⟨q, List.mem_cons_self, by simpa using hlo, hk⟩
      · rintro ⟨r, hr, hlo, _⟩
        rcases List.mem_cons.mp hr with rfl | hr
        · simpa using hlo
        · -- a later range starts above `q.hi`, so it cannot hold `k`
          have := le_lo_of_ascendingFrom hrest r hr
          omega
    · rw [if_neg hk, ih hrest]
      constructor
      · rintro ⟨r, hr, hrk⟩
        exact ⟨r, List.mem_cons_of_mem _ hr, hrk⟩
      · rintro ⟨r, hr, hrk⟩
        rcases List.mem_cons.mp hr with rfl | hr
        · omega
        · exact ⟨r, hr, hrk⟩

end CharRange

end MatlabEdit
