import MatlabEdit.Proofs.NextSpan

/-!
# Magics come first

A preamble is meant to end with the first span that is no magic, so that no magic
follows one (`MagicsFirst`). The phase is what remembers this, and one call keeps it
up to date but for one case: a NUL byte is code to the scanner, which cannot pass over
it, and a line end to the phase. Code that starts with a NUL byte is handed out and
the preamble goes on.

So what ends a preamble is `EndsPreamble`, and not every span that is no magic. Magics
come first exactly when the first span that is no magic does not start with a NUL byte
(`magicsFirst_iff`), and a document without NUL bytes has no other.
-/

namespace MatlabEdit

open Cursor

variable {s : Source}

/-- A span behind which the preamble is over: no magic, and no code that starts with a NUL byte. -/
def Source.EndsPreamble (s : Source) (span : Span) : Prop :=
  span.kind ≠ .magic ∧ s.byteAt span.start ≠ Byte.boundary

namespace Scanner

variable {t t' : Scanner s} {span : Span}

/-- Every magic comes before everything else, and the phase says whether anything else has come. -/
def MagicsFirst (t : Scanner s) : Prop :=
  t.run.1.Pairwise (fun a b => b.kind = .magic → a.kind = .magic) ∧
    ∀ n, (t.after n).phase = .body ↔ ∃ k < n, ∃ span, t.answer k = some span ∧ span.kind ≠ .magic

/-! ## One call -/

/-- Behind code that starts with anything but a NUL byte, the preamble is over. -/
theorem phaseBehind_code {c : Cursor s} (phase : Phase) (h : isSkipped c.current = false) :
    c.phaseBehind phase .code = .body ↔ phase = .body ∨ c.current ≠ Byte.boundary := by
  have hbreak : Byte.isBreak c.current = false := (Bool.or_eq_false_iff.mp h).2
  have hline : Byte.isLineEnd c.current = true ↔ c.current = Byte.boundary := by
    rw [Byte.isLineEnd, hbreak, Bool.false_or, beq_iff_eq]
  by_cases hnul : c.current = Byte.boundary
  · rw [phaseBehind, if_pos (hline.mpr hnul)]
    simp [hnul]
  · rw [phaseBehind, if_neg fun hend => hnul (hline.mp hend)]
    simp [hnul]

/-- **One call ends the preamble exactly if its span does.** -/
theorem phase_of_next?_some (h : t.next? = (some span, t')) :
    t'.phase = .body ↔ t.phase = .body ∨ s.EndsPreamble span := by
  obtain ⟨he, rfl, rfl⟩ := next?_eq_some_iff.mp h
  have hskip := isSkipped_skipBlankLines he
  generalize t.cursor.skipBlankLines = c at hskip
  have hbyte : s.byteAt (c.spanIn t.phase).start = c.current := (current_eq_byteAt c).symm
  have hsign : c.kindIn t.phase ≠ .code → c.current ≠ Byte.boundary := fun hne => by
    rw [current_of_kindIn hne]
    decide
  rw [Source.EndsPreamble, hbyte]
  show c.phaseBehind t.phase (c.kindIn t.phase) = .body
    ↔ t.phase = .body ∨ c.kindIn t.phase ≠ .magic ∧ c.current ≠ Byte.boundary
  cases hkind : c.kindIn t.phase with
  | magic => simp [phaseBehind]
  | blockComment => simpa [phaseBehind] using .inr (hsign (by rw [hkind]; decide))
  | lineComment => simpa [phaseBehind] using .inr (hsign (by rw [hkind]; decide))
  | code =>
    rw [phaseBehind_code t.phase hskip]
    simp

/-- Only a preamble hands out magics. -/
theorem phase_of_magic (h : t.next? = (some span, t')) (hkind : span.kind = .magic) :
    t.phase = .preamble := by
  obtain ⟨_, rfl, _⟩ := next?_eq_some_iff.mp h
  exact (kindIn_eq_magic_iff.mp hkind).1

/-! ## All calls -/

/-- **What the phase remembers after `n` calls**, by induction on them. -/
theorem phase_after_eq_body_iff (t : Scanner s) (n : Nat) :
    (t.after n).phase = .body ↔
      t.phase = .body ∨ ∃ k < n, ∃ span, t.answer k = some span ∧ s.EndsPreamble span := by
  induction n with
  | zero => simp [after]
  | succ n ih =>
    rw [after_succ]
    have hcall : (t.after n).next? = (t.answer n, (t.after n).next?.2) := rfl
    cases hanswer : t.answer n with
    | none =>
      rw [hanswer] at hcall
      rw [(next?_none hcall).2, ih]
      refine or_congr_right ⟨?_, ?_⟩
      · rintro ⟨k, hk, h⟩
        exact ⟨k, by omega, h⟩
      · rintro ⟨k, hk, span, hspan, h⟩
        have hne : k ≠ n := by
          rintro rfl
          rw [hanswer] at hspan
          cases hspan
        exact ⟨k, by omega, span, hspan, h⟩
    | some last =>
      rw [hanswer] at hcall
      rw [phase_of_next?_some hcall, ih, or_assoc]
      refine or_congr_right ⟨?_, ?_⟩
      · rintro (⟨k, hk, h⟩ | h)
        · exact ⟨k, by omega, h⟩
        · exact ⟨n, by omega, last, hanswer, h⟩
      · rintro ⟨k, hk, span, hspan, h⟩
        rcases Nat.lt_or_ge k n with hlt | hge
        · exact .inl ⟨k, hlt, span, hspan, h⟩
        · obtain rfl : k = n := by omega
          rw [hanswer] at hspan
          cases hspan
          exact .inr h

theorem phase_after_of_magic {n : Nat} (h : t.answer n = some span) (hkind : span.kind = .magic) :
    (t.after n).phase = .preamble := by
  have hcall : (t.after n).next? = (some span, (t.after n).next?.2) := Prod.ext h rfl
  exact phase_of_magic hcall hkind

/-- The first span that is no magic, and that only magics come before it. -/
theorem find?_run_eq_some_iff :
    t.run.1.find? (fun span => span.kind != .magic) = some span ↔
      ∃ n, t.answer n = some span ∧ span.kind ≠ .magic ∧
        ∀ k < n, ∀ before, t.answer k = some before → before.kind = .magic := by
  rw [List.find?_eq_some_iff_getElem]
  constructor
  · rintro ⟨hkind, n, hn, hspan, hbefore⟩
    refine ⟨n, ?_, by simpa using hkind, ?_⟩
    · rw [answer_eq_getElem?, List.getElem?_eq_getElem hn, hspan]
    · intro k hk before hk'
      rw [answer_eq_getElem?, List.getElem?_eq_getElem (by omega)] at hk'
      have := hbefore k hk
      rw [Option.some.inj hk'] at this
      simpa using this
  · rintro ⟨n, hspan, hkind, hbefore⟩
    rw [answer_eq_getElem?] at hspan
    obtain ⟨hn, hspan⟩ := List.getElem?_eq_some_iff.mp hspan
    refine ⟨by simpa using hkind, n, hn, hspan, ?_⟩
    intro k hk
    have hlt : k < t.run.1.length := by omega
    have hk' := hbefore k hk t.run.1[k] (by rw [answer_eq_getElem?, List.getElem?_eq_getElem hlt])
    simpa using hk'

/-- Of the spans that are no magics, there is a first one. -/
theorem exists_first {n : Nat} (h : t.answer n = some span) (hkind : span.kind ≠ .magic) :
    ∃ m ≤ n, ∃ first, t.answer m = some first ∧
      t.run.1.find? (fun span => span.kind != .magic) = some first := by
  have hmem : span ∈ t.run.1 := by
    rw [answer_eq_getElem?] at h
    exact List.mem_of_getElem? h
  have hsome : (t.run.1.find? fun span => span.kind != .magic).isSome = true :=
    List.find?_isSome.mpr ⟨span, hmem, bne_iff_ne.mpr hkind⟩
  obtain ⟨first, hfirst⟩ := Option.isSome_iff_exists.mp hsome
  obtain ⟨m, hm, _, hbefore⟩ := find?_run_eq_some_iff.mp hfirst
  refine ⟨m, ?_, first, hm, hfirst⟩
  -- only magics come before the first one, and this span is none
  by_contra hlt
  exact hkind (hbefore n (by omega) span h)

theorem magicsFirst_iff (h : t.phase = .preamble) :
    t.MagicsFirst ↔
      ∀ span, t.run.1.find? (fun span => span.kind != .magic) = some span →
        s.byteAt span.start ≠ Byte.boundary := by
  have hphase : ∀ n, (t.after n).phase = .body ↔
      ∃ k < n, ∃ span, t.answer k = some span ∧ s.EndsPreamble span := by
    intro n
    rw [phase_after_eq_body_iff, h]
    simp
  constructor
  · rintro ⟨_, hlaw⟩ span hfirst
    obtain ⟨n, hspan, hkind, hbefore⟩ := find?_run_eq_some_iff.mp hfirst
    -- behind this span the phase is the body's, and no span before it has made it so
    obtain ⟨k, hk, last, hlast, hends⟩ :=
      (hphase (n + 1)).mp ((hlaw (n + 1)).mpr ⟨n, by omega, span, hspan, hkind⟩)
    rcases Nat.lt_or_ge k n with hlt | hge
    · exact absurd (hbefore k hlt last hlast) hends.1
    · obtain rfl : k = n := by omega
      rw [hspan] at hlast
      cases hlast
      exact hends.2
  · intro hfirst
    have hlaw : ∀ n, (t.after n).phase = .body ↔
        ∃ k < n, ∃ span, t.answer k = some span ∧ span.kind ≠ .magic := by
      intro n
      rw [hphase]
      constructor
      · rintro ⟨k, hk, span, hspan, hends⟩
        exact ⟨k, hk, span, hspan, hends.1⟩
      · rintro ⟨k, hk, span, hspan, hkind⟩
        -- the first of them need not be this one, but it ends the preamble
        obtain ⟨m, hm, first, hm', hfind⟩ := exists_first hspan hkind
        obtain ⟨_, _, hne, _⟩ := find?_run_eq_some_iff.mp hfind
        exact ⟨m, by omega, first, hm', hne, hfirst first hfind⟩
    refine ⟨List.pairwise_iff_getElem.mpr ?_, hlaw⟩
    intro i j hi hj hij hmagic
    by_contra hne
    have hpreamble : (t.after j).phase = .preamble :=
      phase_after_of_magic (by rw [answer_eq_getElem?, List.getElem?_eq_getElem hj]) hmagic
    have hanswer : t.answer i = some t.run.1[i] := by
      rw [answer_eq_getElem?, List.getElem?_eq_getElem hi]
    have hbody : (t.after j).phase = .body := (hlaw j).mpr ⟨i, hij, _, hanswer, hne⟩
    rw [hpreamble] at hbody
    cases hbody

/-- **When magics come first.** The first span that is no magic must not start with a NUL byte. A
document without NUL bytes cannot go wrong. -/
theorem magicsFirst_of_preamble (t : Scanner s) (h : t.phase = .preamble) :
    (t.MagicsFirst ↔
      ∀ span, t.run.1.find? (fun span => span.kind != .magic) = some span →
        s.byteAt span.start ≠ Byte.boundary) ∧
      ((∀ i, s.contentStart ≤ i → i < s.size → s.byteAt i ≠ Byte.boundary) → t.MagicsFirst) := by
  refine ⟨magicsFirst_iff h, ?_⟩
  intro hnul
  refine (magicsFirst_iff h).mpr ?_
  intro span hfirst
  obtain ⟨n, hspan, _, _⟩ := find?_run_eq_some_iff.mp hfirst
  -- a span starts inside the content
  have hcall : (t.after n).next? = (some span, (t.after n).next?.2) := Prod.ext hspan rfl
  obtain ⟨hle, hlt, hstop⟩ := next?_some hcall
  have hstart := (t.after n).cursor.contentStart_le_pos
  have hsize := (t.after n).next?.2.cursor.pos_le_size
  exact hnul span.start (by omega) (by omega)

/-- The NUL byte comes too late to let the second magic through. -/
theorem magicsFirst_of_preamble_late :
    (Source.ofString "%%a\nx\x00\n%%b").scanner.phase = .preamble ∧
      (Source.ofString "%%a\nx\x00\n%%b").spans
        = [⟨⟨0, 3⟩, .magic⟩, ⟨⟨4, 5⟩, .code⟩, ⟨⟨5, 6⟩, .code⟩, ⟨⟨7, 10⟩, .lineComment⟩] ∧
      (Source.ofString "%%a\nx\x00\n%%b").scanner.MagicsFirst := by
  have hspans : (Source.ofString "%%a\nx\x00\n%%b").spans
      = [⟨⟨0, 3⟩, .magic⟩, ⟨⟨4, 5⟩, .code⟩, ⟨⟨5, 6⟩, .code⟩, ⟨⟨7, 10⟩, .lineComment⟩] := by
    decide +kernel
  refine ⟨rfl, hspans, (magicsFirst_of_preamble _ rfl).1.mpr ?_⟩
  intro span hfirst
  rw [show (Source.ofString "%%a\nx\x00\n%%b").scanner.run.1 = _ from hspans] at hfirst
  obtain rfl : ⟨⟨4, 5⟩, .code⟩ = span := Option.some.inj hfirst
  decide +kernel

/-- A document that starts with a NUL byte has code in front of a magic. -/
theorem not_magicsFirst_of_nul :
    tokenize "\x00%%a" = [⟨⟨0, 1⟩, .code⟩, ⟨⟨1, 4⟩, .magic⟩] ∧
      ((Source.ofString "\x00%%a").scanner.after 1).phase = .preamble ∧
      ¬ (Source.ofString "\x00%%a").scanner.MagicsFirst := by
  have hspans : tokenize "\x00%%a" = [⟨⟨0, 1⟩, .code⟩, ⟨⟨1, 4⟩, .magic⟩] := by decide +kernel
  refine ⟨hspans, by decide +kernel, ?_⟩
  rintro ⟨horder, _⟩
  rw [show (Source.ofString "\x00%%a").scanner.run.1 = _ from hspans] at horder
  exact absurd ((List.pairwise_cons.mp horder).1 _ List.mem_cons_self rfl) (by decide)

end Scanner

end MatlabEdit
