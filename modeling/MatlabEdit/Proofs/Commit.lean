import MatlabEdit.Proofs.PhaseNames

/-!
# A scan commits, or it leaves the cursor alone

A host asks for a comment at any place that its grammar leads it to, in the middle of a
character too. The answer is all or nothing. At a comment sign the scan commits: there is a
span, it starts at the cursor, and the cursor goes to its end (`Commits`). Anywhere else it
declines: the cursor stays, and all that may change is the phase (`Declines`).

Several rules are tried before one matches, and each is given the phase that the one before
it left. A rule that does not match gives it back as it was, so nothing of it is seen.

Over the life of a host the phase goes one way. What it is in the end depends on the single
steps alone, each taken in a preamble (`phaseAfter_eq_body_iff`): it is the body's if one of
them has ended a preamble, and then no further step brings the preamble back.
-/

namespace MatlabEdit

/-- The bytes that say nothing about the phase: blanks, breaks and the boundary byte. -/
def Byte.silent : List UInt8 := [0x20, 0x09, 0x0B, 0x0C, 0x0A, 0x0D, 0x00]

theorem Byte.mem_silent_iff {b : UInt8} :
    b ∈ silent ↔ (isBlank b || isLineEnd b) = true := by
  rw [Bool.or_eq_true, isBlank_iff, isLineEnd_iff]
  simp only [silent, List.mem_cons, List.not_mem_nil, or_false, or_assoc]

/-! ## One scan -/

namespace Scanner

variable {s : Source} {t : Scanner s}

/-- A scan has found the span, and the scanner has gone to the end of it. Only a magic leaves the
preamble open. -/
structure Commits (t : Scanner s) (span : Span) (t' : Scanner s) : Prop where
  start_eq : span.start = t.cursor.pos
  start_lt_stop : span.start < span.stop
  stop_le_size : span.stop ≤ s.size
  pos_eq : t'.cursor.pos = span.stop
  phase_eq : t'.phase = if span.kind = .magic then t.phase else .body

/-- A scan has found nothing. A byte of the document that is not silent is code, and ends the
preamble. -/
structure Declines (t t' : Scanner s) : Prop where
  cursor_eq : t'.cursor = t.cursor
  phase_eq : t'.phase
    = if t.cursor.pos < s.size ∧ t.cursor.current ∉ Byte.silent then .body else t.phase

/-- Behind a span that starts with a comment sign, the preamble is over unless it is a magic. -/
theorem phaseBehind_of_sign {c : Cursor s} (hsign : c.current = Byte.percent) (phase : Phase) :
    c.phaseBehind phase (c.kindIn phase)
      = if c.kindIn phase = .magic then phase else .body := by
  cases hkind : c.kindIn phase with
  | magic => rfl
  | blockComment => rfl
  | lineComment => rfl
  | code =>
    rw [Cursor.kindIn, if_pos hsign] at hkind
    split_ifs at hkind

theorem commits_of_sign (hsign : t.cursor.current = Byte.percent) :
    t.Commits (t.cursor.spanIn t.phase) (t.cursor.scannerBehind t.phase) where
  start_eq := rfl
  start_lt_stop := (comment?_some (comment?_of_sign hsign)).2.1
  stop_le_size := (t.cursor.stopOf (t.cursor.kindIn t.phase)).pos_le_size
  pos_eq := rfl
  phase_eq := phaseBehind_of_sign hsign t.phase

/-- Silence is what the scanner knows as a blank or a line end. -/
theorem phaseWithoutComment_eq (t : Scanner s) :
    t.phaseWithoutComment = if t.cursor.current ∉ Byte.silent then .body else t.phase := by
  rw [phaseWithoutComment]
  by_cases hsilent : t.cursor.current ∈ Byte.silent
  · rw [if_pos (Byte.mem_silent_iff.mp hsilent), if_neg (not_not.mpr hsilent)]
  · rw [if_neg fun h => hsilent (Byte.mem_silent_iff.mpr h), if_pos hsilent]
    rfl

theorem declines_of_ne (hsign : t.cursor.current ≠ Byte.percent) :
    t.comment?.1 = none ∧ t.Declines t.comment?.2 := by
  cases he : t.cursor.isAtEnd with
  | true =>
    rw [comment?_of_isAtEnd he]
    refine ⟨rfl, rfl, (if_neg fun h => ?_).symm⟩
    rw [Cursor.isAtEnd_iff.mp he] at h
    exact Nat.lt_irrefl _ h.1
  | false =>
    have hlt := Cursor.isAtEnd_eq_false_iff.mp he
    rw [comment?_of_ne he hsign]
    refine ⟨rfl, rfl, ?_⟩
    dsimp only
    rw [phaseWithoutComment_eq]
    simp only [hlt, true_and]

/-- **A scan commits or declines.** -/
theorem comment?_cases (t : Scanner s) :
    (t.cursor.current = Byte.percent ∧ ∃ span, t.comment?.1 = some span ∧
        t.Commits span t.comment?.2) ∨
      (t.cursor.current ≠ Byte.percent ∧ t.comment?.1 = none ∧ t.Declines t.comment?.2) := by
  by_cases hsign : t.cursor.current = Byte.percent
  · rw [comment?_of_sign hsign]
    exact .inl ⟨hsign, _, rfl, commits_of_sign hsign⟩
  · exact .inr ⟨hsign, declines_of_ne hsign⟩

theorem phase_comment? (h : t.phase = .body) : t.comment?.2.phase = .body := by
  rcases comment?_cases t with ⟨_, span, _, hcommits⟩ | ⟨_, _, hdeclines⟩
  · rw [hcommits.phase_eq, h, ite_self]
  · rw [hdeclines.phase_eq, h, ite_self]

end Scanner

/-! ## One rule -/

namespace CommentRule

variable {s : Source}

/-- Two signs in a row are no delimiter. -/
theorem magic_or_block (c : Cursor s) (phase phase' : Phase) :
    (magic.apply phase c).1 = none ∨ (block.apply phase' c).1 = none := by
  show c.magic? phase = none ∨ _
  by_cases hm : (phase.allowsMagic && c.isMagicStart) = true
  · have hopen := Cursor.opensBlock_of_isMagicStart (Bool.and_eq_true_iff.mp hm).2
    right
    rw [apply, Cursor.blockComment?, hopen]
    rfl
  · left
    rw [Cursor.magic?, if_neg hm]

theorem apply_body (rule : CommentRule) (c : Cursor s) : (rule.apply .body c).2 = .body := by
  cases rule with
  | magic => rfl
  | block =>
    rw [apply]
    cases c.blockComment? <;> rfl
  | line => rfl

end CommentRule

/-! ## All steps of a host -/

/-- What a host does that may change its phase. It may move its cursor as it likes between two
steps, to another document too, so each step has a cursor of its own. -/
inductive HostStep where
  /-- Ask for a comment. -/
  | scan {s : Source} (c : Cursor s)
  /-- Try one rule alone. -/
  | attempt {s : Source} (rule : CommentRule) (c : Cursor s)

/-- The phase behind a step. -/
def HostStep.phaseAfter (phase : Phase) : HostStep → Phase
  | scan c => (Scanner.comment? ⟨c, phase⟩).2.phase
  | attempt rule c => (rule.apply phase c).2

/-- The phase behind some steps. -/
def phaseAfter (phase : Phase) (steps : List HostStep) : Phase :=
  steps.foldl HostStep.phaseAfter phase

theorem HostStep.phaseAfter_body (step : HostStep) : step.phaseAfter .body = .body := by
  cases step with
  | scan c => exact Scanner.phase_comment? rfl
  | attempt rule c => exact rule.apply_body c

theorem phaseAfter_body (steps : List HostStep) : phaseAfter .body steps = .body := by
  induction steps with
  | nil => rfl
  | cons step rest ih =>
    rw [phaseAfter, List.foldl_cons, step.phaseAfter_body]
    exact ih

/-- **The phase in the end is told by the single steps**, by induction on them. -/
theorem phaseAfter_eq_body_iff (phase : Phase) (steps : List HostStep) :
    phaseAfter phase steps = .body ↔
      phase = .body ∨ ∃ step ∈ steps, step.phaseAfter .preamble = .body := by
  induction steps generalizing phase with
  | nil => simp [phaseAfter]
  | cons step rest ih =>
    cases phase with
    | body => simp [phaseAfter_body]
    | preamble =>
      rw [phaseAfter, List.foldl_cons]
      show phaseAfter (step.phaseAfter .preamble) rest = .body ↔ _
      rw [ih]
      simp

/-- **A scan is all or nothing.** It finds a span exactly at a comment sign, and then commits it; in
any other place it declines. A rule that does not match leaves the phase as it was, a magic and a
block comment never match in one place, and a host that has left the preamble never comes back. -/
theorem scan_commits_or_declines :
    (∀ {s : Source} (t : Scanner s),
        (t.comment?.1.isSome = true ↔
            t.cursor.pos < s.size ∧ t.cursor.current = Byte.percent) ∧
          (∀ span, t.comment?.1 = some span → t.Commits span t.comment?.2) ∧
          (t.comment?.1 = none → t.Declines t.comment?.2)) ∧
      (∀ {s : Source} (rule : CommentRule) (phase : Phase) (c : Cursor s),
        (rule.apply phase c).1 = none → (rule.apply phase c).2 = phase) ∧
      (∀ {s : Source} (c : Cursor s) (phase phase' : Phase),
        (CommentRule.magic.apply phase c).1 = none ∨
          (CommentRule.block.apply phase' c).1 = none) ∧
      ∀ (phase : Phase) (steps more : List HostStep),
        phaseAfter phase steps = .body → phaseAfter phase (steps ++ more) = .body := by
  refine ⟨?_, ?_, CommentRule.magic_or_block, ?_⟩
  · intro s t
    rcases Scanner.comment?_cases t with ⟨hsign, span, hspan, hcommits⟩ | ⟨hsign, hnone, hdeclines⟩
    · have hlt : t.cursor.pos < s.size :=
        Cursor.pos_lt_size_of_current_ne (by rw [hsign]; decide)
      rw [hspan]
      refine ⟨iff_of_true rfl ⟨hlt, hsign⟩, ?_, fun h => nomatch h⟩
      intro span' hspan'
      obtain rfl := Option.some.inj hspan'
      exact hcommits
    · rw [hnone]
      refine ⟨iff_of_false Bool.false_ne_true fun h => hsign h.2, ?_, fun _ => hdeclines⟩
      intro span hspan
      cases hspan
  · intro s rule phase c h
    exact CommentRule.apply_none (Prod.ext h rfl)
  · intro phase steps more h
    -- the step that has ended the preamble is still among the steps
    rw [phaseAfter_eq_body_iff] at h ⊢
    refine h.imp_right ?_
    rintro ⟨step, hstep, hbody⟩
    exact ⟨step, List.mem_append_left _ hstep, hbody⟩

/-- A magic is committed, and the second byte of a character is code. -/
theorem scan_commits_or_declines_accent :
    let s := Source.ofString "%%a\né"
    let accent := s.cursor.moveTo 5
    (Scanner.comment? ⟨s.cursor, .preamble⟩).1 = some ⟨⟨0, 3⟩, .magic⟩ ∧
      Scanner.Commits ⟨s.cursor, .preamble⟩ ⟨⟨0, 3⟩, .magic⟩
        (Scanner.comment? ⟨s.cursor, .preamble⟩).2 ∧
      (Scanner.comment? ⟨accent, .preamble⟩).1 = none ∧
      Scanner.Declines ⟨accent, .preamble⟩ (Scanner.comment? ⟨accent, .preamble⟩).2 ∧
      (CommentRule.block.apply .preamble s.cursor).1 = none ∧
      (CommentRule.block.apply .preamble s.cursor).2 = .preamble ∧
      phaseAfter .preamble [.scan accent] = .body ∧
      phaseAfter .preamble ([.scan accent] ++ [.attempt .magic s.cursor, .scan s.cursor])
        = .body := by
  intro s accent
  obtain ⟨hscan, hrule, _, hphase⟩ := scan_commits_or_declines
  have hmagic : (Scanner.comment? ⟨s.cursor, .preamble⟩).1 = some ⟨⟨0, 3⟩, .magic⟩ := by
    decide +kernel
  have hcode : (Scanner.comment? ⟨accent, .preamble⟩).1 = none := by decide +kernel
  have hblock : (CommentRule.block.apply .preamble s.cursor).1 = none := by decide +kernel
  have hbody : phaseAfter .preamble [.scan accent] = .body := by decide +kernel
  exact ⟨hmagic, (hscan _).2.1 _ hmagic, hcode, (hscan _).2.2 hcode, hblock, hrule _ _ _ hblock,
    hbody, hphase _ _ _ hbody⟩

end MatlabEdit
