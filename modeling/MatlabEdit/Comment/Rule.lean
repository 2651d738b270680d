import MatlabEdit.Comment.Block
import MatlabEdit.Comment.SingleLine

/-!
# Which comment stands at a cursor

Three rules are tried in order, and the first that matches wins. The last one always matches, so
every comment sign starts a span of some kind.

A rule reports the phase of the document from there on. A rule that does not match leaves the
phase as it was; a magic keeps the preamble open; both kinds of comment end it.
-/

namespace MatlabEdit

/-- A rule for what stands at a comment sign. -/
inductive CommentRule where
  | magic
  | block
  | line
deriving DecidableEq, Repr

namespace CommentRule

variable {s : Source}

/-- All rules, in the order in which they are tried. -/
def all : List CommentRule := [magic, block, line]

/-- What the rule makes of the text at the cursor, and the phase from there on. -/
def apply (rule : CommentRule) (phase : Phase) (c : Cursor s) : Option Span × Phase :=
  match rule with
  | magic => (c.magic? phase, phase)
  | block =>
    match c.blockComment? with
    | some span => (some span, phase.confirm)
    | none => (none, phase)
  | line => (some c.lineComment, phase.confirm)

/-- What the first matching rule of a list makes of the text at the cursor. -/
def firstMatch (rules : List CommentRule) (phase : Phase) (c : Cursor s) : Option Span × Phase :=
  match rules with
  | [] => (none, phase)
  | rule :: rest =>
    match rule.apply phase c with
    | (some span, phase') => (some span, phase')
    | (none, phase') => firstMatch rest phase' c

/-- A rule that does not match leaves the phase as it was. -/
theorem apply_none {rule : CommentRule} {phase phase' : Phase} {c : Cursor s}
    (h : rule.apply phase c = (none, phase')) : phase' = phase := by
  cases rule with
  | magic => exact (Prod.mk.inj h).2.symm
  | block =>
    unfold apply at h
    dsimp only at h
    split at h
    · cases h
    · exact (Prod.mk.inj h).2.symm
  | line => cases h

/-- The three rules in order, written out: a magic if one stands here, or else a block comment, or
else the rest of the line. -/
theorem firstMatch_all (phase : Phase) (c : Cursor s) :
    firstMatch all phase c =
      match c.magic? phase with
      | some span => (some span, phase)
      | none =>
        match c.blockComment? with
        | some span => (some span, .body)
        | none => (some c.lineComment, .body) := by
  unfold all firstMatch
  cases hm : c.magic? phase with
  | some span => simp only [apply, hm]
  | none =>
    unfold firstMatch
    cases hb : c.blockComment? with
    | some span => simp only [apply, hm, hb, Phase.confirm_eq]
    | none => simp only [apply, hm, hb, firstMatch, Phase.confirm_eq]

end CommentRule

end MatlabEdit
