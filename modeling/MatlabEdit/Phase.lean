/-!
# Phases of a document

A document opens with a preamble of blank lines and cell magics. The first piece of code or ordinary
comment ends the preamble for good, and the body that follows holds no magics.
-/

namespace MatlabEdit

/-- Whether a document is still in its preamble. -/
inductive Phase where
  /-- Nothing but blanks and magics so far. -/
  | preamble
  /-- Code or an ordinary comment has been seen. -/
  | body
deriving DecidableEq, Repr

namespace Phase

/-- Only a preamble holds magics. -/
def allowsMagic : Phase → Bool
  | preamble => true
  | body => false

/-- The phase once code or an ordinary comment has been seen. -/
def confirm : Phase → Phase
  | _ => body

@[simp] theorem confirm_eq (p : Phase) : p.confirm = body := rfl

end Phase

end MatlabEdit
