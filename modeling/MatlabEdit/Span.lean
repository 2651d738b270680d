import MatlabEdit.ByteRange

/-!
# Spans

What the scanner reports: a range of bytes together with what stands there. A span holds no text;
the text is the slice of the source at its range.
-/

namespace MatlabEdit

/-- Styles that an editor theme knows. -/
inductive HighlightTag where
  | keyword
  | variableName
  | comment
  /-- Commands passed on to the system. -/
  | systemCommand
  | string
  /-- Fixed-width text. -/
  | monospace
  | paren
  | squareBracket
  | brace
deriving DecidableEq, Repr

namespace HighlightTag

/-- Every style, in the order in which editors list them. -/
def all : List HighlightTag :=
  [keyword, variableName, comment, systemCommand, string, monospace, paren, squareBracket, brace]

/-- The name that an editor theme uses for the style. -/
def name : HighlightTag → String
  | keyword => "keyword"
  | variableName => "variableName"
  | comment => "comment"
  | systemCommand => "meta"
  | string => "string"
  | monospace => "monospace"
  | paren => "paren"
  | squareBracket => "squareBracket"
  | brace => "brace"

end HighlightTag

/-- What a span of a document holds. -/
inductive SpanKind where
  /-- Text for the host's own grammar. -/
  | code
  /-- From a comment sign to the end of its line. -/
  | lineComment
  /-- From an opening delimiter to the closing one that matches it, or to the document's end. -/
  | blockComment
  /-- A cell magic, which only the preamble of a document may hold. -/
  | magic
deriving DecidableEq, Repr

namespace SpanKind

/-- The number that stands for the kind where spans are stored compactly. -/
def index : SpanKind → Nat
  | code => 0
  | lineComment => 1
  | blockComment => 2
  | magic => 3

/-- Whether the kind is one of the two comments. A magic is not a comment. -/
def isComment : SpanKind → Bool
  | lineComment | blockComment => true
  | code | magic => false

/-- The style in which a span of this kind is shown. Code is shown as plain variables until the
host's grammar says more. -/
def highlight : SpanKind → HighlightTag
  | code => .variableName
  | lineComment | blockComment => .comment
  | magic => .monospace

end SpanKind

/-- A range of bytes and what it holds. -/
structure Span extends ByteRange where
  kind : SpanKind
deriving DecidableEq, Repr

/-- The sign that turns the rest of a line into a comment, for an editor's toggle-comment command.
-/
def lineCommentToken : String := "%"

end MatlabEdit
