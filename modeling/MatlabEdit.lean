import MatlabEdit.Byte
import MatlabEdit.ByteRange
import MatlabEdit.Span
import MatlabEdit.Source.Encoding
import MatlabEdit.Source.Basic
import MatlabEdit.Cursor.Basic
import MatlabEdit.Cursor.Skip
import MatlabEdit.Cursor.Lookaround
import MatlabEdit.Phase
import MatlabEdit.Comment.SingleLine
import MatlabEdit.Comment.Block
import MatlabEdit.Comment.Rule
import MatlabEdit.Scanner.Basic
import MatlabEdit.Scanner.Progress
import MatlabEdit.Scanner.Run
import MatlabEdit.Keyword
import MatlabEdit.Text.CharRange
import MatlabEdit.Text.WhiteSpace
import MatlabEdit.Text.WordRanges
import MatlabEdit.Text.WordChar
import MatlabEdit.Text.Line
import MatlabEdit.Indent.LinePattern
import MatlabEdit.Indent.Config
import MatlabEdit.Indent.Column
import MatlabEdit.Indent.Layout
import MatlabEdit.Proofs.Delimiter
import MatlabEdit.Proofs.BlockLine
import MatlabEdit.Proofs.Outline
import MatlabEdit.Proofs.LineByLine
import MatlabEdit.Proofs.Encoded
import MatlabEdit.Proofs.TameText
import MatlabEdit.Proofs.CommentLines
import MatlabEdit.Proofs.Shown
import MatlabEdit.Proofs.ReindentTokens
import MatlabEdit.Proofs.WellNested
import MatlabEdit.Proofs.Canonical
import MatlabEdit.Proofs.Coverage
import MatlabEdit.Proofs.Aligned
import MatlabEdit.Proofs.Preamble
import MatlabEdit.Proofs.Restart
import MatlabEdit.Proofs.Margins
import MatlabEdit.Proofs.LineRole
import MatlabEdit.Proofs.WhiteSpaceOnly
import MatlabEdit.Proofs.Levels
import MatlabEdit.Proofs.Mark
import MatlabEdit.Proofs.PhaseNames
import MatlabEdit.Proofs.Settled
import MatlabEdit.Proofs.MarkedLayout
import MatlabEdit.Proofs.Segments
import MatlabEdit.Proofs.Matching
import MatlabEdit.Proofs.CharBoundary
import MatlabEdit.Proofs.ColumnBounds
import MatlabEdit.Proofs.Commit
import MatlabEdit.Proofs.LineLanguage
import MatlabEdit.Proofs.Standalone
import MatlabEdit.Proofs.Slices
import MatlabEdit.Proofs.RawCursor
import MatlabEdit.Proofs.NestingDepth
import MatlabEdit.Proofs.RawScanner
import MatlabEdit.Proofs.RawHost
