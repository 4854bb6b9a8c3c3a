import SourceEditor.Command.Program
import SourceEditor.Document.Memory
import SourceEditor.Document.Terminal
import SourceEditor.File.System
import SourceEditor.Main
import SourceEditor.Proofs.Session.Reachable
import SourceEditor.Session.Operation
import SourceEditor.Settings.Store
import SourceEditor.Syntax.Listing
import SourceEditor.Token.Listing
import SourceEditor.Proofs.Syntax.Lossless
import SourceEditor.Proofs.Syntax.TokenTree
import SourceEditor.Proofs.Syntax.Balance
import SourceEditor.Proofs.Syntax.RawTree
import SourceEditor.Proofs.Session.Colors
import SourceEditor.Proofs.Session.LockStep
import SourceEditor.Proofs.Session.Content
import SourceEditor.Proofs.Document.Terminal
import SourceEditor.Proofs.Session.Surfaces
import SourceEditor.Proofs.Session.Loading
import SourceEditor.Proofs.Document.Screen
import SourceEditor.Proofs.Command.Highlighting
import SourceEditor.Proofs.Token.Lookahead
import SourceEditor.Proofs.Highlight.Reconciliation
import SourceEditor.Proofs.Session.Failure
import SourceEditor.Proofs.Session.Highlights
import SourceEditor.Proofs.Toml.Literal
import SourceEditor.Proofs.Toml.Document
import SourceEditor.Proofs.Settings.RoundTrip
import SourceEditor.Proofs.Document.Rendering
import SourceEditor.Proofs.Document.Gutter
import SourceEditor.Proofs.Session.Steps
import SourceEditor.Proofs.Session.Parsing
import SourceEditor.Proofs.Session.Saving
import SourceEditor.Proofs.Highlight.Names
import SourceEditor.Proofs.Highlight.Gaps
import SourceEditor.Proofs.Session.Pairing
import SourceEditor.Proofs.Session.Lines
import SourceEditor.Proofs.Session.Comments
import SourceEditor.Proofs.Settings.Recent
import SourceEditor.Proofs.Token.Listing
import SourceEditor.Proofs.Text.Zipper
import SourceEditor.Proofs.Text.Buffer
import SourceEditor.Proofs.Document.Styled
import SourceEditor.Proofs.Token.Modes
import SourceEditor.Proofs.Token.LineEnds
import SourceEditor.Proofs.Text.Connection
import SourceEditor.Proofs.Token.Longest
import SourceEditor.Proofs.Token.Number
import SourceEditor.Proofs.Syntax.NodeAt
import SourceEditor.Proofs.Syntax.NodeTable
import SourceEditor.Proofs.Syntax.Preorder
import SourceEditor.Proofs.Highlight.Scan
import SourceEditor.Proofs.Settings.Format
import SourceEditor.Proofs.Toml.Table
