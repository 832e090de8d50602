import Declang.Lexer
import Declang.Grammar.Production
import Declang.Arena.Integrity
import Declang.Arena.Walk
import Declang.Parse
import Declang.Snapshot.Json
import Declang.Number.Binary64
import Declang.Format
import Declang.Inspection
import Declang.Settings.Path
import Declang.Toml.Quoted
import Declang.Toml.Number
import Declang.Toml
import Declang.Settings
import Declang.Command
import Declang.Main
import Declang.Proofs.Lexeme
import Declang.Proofs.Lexeme.FirstMatch
import Declang.Proofs.Lexeme.Layout
import Declang.Proofs.Arena.Linked
import Declang.Proofs.Arena.Validity
import Declang.Proofs.Arena.Grown
import Declang.Proofs.Arena.Preorder
import Declang.Proofs.Arena.Join
import Declang.Proofs.Arena.Walk
import Declang.Proofs.Item
import Declang.Proofs.Trace
import Declang.Proofs.Grammar.Language
import Declang.Proofs.Grammar.Program
import Declang.Proofs.Grammar.Offsets
import Declang.Proofs.Parse.Clause
import Declang.Proofs.Parse.Read
import Declang.Proofs.Parse.Progress
import Declang.Proofs.Parse.Run
import Declang.Proofs.Parse.Safety
import Declang.Proofs.Parse.Unparse
import Declang.Proofs.Parse.Canonical
import Declang.Proofs.Parse.Append
import Declang.Proofs.Source
import Declang.Proofs.RoundTrip
import Declang.Proofs.Parse.Exact
import Declang.Proofs.Parse.Mismatch
import Declang.Proofs.Parse.Unclosed
import Declang.Proofs.Parse.Kinds
import Declang.Proofs.Lexeme.Longest
import Declang.Proofs.Lexeme.Failure
import Declang.Proofs.Lexeme.Append
import Declang.Proofs.Json.ReadBack
import Declang.Proofs.Snapshot.Attributes
import Declang.Proofs.Snapshot.ReadBack
import Declang.Proofs.Parse.Words
import Declang.Proofs.Rendering
import Declang.Proofs.Outline
import Declang.Proofs.Snapshot.Lossless
import Declang.Proofs.Inspection
import Declang.Proofs.Arena.Attach
import Declang.Proofs.Parse.Effect
import Declang.Proofs.Parse.Session
import Declang.Proofs.Parse.Nesting
import Declang.Proofs.Parse.Call
import Declang.Proofs.Arena.Grove
import Declang.Proofs.Snapshot.Preorder
import Declang.Proofs.Arena.Fault
import Declang.Proofs.Outline.Lines
import Declang.Proofs.Listing
import Declang.Proofs.Literal.Exact
import Declang.Proofs.Parse.Header
import Declang.Proofs.Text.ByteOrder
import Declang.Proofs.Snapshot.Canonical
import Declang.Proofs.Toml.Distinct
import Declang.Proofs.Settings.Merge
import Declang.Proofs.Settings.Setting
import Declang.Proofs.Settings.Resolution
