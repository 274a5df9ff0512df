import InferTrace.Analysis
import InferTrace.Calendar
import InferTrace.Command.Arguments
import InferTrace.Command.Basic
import InferTrace.Command.Run
import InferTrace.Command.Usage
import InferTrace.Config.Basic
import InferTrace.Config.Fault
import InferTrace.Config.Load
import InferTrace.Config.SetOrder
import InferTrace.Config.Value
import InferTrace.Diagnostic
import InferTrace.Expr.Basic
import InferTrace.Expr.Export
import InferTrace.Expr.Parser
import InferTrace.Files
import InferTrace.Json.Reader
import InferTrace.Json.Value
import InferTrace.Json.Writer
import InferTrace.Main
import InferTrace.Notice
import InferTrace.Number.Binary64
import InferTrace.Number.Digits
import InferTrace.Number.Shortest
import InferTrace.Outcome
import InferTrace.Proofs.Command.FrontEnd
import InferTrace.Proofs.Config.Loading
import InferTrace.Proofs.Ends
import InferTrace.Proofs.Export.Decoding
import InferTrace.Proofs.Export.Lossless
import InferTrace.Proofs.Expr.Completeness
import InferTrace.Proofs.Expr.Exact
import InferTrace.Proofs.Expr.Feed
import InferTrace.Proofs.Expr.File
import InferTrace.Proofs.Expr.FirstFault
import InferTrace.Proofs.Expr.Free
import InferTrace.Proofs.Expr.Grammar
import InferTrace.Proofs.Expr.Limit
import InferTrace.Proofs.Expr.Lookahead
import InferTrace.Proofs.Expr.Place
import InferTrace.Proofs.Expr.Plan
import InferTrace.Proofs.Expr.Progress
import InferTrace.Proofs.Expr.Rejoined
import InferTrace.Proofs.Expr.Soundness
import InferTrace.Proofs.Expr.Source
import InferTrace.Proofs.History
import InferTrace.Proofs.Json.RoundTrip
import InferTrace.Proofs.Json.Scalars
import InferTrace.Proofs.Knowledge
import InferTrace.Proofs.Limit
import InferTrace.Proofs.Outcome
import InferTrace.Proofs.Printing
import InferTrace.Proofs.Store.Above
import InferTrace.Proofs.Store.Alike
import InferTrace.Proofs.Store.Compression
import InferTrace.Proofs.Store.Finite
import InferTrace.Proofs.Store.FreeVars
import InferTrace.Proofs.Store.Growth
import InferTrace.Proofs.Store.Links
import InferTrace.Proofs.Store.Shortening
import InferTrace.Proofs.Token.Calls
import InferTrace.Proofs.Token.Joined
import InferTrace.Proofs.Token.Lexemes
import InferTrace.Proofs.Token.Munch
import InferTrace.Proofs.Token.Sight
import InferTrace.Proofs.Token.Spaced
import InferTrace.Proofs.Token.Strictness
import InferTrace.Proofs.Trace.Account
import InferTrace.Proofs.Trace.Alike
import InferTrace.Proofs.Trace.Follows
import InferTrace.Proofs.Trace.Limit
import InferTrace.Proofs.Trace.Renaming
import InferTrace.Proofs.Trace.Replay
import InferTrace.Proofs.Trace.Script
import InferTrace.Proofs.Trace.Steps
import InferTrace.Proofs.Trace.Undefined
import InferTrace.Proofs.Trace.Uniform
import InferTrace.Proofs.Trace.Visits
import InferTrace.Proofs.Ty.Tree
import InferTrace.Proofs.Typing.Principal
import InferTrace.Proofs.Typing.Rules
import InferTrace.Proofs.Typing.Soundness
import InferTrace.Proofs.Typing.Variants
import InferTrace.Proofs.Unify.Above
import InferTrace.Proofs.Unify.Alike
import InferTrace.Proofs.Unify.Calls
import InferTrace.Proofs.Unify.Depth
import InferTrace.Proofs.Unify.Idle
import InferTrace.Proofs.Unify.Levels
import InferTrace.Proofs.Unify.Order
import InferTrace.Proofs.Unify.Solution
import InferTrace.Proofs.Unify.Symmetry
import InferTrace.Report
import InferTrace.Script
import InferTrace.Session
import InferTrace.Source.Location
import InferTrace.Text.Base64
import InferTrace.Text.Blank
import InferTrace.Text.Digit
import InferTrace.Text.Lower
import InferTrace.Text.Newline
import InferTrace.Text.Points
import InferTrace.Text.Printable
import InferTrace.Text.Quoted
import InferTrace.Text.Upper
import InferTrace.Token.Basic
import InferTrace.Token.Scanner
import InferTrace.Trace
import InferTrace.Ty.Basic
import InferTrace.Ty.Nesting
import InferTrace.Ty.Scope
import InferTrace.Ty.Store
import InferTrace.Ty.Unify
import InferTrace.Workbench
import InferTrace.Yaml.Atom
import InferTrace.Yaml.Node
import InferTrace.Yaml.Scalar
import InferTrace.Yaml.Tag
import InferTrace.Yaml.Timestamp
import InferTrace.Yaml.Token
import InferTrace.Yaml.Value
import InferTrace.Proofs.Expr.Points
import InferTrace.Config.Decoders
