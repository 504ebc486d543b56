import Interlude.Bundle.Decode
import Interlude.Bundle.Load
import Interlude.Bundle.Statement
import Interlude.Bundle.Typing
import Interlude.Cli.Command
import Interlude.Cli.Data
import Interlude.Cli.Flag
import Interlude.Cli.Help
import Interlude.Cli.Listing
import Interlude.Cli.Run
import Interlude.Config
import Interlude.Config.Settings
import Interlude.Context
import Interlude.Document.Config
import Interlude.Document.Failure
import Interlude.Document.Frame
import Interlude.Document.Render
import Interlude.Document.Server
import Interlude.Document.Template
import Interlude.Document.Value
import Interlude.Failure
import Interlude.Failure.Collector
import Interlude.File.Path
import Interlude.File.Tree
import Interlude.Filter
import Interlude.Frame.Cell
import Interlude.Frame.Slot
import Interlude.Future
import Interlude.Json.Basic
import Interlude.Json.Reader
import Interlude.Json.Writer
import Interlude.Log
import Interlude.Main
import Interlude.Markup.Clean
import Interlude.Markup.Entity
import Interlude.Markup.EntityTable
import Interlude.Markup.Token
import Interlude.Number.Arith
import Interlude.Number.Format
import Interlude.Number.Literal
import Interlude.Number.Read
import Interlude.Output.Outlet
import Interlude.Output.Sink
import Interlude.Output.Stream
import Interlude.Program.Basic
import Interlude.Program.Compile
import Interlude.Registry
import Interlude.Registry.Holder
import Interlude.Render.Drive
import Interlude.Render.Exec
import Interlude.Render.Operand
import Interlude.Render.Run
import Interlude.Render.Store
import Interlude.Server
import Interlude.Server.Bindings
import Interlude.Server.Handshake
import Interlude.Server.Hub
import Interlude.Server.Message
import Interlude.Server.Route
import Interlude.StaticType
import Interlude.Suspension
import Interlude.Template.Basic
import Interlude.Template.Expr
import Interlude.Template.Plan
import Interlude.Term.Basic
import Interlude.Term.Eval
import Interlude.Term.Lower
import Interlude.Term.Operator
import Interlude.Text.Alphanumeric
import Interlude.Text.Case
import Interlude.Text.Case.Class
import Interlude.Text.Case.Mapping
import Interlude.Text.Csv
import Interlude.Text.Pattern
import Interlude.Text.Printable
import Interlude.Text.Quoted
import Interlude.Text.Search
import Interlude.Text.Space
import Interlude.Text.Utf8
import Interlude.Time.Instant
import Interlude.Time.Duration
import Interlude.Url
import Interlude.Value.Basic
import Interlude.Value.Box
import Interlude.Value.Coerce
import Interlude.Value.Json
import Interlude.Value.Text
import Interlude.Version
import Interlude.Watch.Reloader
import Interlude.Watch.Scope
import Interlude.Yaml.Cursor
import Interlude.Yaml.Node.Datum
import Interlude.Yaml.Node
import Interlude.Yaml.Node.Read
import Interlude.Yaml.Scalar
import Interlude.Yaml.Token
import Interlude.Yaml.Token.Scalar
import Interlude.Yaml.Token.Scan
import Interlude.Yaml.Writer
import Interlude.Proofs.Future
import Interlude.Proofs.Eval.Congruence
import Interlude.Proofs.Eval.Lasting
import Interlude.Proofs.Term.Lower
import Interlude.Proofs.Eval.Frame
import Interlude.Proofs.Frame.Slots
import Interlude.Proofs.Program.Build
import Interlude.Proofs.Program.Compile
import Interlude.Proofs.Program.Valid
import Interlude.Proofs.Render.Call
import Interlude.Proofs.Render.Reachable
import Interlude.Proofs.Expr.Sound
import Interlude.Proofs.Resume.Call
import Interlude.Proofs.Resume.Course
import Interlude.Proofs.Resume.Run
import Interlude.Proofs.Value.Plain
import Interlude.Proofs.Eval.Plain
import Interlude.Proofs.Eval.Promise
import Interlude.Proofs.Expr.Prompt
import Interlude.Proofs.Render.Calm
import Interlude.Proofs.Resume.Drive
import Interlude.Proofs.Registry.Watching
import Interlude.Proofs.Registry.Choice
import Interlude.Proofs.Render.Range
import Interlude.Proofs.Server.Hub
import Interlude.Proofs.Render.LifeCycle
import Interlude.Proofs.Eval.Operand
import Interlude.Proofs.Suspension.Expr
import Interlude.Proofs.Suspension.Instr
import Interlude.Proofs.Suspension.Body
import Interlude.Proofs.Filter.Streaming
import Interlude.Proofs.Expr.Boxed
import Interlude.Proofs.Direct.Call
import Interlude.Proofs.Direct.Render
import Interlude.Proofs.Read.Once
import Interlude.Proofs.Output.Writer
import Interlude.Proofs.Type.Notation
import Interlude.Proofs.Expr.Position
import Interlude.Proofs.Eval.Renumber
import Interlude.Proofs.Output.Receive
import Interlude.Proofs.Source.Follow
import Interlude.Proofs.Source.Demand
import Interlude.Proofs.Source.Made
import Interlude.Proofs.Source.Render
import Interlude.Proofs.Bundle.Default
import Interlude.Proofs.Bundle.Nesting
import Interlude.Proofs.Value.Entries
import Interlude.Proofs.Frame.Ledger
import Interlude.Proofs.Term.Memo
import Interlude.Proofs.File.Path
import Interlude.Proofs.Watch.Scope
import Interlude.Proofs.Future.Chain
