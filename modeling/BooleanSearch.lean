import BooleanSearch.Command.Arguments
import BooleanSearch.Command.Basic
import BooleanSearch.Command.Error
import BooleanSearch.Command.Line
import BooleanSearch.Config.Basic
import BooleanSearch.Config.Json
import BooleanSearch.Config.Load
import BooleanSearch.Config.Location
import BooleanSearch.Config.Yaml
import BooleanSearch.Decimal.Shortest
import BooleanSearch.Field
import BooleanSearch.Http.MediaType
import BooleanSearch.Http.Router
import BooleanSearch.Json.Basic
import BooleanSearch.Json.Lexical
import BooleanSearch.Json.Numeral
import BooleanSearch.Json.Pretty
import BooleanSearch.Json.Reader
import BooleanSearch.Json.Record
import BooleanSearch.Main
import BooleanSearch.Net.SocketAddress
import BooleanSearch.Proofs.Config.Load
import BooleanSearch.Proofs.Config.Settings
import BooleanSearch.Proofs.Config.Yaml
import BooleanSearch.Proofs.Http.Answers
import BooleanSearch.Proofs.Json.Programs
import BooleanSearch.Proofs.Json.Records
import BooleanSearch.Proofs.Json.Values
import BooleanSearch.Proofs.Net.Addresses
import BooleanSearch.Proofs.Query.Conservation
import BooleanSearch.Proofs.Query.Context
import BooleanSearch.Proofs.Query.Conversion
import BooleanSearch.Proofs.Query.Depth
import BooleanSearch.Proofs.Query.Expression
import BooleanSearch.Proofs.Query.Grouping
import BooleanSearch.Proofs.Query.Infix
import BooleanSearch.Proofs.Query.Juxtaposition
import BooleanSearch.Proofs.Query.Placement
import BooleanSearch.Proofs.Query.Precedence
import BooleanSearch.Proofs.Query.Quotation
import BooleanSearch.Proofs.Query.Reduction
import BooleanSearch.Proofs.Query.Terms
import BooleanSearch.Proofs.Query.Tokens
import BooleanSearch.Proofs.Result
import BooleanSearch.Proofs.Service.Compile
import BooleanSearch.Proofs.Service.EntryPoints
import BooleanSearch.Proofs.Service.Faults
import BooleanSearch.Proofs.Service.Strictness
import BooleanSearch.Proofs.Storage.Changes
import BooleanSearch.Proofs.Storage.Openings
import BooleanSearch.Proofs.Storage.Stores
import BooleanSearch.Proofs.Storage.Walks
import BooleanSearch.Proofs.Storage.Writes
import BooleanSearch.Proofs.Target.Faithful
import BooleanSearch.Proofs.Target.Rendering
import BooleanSearch.Proofs.Target.Writing
import BooleanSearch.Proofs.Text.Trim
import BooleanSearch.Proofs.Text.Utf8
import BooleanSearch.Proofs.Text.Words
import BooleanSearch.Proofs.Yaml.Entries
import BooleanSearch.Proofs.Yaml.Mappings
import BooleanSearch.Proofs.Yaml.Scalars
import BooleanSearch.Query.Error
import BooleanSearch.Query.NodeJson
import BooleanSearch.Query.Operator
import BooleanSearch.Query.Postfix
import BooleanSearch.Query.Render
import BooleanSearch.Query.Token
import BooleanSearch.Service.Basic
import BooleanSearch.Service.Error
import BooleanSearch.Storage.Error
import BooleanSearch.Storage.FileTree
import BooleanSearch.Storage.Files
import BooleanSearch.Storage.Path
import BooleanSearch.Storage.Store
import BooleanSearch.Text.Basic
import BooleanSearch.Text.Blank
import BooleanSearch.Text.Causes
import BooleanSearch.Text.Extender
import BooleanSearch.Text.Printable
import BooleanSearch.Text.Quoted
import BooleanSearch.Text.Utf8
import BooleanSearch.Yaml.Block
import BooleanSearch.Yaml.Character
import BooleanSearch.Yaml.Lexer
import BooleanSearch.Yaml.Node
import BooleanSearch.Yaml.Plain
import BooleanSearch.Yaml.Quoted
import BooleanSearch.Yaml.Rendering
import BooleanSearch.Yaml.Space
import BooleanSearch.Yaml.Tag
import BooleanSearch.Yaml.Token
import BooleanSearch.Proofs.Query.Underflow
import BooleanSearch.Proofs.Query.Growth
import BooleanSearch.Proofs.Query.LastOperand
import BooleanSearch.Proofs.Query.Layers
import BooleanSearch.Proofs.Command.Line
import BooleanSearch.Proofs.Query.Spelling
import BooleanSearch.Proofs.Target.Negation
import BooleanSearch.Proofs.Service.Orphans
import BooleanSearch.Proofs.Query.Phrases
import BooleanSearch.Proofs.Command.Listings
import BooleanSearch.Proofs.Storage.Failures
import BooleanSearch.Proofs.Config.Failures
