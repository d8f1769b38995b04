import PolicyYaml.Ascending
import PolicyYaml.Builtin.Basic
import PolicyYaml.Builtin.Catalog
import PolicyYaml.Builtin.Registry
import PolicyYaml.Builtin.Signature
import PolicyYaml.Codec.Basic
import PolicyYaml.Codec.Decode
import PolicyYaml.Codec.Encode
import PolicyYaml.Document.Anchors
import PolicyYaml.Document.BlockScalar
import PolicyYaml.Document.CharClass
import PolicyYaml.Document.Cursor
import PolicyYaml.Document.Expansion
import PolicyYaml.Document.Layout
import PolicyYaml.Document.Lexer
import PolicyYaml.Document.NameText
import PolicyYaml.Document.Node
import PolicyYaml.Document.Read
import PolicyYaml.Document.Resolve
import PolicyYaml.Document.ScalarStyle
import PolicyYaml.Document.ScalarText
import PolicyYaml.Document.Stream
import PolicyYaml.Document.Token
import PolicyYaml.Document.Tree
import PolicyYaml.Error
import PolicyYaml.Journal
import PolicyYaml.Json.Basic
import PolicyYaml.NameMap
import PolicyYaml.Number.Basic
import PolicyYaml.Number.Decimal
import PolicyYaml.Number.Double
import PolicyYaml.Number.Rounding
import PolicyYaml.Number.Shortest
import PolicyYaml.Number.Text
import PolicyYaml.Number.Width
import PolicyYaml.Proofs.Codec.Canonical
import PolicyYaml.Proofs.Codec.Failure
import PolicyYaml.Proofs.Codec.KeyOffence
import PolicyYaml.Proofs.Codec.KeyText
import PolicyYaml.Proofs.Codec.KeyWalk
import PolicyYaml.Proofs.Codec.NormalForm
import PolicyYaml.Proofs.Codec.Offence
import PolicyYaml.Proofs.Codec.ReadEntry
import PolicyYaml.Proofs.Codec.Walk
import PolicyYaml.Proofs.Document.ReadNaN
import PolicyYaml.Proofs.Document.TreeEquality
import PolicyYaml.Proofs.Number.DecimalText
import PolicyYaml.Proofs.Number.FloatText
import PolicyYaml.Proofs.Number.Interval
import PolicyYaml.Proofs.Number.Quarters
import PolicyYaml.Proofs.Number.Text
import PolicyYaml.Proofs.Text.NameOrder
import PolicyYaml.Proofs.Text.Quoted
import PolicyYaml.Proofs.Value.Equal
import PolicyYaml.Proofs.Value.Induction
import PolicyYaml.Proofs.Value.OneNaN
import PolicyYaml.Proofs.Value.Readable
import PolicyYaml.Proofs.Value.TextStart
import PolicyYaml.Proofs.Value.Undefined
import PolicyYaml.Proofs.Value.WellFormed
import PolicyYaml.Settings.Model
import PolicyYaml.Settings.Resolve
import PolicyYaml.Settings.Schema
import PolicyYaml.Settings.Toml
import PolicyYaml.Settings.TomlScalar
import PolicyYaml.Settings.TomlText
import PolicyYaml.Text.ByteOrder
import PolicyYaml.Text.Quoted
import PolicyYaml.Text.Shown
import PolicyYaml.Text.UpperCase
import PolicyYaml.Trial.Case
import PolicyYaml.Trial.Draft
import PolicyYaml.Trial.Failures
import PolicyYaml.Trial.Probe
import PolicyYaml.Trial.SampleHost
import PolicyYaml.Value.Basic
import PolicyYaml.Value.DebugText
import PolicyYaml.Value.FromJson
import PolicyYaml.Value.HashInput
import PolicyYaml.Value.Order
import PolicyYaml.Value.Text
import PolicyYaml.Value.TypeName
import PolicyYaml.Proofs.Number.Order
import PolicyYaml.Proofs.LawfulAt
import PolicyYaml.Proofs.Value.OrderLaws
import PolicyYaml.Proofs.Value.HashWrites
import PolicyYaml.Proofs.Codec.Validity
import PolicyYaml.Proofs.Codec.RawKeys
import PolicyYaml.Proofs.NameMap
import PolicyYaml.Proofs.Builtin.Merge
import PolicyYaml.Proofs.Builtin.Layers
import PolicyYaml.Proofs.Builtin.Contract
import PolicyYaml.Proofs.Codec.Nesting
import PolicyYaml.Proofs.Codec.Outcome
import PolicyYaml.Proofs.Codec.RoundTrip
import PolicyYaml.Proofs.Codec.UndefinedOffence
import PolicyYaml.Proofs.Document.Nesting
import PolicyYaml.Proofs.Document.Yields
import PolicyYaml.Proofs.Value.Nesting
import PolicyYaml.Proofs.Value.Plain
import PolicyYaml.Proofs.Number.Rounding
import PolicyYaml.Proofs.Document.ScalarValue
import PolicyYaml.Proofs.Document.Position
import PolicyYaml.Proofs.Document.PlainText
import PolicyYaml.Proofs.Document.SingleQuoted
import PolicyYaml.Proofs.Document.DoubleQuoted
import PolicyYaml.Proofs.Document.LiteralText
import PolicyYaml.Proofs.Document.Styles
import PolicyYaml.Proofs.Document.Writable
import PolicyYaml.Proofs.Document.LexerState
import PolicyYaml.Proofs.Document.LexScalar
import PolicyYaml.Proofs.Document.LexBlock
import PolicyYaml.Proofs.Document.LexKey
import PolicyYaml.Proofs.Document.LexStack
import PolicyYaml.Proofs.Document.LexNode
import PolicyYaml.Proofs.Document.WrittenTokens
import PolicyYaml.Proofs.Document.ParseTokens
import PolicyYaml.Proofs.Document.ReadBack
import PolicyYaml.Proofs.Codec.Written
import PolicyYaml.Proofs.Number.Units
import PolicyYaml.Proofs.Document.BlankText
import PolicyYaml.Proofs.Number.Exact
import PolicyYaml.Proofs.Builtin.Validation
import PolicyYaml.Proofs.Settings.Dispatch
import PolicyYaml.Proofs.Codec.JsonTree
import PolicyYaml.Proofs.Ascending
import PolicyYaml.Proofs.Value.Builders
import PolicyYaml.Proofs.Builtin.Leniency
import PolicyYaml.Proofs.Trial.FailureCases
import PolicyYaml.Proofs.Codec.PathText
import PolicyYaml.Proofs.Builtin.MergeEvents
import PolicyYaml.Proofs.Text.CommaList
import PolicyYaml.Proofs.Builtin.WantText
