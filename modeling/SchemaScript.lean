import SchemaScript.Collection.Basic
import SchemaScript.Collection.Shell
import SchemaScript.CommandLine.Arguments
import SchemaScript.CommandLine.Run
import SchemaScript.Decimal.Range
import SchemaScript.Decimal.Shortest
import SchemaScript.Delivery.Basic
import SchemaScript.Delivery.Disk
import SchemaScript.Dialect.Basic
import SchemaScript.Dialect.Profile
import SchemaScript.Dialect.Wire
import SchemaScript.Entries
import SchemaScript.Export.Date
import SchemaScript.Export.Options
import SchemaScript.Export.Service
import SchemaScript.Export.Toml
import SchemaScript.Json.Fault
import SchemaScript.Json.Lexeme
import SchemaScript.Json.Printer
import SchemaScript.Json.Reader
import SchemaScript.Json.Refusal
import SchemaScript.Json.Value
import SchemaScript.Main
import SchemaScript.Model.Column
import SchemaScript.Model.Document
import SchemaScript.Model.Table
import SchemaScript.Model.Wire
import SchemaScript.Proofs.Collection.Attempt
import SchemaScript.Proofs.Collection.Command
import SchemaScript.Proofs.Collection.CommandText
import SchemaScript.Proofs.Collection.Comment
import SchemaScript.Proofs.Collection.Indentation
import SchemaScript.Proofs.Collection.Partition
import SchemaScript.Proofs.Collection.Passage
import SchemaScript.Proofs.Collection.SampleDocument
import SchemaScript.Proofs.Collection.ShellText
import SchemaScript.Proofs.CommandLine.Export
import SchemaScript.Proofs.Delivery.Calls
import SchemaScript.Proofs.Delivery.Directory
import SchemaScript.Proofs.Delivery.GeneratedName
import SchemaScript.Proofs.Delivery.Path
import SchemaScript.Proofs.Delivery.Replace
import SchemaScript.Proofs.Dialect.Selector
import SchemaScript.Proofs.Entries
import SchemaScript.Proofs.Export.Clean
import SchemaScript.Proofs.Export.Dropped
import SchemaScript.Proofs.Export.Filename
import SchemaScript.Proofs.Export.Idle
import SchemaScript.Proofs.Export.Locality
import SchemaScript.Proofs.Export.Log
import SchemaScript.Proofs.Export.Outcome
import SchemaScript.Proofs.Export.Steps
import SchemaScript.Proofs.Export.Unresolved
import SchemaScript.Proofs.Json.Datum
import SchemaScript.Proofs.Json.LexemeEnd
import SchemaScript.Proofs.Json.LexemeLayout
import SchemaScript.Proofs.Json.ReadBack
import SchemaScript.Proofs.Json.Spelling
import SchemaScript.Proofs.Json.Squeezed
import SchemaScript.Proofs.Json.StringText
import SchemaScript.Proofs.Json.ValueEnd
import SchemaScript.Proofs.Json.ValueLayout
import SchemaScript.Proofs.Model.Document
import SchemaScript.Proofs.Model.Idle
import SchemaScript.Proofs.Model.RoundTrip
import SchemaScript.Proofs.Model.Steps
import SchemaScript.Proofs.Review.Circles
import SchemaScript.Proofs.Review.MissingColumn
import SchemaScript.Proofs.Review.Names
import SchemaScript.Proofs.Review.Reachability
import SchemaScript.Proofs.Review.Tables
import SchemaScript.Proofs.Script.ConstraintName
import SchemaScript.Proofs.Script.Description
import SchemaScript.Proofs.Script.ForeignKey
import SchemaScript.Proofs.Script.Identifier
import SchemaScript.Proofs.Script.Integrity
import SchemaScript.Proofs.Script.KeyOrder
import SchemaScript.Proofs.Script.Lexeme
import SchemaScript.Proofs.Script.LineMark
import SchemaScript.Proofs.Script.Literal
import SchemaScript.Proofs.Script.Numbering
import SchemaScript.Proofs.Script.Phrase
import SchemaScript.Proofs.Script.PrimaryKey
import SchemaScript.Proofs.Script.Quotation
import SchemaScript.Proofs.Script.QuotedName
import SchemaScript.Proofs.Script.Segment
import SchemaScript.Proofs.Script.Share
import SchemaScript.Proofs.Script.Statements
import SchemaScript.Proofs.Script.TableName
import SchemaScript.Proofs.Script.Unique
import SchemaScript.Proofs.Text.Case
import SchemaScript.Proofs.Text.Infix
import SchemaScript.Proofs.Text.Intercalate
import SchemaScript.Proofs.Text.LowerCase
import SchemaScript.Proofs.Text.Trim
import SchemaScript.Proofs.Types.Classification
import SchemaScript.Proofs.Types.Conversion
import SchemaScript.Proofs.Types.Division
import SchemaScript.Proofs.Types.Native
import SchemaScript.Proofs.Types.Normalization
import SchemaScript.Proofs.Types.Parameters
import SchemaScript.Proofs.Wire.Record
import SchemaScript.Review.References
import SchemaScript.Review.Report
import SchemaScript.Review.Tables
import SchemaScript.Script.ColumnLine
import SchemaScript.Script.Constraint
import SchemaScript.Script.Scope
import SchemaScript.Script.Statement
import SchemaScript.Text.Blank
import SchemaScript.Text.Case
import SchemaScript.Text.CaseTable
import SchemaScript.Text.Digits
import SchemaScript.Text.Hex
import SchemaScript.Text.Lines
import SchemaScript.Text.Path
import SchemaScript.Text.Quoted
import SchemaScript.Text.Visible
import SchemaScript.Toml.Lexeme
import SchemaScript.Toml.Quantity
import SchemaScript.Toml.Reader
import SchemaScript.Toml.Value
import SchemaScript.Types.Native
import SchemaScript.Types.Storage
import SchemaScript.Types.Token
import SchemaScript.Wire.Choice
import SchemaScript.Wire.Codec
import SchemaScript.Wire.Record
import SchemaScript.Yaml.Cursor
import SchemaScript.Yaml.Layout
import SchemaScript.Yaml.Node
import SchemaScript.Yaml.Reader
import SchemaScript.Yaml.Scalar
import SchemaScript.Yaml.Token
import SchemaScript.Yaml.Tree
