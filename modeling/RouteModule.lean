import RouteModule.CommandLine
import RouteModule.Decimal
import RouteModule.Document
import RouteModule.Document.Dialect
import RouteModule.FilePath
import RouteModule.FileSystem
import RouteModule.FileSystem.Change
import RouteModule.Generation
import RouteModule.Json
import RouteModule.Json.Node
import RouteModule.Json.Reader
import RouteModule.Main
import RouteModule.Metadata
import RouteModule.Metadata.Reader
import RouteModule.Options
import RouteModule.Options.Text
import RouteModule.Program
import RouteModule.Proofs.CommandLine.Flags
import RouteModule.Proofs.CommandLine.Run
import RouteModule.Proofs.Decimal.Rounding
import RouteModule.Proofs.Decimal.Shortest
import RouteModule.Proofs.Document.Reading
import RouteModule.Proofs.Document.Success
import RouteModule.Proofs.FilePath.Forks
import RouteModule.Proofs.FilePath.Lexical
import RouteModule.Proofs.FileSystem.Lexical
import RouteModule.Proofs.FileSystem.Put
import RouteModule.Proofs.FileSystem.Walk
import RouteModule.Proofs.Generation.Confinement
import RouteModule.Proofs.Generation.Delivery
import RouteModule.Proofs.Generation.Failure
import RouteModule.Proofs.Generation.Independence
import RouteModule.Proofs.Generation.Runs
import RouteModule.Proofs.Generation.Target
import RouteModule.Proofs.ImportPath.Plain
import RouteModule.Proofs.ImportPath.Source
import RouteModule.Proofs.ImportPath.Specifier
import RouteModule.Proofs.ImportPath.Spelling
import RouteModule.Proofs.Json.Canonical
import RouteModule.Proofs.Json.Grammar
import RouteModule.Proofs.Json.Lexeme
import RouteModule.Proofs.Json.Literal
import RouteModule.Proofs.Json.Notation
import RouteModule.Proofs.Json.Numeral
import RouteModule.Proofs.Json.Render
import RouteModule.Proofs.Layout.Arguments
import RouteModule.Proofs.Layout.Constants
import RouteModule.Proofs.Layout.Content
import RouteModule.Proofs.Layout.Literals
import RouteModule.Proofs.Layout.Models
import RouteModule.Proofs.Layout.Module
import RouteModule.Proofs.Layout.Quiet
import RouteModule.Proofs.Layout.Scope
import RouteModule.Proofs.Layout.Security
import RouteModule.Proofs.Layout.Tree
import RouteModule.Proofs.Layout.Wording
import RouteModule.Proofs.Metadata.Fallback
import RouteModule.Proofs.Metadata.Held
import RouteModule.Proofs.Metadata.Reordering
import RouteModule.Proofs.Metadata.RoundTrip
import RouteModule.Proofs.Metadata.Sift
import RouteModule.Proofs.Metadata.Stability
import RouteModule.Proofs.Metadata.Written
import RouteModule.Proofs.Options.RoundTrip
import RouteModule.Proofs.Options.Sublanguage
import RouteModule.Proofs.Overlap.Alike
import RouteModule.Proofs.Overlap.Bare
import RouteModule.Proofs.Overlap.Coerced
import RouteModule.Proofs.Overlap.Document
import RouteModule.Proofs.Overlap.Grammar
import RouteModule.Proofs.Overlap.Leftover
import RouteModule.Proofs.Overlap.Lexemes
import RouteModule.Proofs.Overlap.Nodes
import RouteModule.Proofs.Overlap.Number
import RouteModule.Proofs.Overlap.Quoted
import RouteModule.Proofs.Overlap.Scan
import RouteModule.Proofs.Overlap.Steps
import RouteModule.Proofs.Program.Transcript
import RouteModule.Proofs.RouteContext.Paths
import RouteModule.Proofs.RoutePath.Cut
import RouteModule.Proofs.RoutePath.FullPath
import RouteModule.Proofs.RoutePath.Groups
import RouteModule.Proofs.RoutePath.Normal
import RouteModule.Proofs.RoutePath.Parameters
import RouteModule.Proofs.Script.Literal
import RouteModule.Proofs.Table
import RouteModule.Proofs.Template.Form
import RouteModule.Proofs.Template.Key
import RouteModule.Proofs.Template.Lookup
import RouteModule.Proofs.Template.Operand
import RouteModule.Proofs.Template.Prints
import RouteModule.Proofs.Text.Encoding
import RouteModule.Proofs.Text.Occurrences
import RouteModule.Proofs.Text.Trim
import RouteModule.Proofs.Toml.Document
import RouteModule.Proofs.Toml.Quoted
import RouteModule.Proofs.Yaml.Cursor
import RouteModule.Proofs.Yaml.Literal
import RouteModule.Proofs.Yaml.Plain
import RouteModule.Proofs.Yaml.Quoted
import RouteModule.Proofs.Yaml.Scanner
import RouteModule.Proofs.Yaml.Tree
import RouteModule.RouteContext
import RouteModule.RoutePath
import RouteModule.Table
import RouteModule.Template.Bundled
import RouteModule.Template.Expr
import RouteModule.Template.Expr.Reader
import RouteModule.Template.Meaning
import RouteModule.Template.Node
import RouteModule.Template.Output
import RouteModule.Template.Piece
import RouteModule.Template.Scope
import RouteModule.Text
import RouteModule.Text.Cluster
import RouteModule.Text.Quoted
import RouteModule.Text.Upper
import RouteModule.Text.Word
import RouteModule.Toml.Quoted
import RouteModule.Toml.Reader
import RouteModule.Toml.Scalar
import RouteModule.Yaml.Plain
import RouteModule.Yaml.Printer
import RouteModule.Yaml.Token
import RouteModule.Yaml.Token.Scalar
import RouteModule.Yaml.Token.Scanner
import RouteModule.Yaml.Tree
