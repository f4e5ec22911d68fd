import Offside.Text.Basic
import Offside.Text.Rune
import Offside.Text.Printable
import Offside.Text.Quoted
import Offside.Diagnostic
import Offside.Token
import Offside.Layout
import Offside.Lexer.Lexeme
import Offside.Lexer.Scanner
import Offside.Lexer.OnDemand
import Offside.Log
import Offside.Rule
import Offside.Scope
import Offside.Number.Binary64
import Offside.Number.Shortest
import Offside.Number.Reader
import Offside.Number.Rounded
import Offside.Value.Basic
import Offside.Value.Arithmetic
import Offside.Tree.Basic
import Offside.Tree.JavaScript
import Offside.Tree.Evaluation
import Offside.Tree.Outline
import Offside.Text.Closeness
import Offside.Text.Base64
import Offside.Text.Alphanumeric
import Offside.Parser.Cursor
import Offside.Parser.Expression
import Offside.Parser.Statement
import Offside.Compile
import Offside.Fingerprint.Cbor
import Offside.Fingerprint.Blake2b
import Offside.Fingerprint.Basic
import Offside.Engine.Cache
import Offside.Engine.Basic
import Offside.Template.Basic
import Offside.Template.Constant
import Offside.Template.Item
import Offside.Template.Parser
import Offside.Template.Datum
import Offside.Template.Print
import Offside.Template.Function
import Offside.Template.Execution
import Offside.Wrapper
import Offside.Document.Basic
import Offside.Document.Json
import Offside.Yaml.Character
import Offside.Yaml.Source
import Offside.Yaml.Token
import Offside.Yaml.Token.Stream
import Offside.Yaml.Token.Scalar
import Offside.Yaml.Token.Property
import Offside.Yaml.Token.Next
import Offside.Yaml.Timestamp
import Offside.Yaml.Meaning
import Offside.Yaml.Node
import Offside.Yaml.Node.Reader
import Offside.Yaml.Node.Value
import Offside.Yaml.Writer
import Offside.Rule.External
import Offside.Version
import Offside.Config.Schema
import Offside.Config.Basic
import Offside.Files.Path
import Offside.Files.Basic
import Offside.Config.File
import Offside.Command.Arguments
import Offside.Command.Basic
import Offside.Main
import Offside.Proofs.Grammar.Basic
import Offside.Proofs.Grammar.Expression
import Offside.Proofs.Grammar.Symbols
import Offside.Proofs.Grammar.Statement
import Offside.Proofs.Grammar.Trees
import Offside.Proofs.Resolution
import Offside.Proofs.Lexer.Run
import Offside.Proofs.Lexer.Order
import Offside.Proofs.Parser.Reader
import Offside.Proofs.Parser.Expression
import Offside.Proofs.Parser.Statement
import Offside.Proofs.Parser.Compound
import Offside.Proofs.Parser.Program
import Offside.Proofs.Rules
import Offside.Proofs.Scoping.Judgement
import Offside.Proofs.Scoping.Reading
import Offside.Proofs.Scoping.UndefinedNames
import Offside.Proofs.Lexer.Lexeme
import Offside.Proofs.Rendering.Grouping
import Offside.Proofs.Rendering.Pieces
import Offside.Proofs.Lexer.Pieces
import Offside.Proofs.JavaScript.Lexer
import Offside.Proofs.Grammar.Unambiguous
import Offside.Proofs.JavaScript.Grammar
import Offside.Proofs.JavaScript.Reading
import Offside.Proofs.JavaScript.Code
import Offside.Proofs.JavaScript.Emission
import Offside.Proofs.JavaScript.Redeclaration
import Offside.Proofs.JavaScript.Reach
import Offside.Proofs.RoundTrip
import Offside.Proofs.Text
import Offside.Proofs.RuleEffect
import Offside.Proofs.Fingerprint.Encoding
import Offside.Proofs.Fingerprint.Request
import Offside.Proofs.Engine.Cache
import Offside.Proofs.Engine.Interleaving
import Offside.Proofs.Engine.Transparency
import Offside.Proofs.Lexer.Grammar
import Offside.Proofs.Lexer.Spelling
import Offside.Proofs.Lexer.Tiling
import Offside.Proofs.Lexer.Canonical
import Offside.Proofs.Lexer.Lines
import Offside.Proofs.Lexer.Concatenation
import Offside.Proofs.Grammar.Blocks
import Offside.Proofs.Parser.Blocks
import Offside.Proofs.Parser.Counting
import Offside.Proofs.Parser.Depth
import Offside.Proofs.Tree.Numbers
import Offside.Proofs.Tree.WellFormed
import Offside.Proofs.Tree.Rounds
import Offside.Proofs.Tree.Safety
import Offside.Proofs.Value.Words
import Offside.Proofs.Value.Power
import Offside.Proofs.Value.Arithmetic
import Offside.Proofs.Tree.Literals
import Offside.Proofs.JavaScript.Literals
import Offside.Proofs.Scoping.SymbolTable
import Offside.Proofs.Lexer.OnDemand
import Offside.Proofs.Parser.Telemetry
import Offside.Proofs.Lexer.Places
import Offside.Proofs.Parser.Excerpt
import Offside.Proofs.Scoping.Blame
import Offside.Proofs.Lexer.BlankLines
import Offside.Proofs.Lexer.Calls
import Offside.Proofs.Lexer.Widths
import Offside.Proofs.Lexer.Recovery
import Offside.Proofs.Grammar.Binders
import Offside.Proofs.Tree.Headings
import Offside.Proofs.Tree.Outline
