import GraphCalc.Command.Options
import GraphCalc.Command.Run
import GraphCalc.Command.Version
import GraphCalc.Compile.Context
import GraphCalc.Compile.Error
import GraphCalc.Compile.Expr
import GraphCalc.Compile.Layer
import GraphCalc.Compile.Logged
import GraphCalc.Compile.Program
import GraphCalc.Compile.Session
import GraphCalc.Compile.Signature
import GraphCalc.Compile.Source
import GraphCalc.Failure
import GraphCalc.Files.Error
import GraphCalc.Files.Host
import GraphCalc.Files.Output
import GraphCalc.Files.Path
import GraphCalc.Files.Tree
import GraphCalc.Files.World
import GraphCalc.Globals.Declarations
import GraphCalc.Globals.Document
import GraphCalc.Main
import GraphCalc.NameMap
import GraphCalc.Output.Formula
import GraphCalc.Output.Latex
import GraphCalc.Output.Outline
import GraphCalc.Proofs.Syntax.Grammar
import GraphCalc.Proofs.Syntax.Reading
import GraphCalc.Source.Span
import GraphCalc.Syntax.Basic
import GraphCalc.Syntax.Error
import GraphCalc.Syntax.Line
import GraphCalc.Syntax.Parser
import GraphCalc.Syntax.Printer
import GraphCalc.Text.Base64
import GraphCalc.Text.Listing
import GraphCalc.Text.Printable
import GraphCalc.Text.Quoted
import GraphCalc.Text.Utf16
import GraphCalc.Text.Utf8
import GraphCalc.Token.Basic
import GraphCalc.Token.Lexer
import GraphCalc.ValueType
import GraphCalc.Yaml.Document
import GraphCalc.Yaml.Node
import GraphCalc.Yaml.Place
import GraphCalc.Yaml.Property
import GraphCalc.Yaml.Reader
import GraphCalc.Yaml.Scalar
import GraphCalc.Yaml.Scan
import GraphCalc.Yaml.Tag
import GraphCalc.Yaml.Timestamp
import GraphCalc.Yaml.Token
import GraphCalc.Proofs.Syntax.Completeness
import GraphCalc.Proofs.Syntax.Soundness
import GraphCalc.Proofs.Syntax.Unambiguity
import GraphCalc.Proofs.Syntax.Acceptance
import GraphCalc.Proofs.Syntax.Spelling
import GraphCalc.Proofs.Syntax.RoundTrip
import GraphCalc.Proofs.Compile.Typing
import GraphCalc.Proofs.Output.Glyph
import GraphCalc.Proofs.Output.Layout
import GraphCalc.Proofs.Output.Congruence
import GraphCalc.Proofs.Output.Reading
import GraphCalc.Proofs.Output.Readability
import GraphCalc.Proofs.Compile.Session
import GraphCalc.Proofs.Compile.Faultless
import GraphCalc.Proofs.Token.Tiling
import GraphCalc.Proofs.Token.Offsets
import GraphCalc.Proofs.Syntax.Trees
import GraphCalc.Proofs.Syntax.Places
import GraphCalc.Proofs.Token.Lines
import GraphCalc.Proofs.Syntax.Composition
import GraphCalc.Proofs.Syntax.BlankLines
import GraphCalc.Proofs.Syntax.LineOutcomes
import GraphCalc.Proofs.Syntax.SpanTree
import GraphCalc.Proofs.Compile.Places
import GraphCalc.Proofs.Compile.Mentions
import GraphCalc.Proofs.Compile.Scoping
import GraphCalc.Proofs.Compile.Recursion
import GraphCalc.Proofs.Compile.Flatness
import GraphCalc.Proofs.Compile.Independence
import GraphCalc.Proofs.Files.Following
import GraphCalc.Proofs.Files.Replacement
import GraphCalc.Proofs.Command.Completion
import GraphCalc.Proofs.Compile.Mapping
import GraphCalc.Proofs.Compile.Stages
import GraphCalc.Proofs.Compile.Blame
import GraphCalc.Proofs.Output.Parts
import GraphCalc.Proofs.Output.Writing
import GraphCalc.Proofs.Output.Brackets
import GraphCalc.Proofs.Output.Exposure
import GraphCalc.Proofs.Output.Precedence
import GraphCalc.Proofs.Output.Factors
import GraphCalc.Proofs.Output.Juxtaposition
import GraphCalc.Proofs.Output.Lines
import GraphCalc.Proofs.Compile.Names
import GraphCalc.Proofs.Compile.Parameters
import GraphCalc.Proofs.Token.Runs
import GraphCalc.Proofs.Token.Insertion
import GraphCalc.Proofs.Token.LineEnds
import GraphCalc.Proofs.Globals.Resolution
import GraphCalc.Proofs.Token.Progress
import GraphCalc.Proofs.Syntax.Calls
import GraphCalc.Proofs.Syntax.Termination
