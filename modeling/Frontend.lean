import Frontend.CommandLine.Options
import Frontend.CommandLine.Run
import Frontend.Error
import Frontend.Grammar.Dump
import Frontend.Grammar.Parser
import Frontend.Grammar.Program
import Frontend.Grammar.SyntaxError
import Frontend.Grammar.Tree
import Frontend.Handler
import Frontend.Main
import Frontend.Pipeline
import Frontend.Proofs.Grammar.Account
import Frontend.Proofs.Grammar.Derivation
import Frontend.Proofs.Grammar.Nesting
import Frontend.Proofs.Grammar.Operations
import Frontend.Proofs.Grammar.Predictive
import Frontend.Proofs.Grammar.Printing
import Frontend.Proofs.Grammar.Recognition
import Frontend.Proofs.Grammar.Steps
import Frontend.Proofs.Grammar.Suggestion
import Frontend.Proofs.Grammar.ViablePrefix
import Frontend.Proofs.Provider.Decoding
import Frontend.Proofs.Provider.Memory
import Frontend.Proofs.Provider.NormalForm
import Frontend.Proofs.Provider.Path
import Frontend.Proofs.Reporting
import Frontend.Proofs.Source.LineTable
import Frontend.Proofs.Source.Lines
import Frontend.Proofs.Source.Location
import Frontend.Proofs.Source.Reached
import Frontend.Proofs.Source.Spans
import Frontend.Proofs.Source.Underline
import Frontend.Proofs.Spans
import Frontend.Proofs.Stream.BestEffort
import Frontend.Proofs.Stream.Composition
import Frontend.Proofs.Stream.Cover
import Frontend.Proofs.Stream.Layout
import Frontend.Proofs.Stream.LineBreak
import Frontend.Proofs.Stream.LineEnding
import Frontend.Proofs.Stream.Pieces
import Frontend.Proofs.Stream.Placed
import Frontend.Proofs.Stream.Spaced
import Frontend.Proofs.Stream.Spelling
import Frontend.Proofs.Stream.Truncation
import Frontend.Proofs.Stream.WhiteSpace
import Frontend.Proofs.Text.Between
import Frontend.Proofs.Text.EditDistance
import Frontend.Proofs.Text.Utf8
import Frontend.Proofs.Token.Alone
import Frontend.Proofs.Token.Boundary
import Frontend.Proofs.Token.CharLiteral
import Frontend.Proofs.Token.Classes
import Frontend.Proofs.Token.CommentEnd
import Frontend.Proofs.Token.Escapes
import Frontend.Proofs.Token.LineEnding
import Frontend.Proofs.Token.Literals
import Frontend.Proofs.Token.LongestMatch
import Frontend.Proofs.Token.NumberGrammar
import Frontend.Proofs.Token.Numbers
import Frontend.Proofs.Token.Progress
import Frontend.Proofs.Token.Radix
import Frontend.Proofs.Token.Reading
import Frontend.Proofs.Token.Rereading
import Frontend.Provider.Basic
import Frontend.Provider.FileTree
import Frontend.Provider.Memory
import Frontend.Provider.Path
import Frontend.Source.Cursor
import Frontend.Source.Excerpt
import Frontend.Source.File
import Frontend.Source.Span
import Frontend.Stream.Basic
import Frontend.Stream.LexicalError
import Frontend.Text.Dump
import Frontend.Text.EditDistance
import Frontend.Text.Offset
import Frontend.Text.Quoted
import Frontend.Text.Style
import Frontend.Text.Utf8
import Frontend.Token.Basic
import Frontend.Token.Comment
import Frontend.Token.Dump
import Frontend.Token.Keyword
import Frontend.Token.Leading
import Frontend.Token.Number
import Frontend.Token.Punctuation
import Frontend.Token.Quote
import Frontend.Token.Reading
import Frontend.Token.Scan
import Frontend.Unicode.Classes
import Frontend.Unicode.DecimalDigit
import Frontend.Unicode.Extending
import Frontend.Unicode.Letter
import Frontend.Unicode.Unprintable
