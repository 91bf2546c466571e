import LexicalScoping.Analysis
import LexicalScoping.CommandLine
import LexicalScoping.Decimal.Binary64
import LexicalScoping.Decimal.Shortest
import LexicalScoping.Diagnostic.Basic
import LexicalScoping.Diagnostic.Excerpt
import LexicalScoping.Grammar.Expression
import LexicalScoping.Grammar.Parse
import LexicalScoping.Grammar.Rules
import LexicalScoping.Grammar.Statement
import LexicalScoping.Main
import LexicalScoping.Proofs.Diagnostic.Caret
import LexicalScoping.Proofs.Diagnostic.Seen
import LexicalScoping.Proofs.Grammar.Alike
import LexicalScoping.Proofs.Grammar.AlikeRules
import LexicalScoping.Proofs.Grammar.Complete
import LexicalScoping.Proofs.Grammar.Covers
import LexicalScoping.Proofs.Grammar.Derivation
import LexicalScoping.Proofs.Grammar.Derived
import LexicalScoping.Proofs.Grammar.Ensures
import LexicalScoping.Proofs.Grammar.Extents
import LexicalScoping.Proofs.Grammar.Faithful
import LexicalScoping.Proofs.Grammar.Grouping
import LexicalScoping.Proofs.Grammar.Levels
import LexicalScoping.Proofs.Grammar.Lookahead
import LexicalScoping.Proofs.Grammar.LookaheadRules
import LexicalScoping.Proofs.Grammar.Nodes
import LexicalScoping.Proofs.Grammar.Places
import LexicalScoping.Proofs.Grammar.Progress
import LexicalScoping.Proofs.Grammar.RebuildExpression
import LexicalScoping.Proofs.Grammar.RebuildStatement
import LexicalScoping.Proofs.Grammar.Rebuilds
import LexicalScoping.Proofs.Grammar.Shape
import LexicalScoping.Proofs.Grammar.Sound
import LexicalScoping.Proofs.Grammar.Spans
import LexicalScoping.Proofs.Grammar.Spelling
import LexicalScoping.Proofs.Grammar.Standing
import LexicalScoping.Proofs.Grammar.Steady
import LexicalScoping.Proofs.Grammar.SteadyRules
import LexicalScoping.Proofs.Scope.AlikeWalk
import LexicalScoping.Proofs.Scope.Blame
import LexicalScoping.Proofs.Scope.Bound
import LexicalScoping.Proofs.Scope.Calls
import LexicalScoping.Proofs.Scope.Compose
import LexicalScoping.Proofs.Scope.Declared
import LexicalScoping.Proofs.Scope.Diagnosed
import LexicalScoping.Proofs.Scope.Exact
import LexicalScoping.Proofs.Scope.Gains
import LexicalScoping.Proofs.Scope.Listing
import LexicalScoping.Proofs.Scope.Log
import LexicalScoping.Proofs.Scope.Lookup
import LexicalScoping.Proofs.Scope.Nesting
import LexicalScoping.Proofs.Scope.Numbering
import LexicalScoping.Proofs.Scope.Order
import LexicalScoping.Proofs.Scope.Outline
import LexicalScoping.Proofs.Scope.Pieces
import LexicalScoping.Proofs.Scope.Receiver
import LexicalScoping.Proofs.Scope.Renamed
import LexicalScoping.Proofs.Scope.Sites
import LexicalScoping.Proofs.Scope.TextOrder
import LexicalScoping.Proofs.Source.Lines
import LexicalScoping.Proofs.Token.Layout
import LexicalScoping.Proofs.Token.Literals
import LexicalScoping.Proofs.Token.Longest
import LexicalScoping.Proofs.Token.Munch
import LexicalScoping.Proofs.Token.Quotes
import LexicalScoping.Proofs.Token.Read
import LexicalScoping.Scope.Bindings
import LexicalScoping.Scope.Context
import LexicalScoping.Scope.Event
import LexicalScoping.Scope.Resolve
import LexicalScoping.Scope.Stack
import LexicalScoping.Source.Line
import LexicalScoping.Source.Position
import LexicalScoping.Text.Blank
import LexicalScoping.Text.Quoted
import LexicalScoping.Text.Visible
import LexicalScoping.Token.Basic
import LexicalScoping.Token.Kind
import LexicalScoping.Token.Lexeme
import LexicalScoping.Token.Lexer
import LexicalScoping.Tree.Basic
import LexicalScoping.Proofs.Token.Joined
import LexicalScoping.Proofs.Grammar.RefusalRules
import LexicalScoping.Proofs.Source.Cutting
import LexicalScoping.Proofs.Scope.History
import LexicalScoping.Proofs.Token.Supply
