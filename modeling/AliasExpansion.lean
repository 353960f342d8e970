import AliasExpansion.Text.CharClass
import AliasExpansion.Text.Letter
import AliasExpansion.Text.Number
import AliasExpansion.Text.Blank
import AliasExpansion.Text.Word
import AliasExpansion.Text.Printable
import AliasExpansion.Text.Case
import AliasExpansion.Text.Quoted
import AliasExpansion.Text.Numeral
import AliasExpansion.Text.Words
import AliasExpansion.Text.Slug
import AliasExpansion.Digest.Blake2b
import AliasExpansion.Token.Basic
import AliasExpansion.Token.Render
import AliasExpansion.Token.Literal
import AliasExpansion.Syntax.Fault
import AliasExpansion.Token.Lexeme
import AliasExpansion.Token.Tree
import AliasExpansion.Syntax.Name
import AliasExpansion.Syntax.Rule
import AliasExpansion.Syntax.Nonterminal
import AliasExpansion.Syntax.Grammar.Lookahead
import AliasExpansion.Syntax.Grammar.Path
import AliasExpansion.Syntax.Grammar.TypeForm
import AliasExpansion.Syntax.Grammar.Expression
import AliasExpansion.Syntax.Grammar.Pattern
import AliasExpansion.Syntax.Grammar.Statement
import AliasExpansion.Syntax.Grammar.Item
import AliasExpansion.Syntax.Grammar
import AliasExpansion.Syntax.Check
import AliasExpansion.Syntax.Split
import AliasExpansion.Value.Type
import AliasExpansion.Error
import AliasExpansion.Value.Basic
import AliasExpansion.Value.Coercion
import AliasExpansion.Value.Classify
import AliasExpansion.Value.Cast
import AliasExpansion.Function.Signature
import AliasExpansion.Function.Library
import AliasExpansion.Notice.Basic
import AliasExpansion.Token.Parts
import AliasExpansion.Invocation.Expr
import AliasExpansion.Invocation.Basic
import AliasExpansion.Invocation.Reader
import AliasExpansion.Invocation.Loops
import AliasExpansion.Table
import AliasExpansion.Scope
import AliasExpansion.Resolution
import AliasExpansion.Evaluation
import AliasExpansion.Traversal.Frames
import AliasExpansion.Traversal.Visitor
import AliasExpansion.Substitution.Placeholder
import AliasExpansion.Substitution.Basic
import AliasExpansion.Notice.Placement
import AliasExpansion.Expansion
import AliasExpansion.Text.Lines
import AliasExpansion.Settings.Document
import AliasExpansion.Settings.Basic
import AliasExpansion.CommandLine
import AliasExpansion.Main
import AliasExpansion.Proofs.Substitution.Sites
import AliasExpansion.Proofs.Substitution.Stepwise
import AliasExpansion.Proofs.Resolution.Assignment
import AliasExpansion.Proofs.Resolution.Scopes
import AliasExpansion.Proofs.Resolution.Attempts
import AliasExpansion.Proofs.Resolution.Calls
import AliasExpansion.Proofs.Resolution.Optimal
import AliasExpansion.Proofs.Reading.Combinations
import AliasExpansion.Proofs.Evaluation.Typed
import AliasExpansion.Proofs.Resolution.Bindings
import AliasExpansion.Proofs.Resolution.Visits
import AliasExpansion.Proofs.Evaluation.Soundness
import AliasExpansion.Proofs.Evaluation.Independence
import AliasExpansion.Proofs.Reading.Legacy
import AliasExpansion.Proofs.Grammar.Arms
import AliasExpansion.Proofs.Grammar.Boundary
import AliasExpansion.Proofs.Grammar.Previous
import AliasExpansion.Proofs.Grammar.Exchange
import AliasExpansion.Proofs.Grammar.Insertion
import AliasExpansion.Proofs.Grammar.Budget
import AliasExpansion.Proofs.Grammar.Body
import AliasExpansion.Proofs.Notice.Marks
import AliasExpansion.Proofs.Grammar.Likeness
import AliasExpansion.Proofs.Substitution.Renaming
import AliasExpansion.Proofs.Notice.Attached
import AliasExpansion.Proofs.Notice.Emission
import AliasExpansion.Proofs.Lexing.Quoted
import AliasExpansion.Proofs.Lexing.First
import AliasExpansion.Proofs.Lexing.Scan
import AliasExpansion.Proofs.Lexing.RoundTrip
import AliasExpansion.Proofs.Failures.Evaluation
import AliasExpansion.Proofs.Failures.Expansion
import AliasExpansion.Proofs.Grammar.Angles
import AliasExpansion.Proofs.Grammar.Spelling
import AliasExpansion.Proofs.Notice.Acceptance
import AliasExpansion.Proofs.Loops.Product
import AliasExpansion.Proofs.Grammar.Ending
import AliasExpansion.Proofs.Grammar.Truncation
import AliasExpansion.Proofs.Lexing.Comments
import AliasExpansion.Proofs.Lexing.WhiteSpace
import AliasExpansion.Proofs.Lexing.Strings
import AliasExpansion.Proofs.Statement.Concatenation
import AliasExpansion.Proofs.Statement.Division
import AliasExpansion.Proofs.Resolution.Traces
import AliasExpansion.Proofs.Traversal.Rewriting
import AliasExpansion.Proofs.Value.Coercion
import AliasExpansion.Proofs.Substitution.Placeholders
import AliasExpansion.Proofs.Function.Identifiers
import AliasExpansion.Proofs.Function.Concatenation
import AliasExpansion.Proofs.Text.SnakeCase
import AliasExpansion.Proofs.Lexing.Brackets
import AliasExpansion.Proofs.Reading.Equals
import AliasExpansion.Proofs.Lexing.Positions
import AliasExpansion.Proofs.Lexing.Integers
import AliasExpansion.Proofs.Statement.Qualifier
import AliasExpansion.Proofs.Grammar.Termination
