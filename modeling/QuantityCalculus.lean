import QuantityCalculus.AngleMode
import QuantityCalculus.CommandLine.Conversation
import QuantityCalculus.CommandLine.Options
import QuantityCalculus.Evaluation
import QuantityCalculus.Expr.Basic
import QuantityCalculus.Expr.Children
import QuantityCalculus.Expr.FreeNames
import QuantityCalculus.Expr.Grouping
import QuantityCalculus.Expr.Written
import QuantityCalculus.Failure
import QuantityCalculus.FileTree
import QuantityCalculus.Function.Basic
import QuantityCalculus.Function.Written
import QuantityCalculus.JsonValue.Basic
import QuantityCalculus.JsonValue.Reading
import QuantityCalculus.JsonValue.Written
import QuantityCalculus.LogLine
import QuantityCalculus.Magnitude
import QuantityCalculus.Main
import QuantityCalculus.Number.Binary64
import QuantityCalculus.Number.BinaryScalar
import QuantityCalculus.Number.Complex
import QuantityCalculus.Number.Elementary
import QuantityCalculus.Number.Factor
import QuantityCalculus.Number.FixedPoint
import QuantityCalculus.Number.Generator
import QuantityCalculus.Number.Ratio
import QuantityCalculus.Number.Reading
import QuantityCalculus.Number.Rounding
import QuantityCalculus.Number.Scalar
import QuantityCalculus.Number.Shortest
import QuantityCalculus.Number.Shown
import QuantityCalculus.Number.Wide
import QuantityCalculus.Number.Written
import QuantityCalculus.Plot
import QuantityCalculus.Proofs.Arithmetic.Binary
import QuantityCalculus.Proofs.Arithmetic.Brackets
import QuantityCalculus.Proofs.Arithmetic.Exact
import QuantityCalculus.Proofs.Arithmetic.Finite
import QuantityCalculus.Proofs.Arithmetic.Negation
import QuantityCalculus.Proofs.Arithmetic.NormalForm
import QuantityCalculus.Proofs.Arithmetic.Rationals
import QuantityCalculus.Proofs.Arithmetic.Reals
import QuantityCalculus.Proofs.Decimals.Factors
import QuantityCalculus.Proofs.Decimals.Literals
import QuantityCalculus.Proofs.Decimals.Nearest
import QuantityCalculus.Proofs.Decimals.Parts
import QuantityCalculus.Proofs.Decimals.ReadingBack
import QuantityCalculus.Proofs.Decimals.Shortest
import QuantityCalculus.Proofs.Decimals.Spelled
import QuantityCalculus.Proofs.Evaluation.Agreement
import QuantityCalculus.Proofs.Evaluation.CallScope
import QuantityCalculus.Proofs.Evaluation.Congruence
import QuantityCalculus.Proofs.Evaluation.Cycles
import QuantityCalculus.Proofs.Evaluation.ExactLiterals
import QuantityCalculus.Proofs.Evaluation.Machine
import QuantityCalculus.Proofs.Evaluation.NormalResults
import QuantityCalculus.Proofs.Evaluation.PairedScopes
import QuantityCalculus.Proofs.Evaluation.PlainValue
import QuantityCalculus.Proofs.Evaluation.Resolution
import QuantityCalculus.Proofs.Evaluation.Substitution
import QuantityCalculus.Proofs.Evaluation.Unwatched
import QuantityCalculus.Proofs.Grammar.Completeness
import QuantityCalculus.Proofs.Grammar.Derivation
import QuantityCalculus.Proofs.Grammar.Descriptor
import QuantityCalculus.Proofs.Grammar.Parentheses
import QuantityCalculus.Proofs.Grammar.Recognition
import QuantityCalculus.Proofs.Grammar.Soundness
import QuantityCalculus.Proofs.Names.Equations
import QuantityCalculus.Proofs.Names.Missing
import QuantityCalculus.Proofs.Names.Needed
import QuantityCalculus.Proofs.Names.Reached
import QuantityCalculus.Proofs.Names.Search
import QuantityCalculus.Proofs.Names.Unknown
import QuantityCalculus.Proofs.Plot
import QuantityCalculus.Proofs.ReadingBack.Built
import QuantityCalculus.Proofs.ReadingBack.Display
import QuantityCalculus.Proofs.ReadingBack.Grouped
import QuantityCalculus.Proofs.ReadingBack.Levels
import QuantityCalculus.Proofs.ReadingBack.Meaning
import QuantityCalculus.Proofs.ReadingBack.Regrouping
import QuantityCalculus.Proofs.ReadingBack.WrittenAgain
import QuantityCalculus.Proofs.Runs
import QuantityCalculus.Proofs.ScopeViews
import QuantityCalculus.Proofs.Scopes
import QuantityCalculus.Proofs.Session.Actions
import QuantityCalculus.Proofs.Session.Clearing
import QuantityCalculus.Proofs.Session.Markup
import QuantityCalculus.Proofs.Session.Refusals
import QuantityCalculus.Proofs.Session.SavedCalls
import QuantityCalculus.Proofs.Session.Stack
import QuantityCalculus.Proofs.Session.Steps
import QuantityCalculus.Proofs.Session.UnitScopes
import QuantityCalculus.Proofs.Solution.Independence
import QuantityCalculus.Proofs.Solution.Inversion
import QuantityCalculus.Proofs.Solution.Parts
import QuantityCalculus.Proofs.Solution.Rebinding
import QuantityCalculus.Proofs.Solution.Rebuilding
import QuantityCalculus.Proofs.Solution.Ways
import QuantityCalculus.Proofs.SortedNames
import QuantityCalculus.Proofs.Source.Cursor
import QuantityCalculus.Proofs.Source.CursorReading
import QuantityCalculus.Proofs.Source.Exponents
import QuantityCalculus.Proofs.Source.Nesting
import QuantityCalculus.Proofs.Source.Openings
import QuantityCalculus.Proofs.Source.PreparedRuns
import QuantityCalculus.Proofs.Source.SpacedTokens
import QuantityCalculus.Proofs.Source.Spacing
import QuantityCalculus.Proofs.Source.SuperscriptMeaning
import QuantityCalculus.Proofs.Source.Superscripts
import QuantityCalculus.Proofs.Source.Tiling
import QuantityCalculus.Proofs.Storage.CatalogLoading
import QuantityCalculus.Proofs.Storage.ConstantLines
import QuantityCalculus.Proofs.Storage.ConstantsAgain
import QuantityCalculus.Proofs.Storage.FunctionFiles
import QuantityCalculus.Proofs.Storage.FunctionLines
import QuantityCalculus.Proofs.Storage.FunctionRoundTrip
import QuantityCalculus.Proofs.Storage.FunctionTexts
import QuantityCalculus.Proofs.Storage.History
import QuantityCalculus.Proofs.Storage.JsonText
import QuantityCalculus.Proofs.Storage.Keepable
import QuantityCalculus.Proofs.Storage.Loading
import QuantityCalculus.Proofs.Storage.Places
import QuantityCalculus.Proofs.Storage.Reopening
import QuantityCalculus.Proofs.Storage.Restart
import QuantityCalculus.Proofs.Storage.Restoring
import QuantityCalculus.Proofs.Storage.Saving
import QuantityCalculus.Proofs.Storage.SettingsAgain
import QuantityCalculus.Proofs.Storage.SettingsText
import QuantityCalculus.Proofs.Storage.Starting
import QuantityCalculus.Proofs.Storage.TopLevel
import QuantityCalculus.Proofs.Storage.Trees
import QuantityCalculus.Proofs.Storage.UnitFiles
import QuantityCalculus.Proofs.Tables
import QuantityCalculus.Proofs.Units.Casts
import QuantityCalculus.Proofs.Units.Closure
import QuantityCalculus.Proofs.Units.Contents
import QuantityCalculus.Proofs.Units.Dimensions
import QuantityCalculus.Proofs.Units.Documented
import QuantityCalculus.Proofs.Units.FileOrder
import QuantityCalculus.Proofs.Units.InPlace
import QuantityCalculus.Proofs.Units.Journal
import QuantityCalculus.Proofs.Units.Labels
import QuantityCalculus.Proofs.Units.Products
import QuantityCalculus.Proofs.Units.Reachable
import QuantityCalculus.Proofs.Units.RelationTables
import QuantityCalculus.Proofs.Units.Scalings
import QuantityCalculus.Proofs.Units.Writing
import QuantityCalculus.Proofs.Written.Cutting
import QuantityCalculus.Proofs.Written.Literal
import QuantityCalculus.Proofs.Written.Recovery
import QuantityCalculus.Proofs.Written.Settling
import QuantityCalculus.Proofs.Written.Spelling
import QuantityCalculus.Proofs.Written.Symbol
import QuantityCalculus.Quantity
import QuantityCalculus.Report
import QuantityCalculus.Report.Value
import QuantityCalculus.Scope
import QuantityCalculus.Session.Basic
import QuantityCalculus.Session.Command
import QuantityCalculus.Session.Editing
import QuantityCalculus.Session.Line
import QuantityCalculus.Session.Listing
import QuantityCalculus.Session.MissingNames
import QuantityCalculus.Session.Start
import QuantityCalculus.Solution
import QuantityCalculus.Source.Brackets
import QuantityCalculus.Source.Prepared
import QuantityCalculus.Source.Statement
import QuantityCalculus.Source.Token
import QuantityCalculus.Storage.Catalogs
import QuantityCalculus.Storage.Constants
import QuantityCalculus.Storage.Functions
import QuantityCalculus.Storage.LoadFault
import QuantityCalculus.Storage.Settings
import QuantityCalculus.Table
import QuantityCalculus.Term.Arithmetic
import QuantityCalculus.Term.Basic
import QuantityCalculus.Term.Function
import QuantityCalculus.Term.Identity
import QuantityCalculus.Term.OfExpr
import QuantityCalculus.Term.Replacement
import QuantityCalculus.Term.Sign
import QuantityCalculus.Term.Value
import QuantityCalculus.Text.Blank
import QuantityCalculus.Text.CharacterSet
import QuantityCalculus.Text.DecimalDigit
import QuantityCalculus.Text.Identifier
import QuantityCalculus.Text.LowerCase
import QuantityCalculus.Text.Ordering
import QuantityCalculus.Text.Printable
import QuantityCalculus.Text.Quoted
import QuantityCalculus.Text.WordCharacter
import QuantityCalculus.Units.Basic
import QuantityCalculus.Units.Batch
import QuantityCalculus.Units.Declaration
import QuantityCalculus.Units.Registry
import QuantityCalculus.Verification
