import StoreScheme.Datum.FoldCase
import StoreScheme.Env
import StoreScheme.Eval
import StoreScheme.Expr.OfDatum
import StoreScheme.Main
import StoreScheme.Number.Arithmetic
import StoreScheme.Primitive.Apply
import StoreScheme.Repl
import StoreScheme.Session
import StoreScheme.Snippet
import StoreScheme.Store
import StoreScheme.Token.Lexer
import StoreScheme.Token.Listing
import StoreScheme.Tree.Parser
import StoreScheme.Value.Display
import StoreScheme.Proofs.Store.Cells
import StoreScheme.Proofs.Trace.Basic
import StoreScheme.Proofs.Trace.Invariant
import StoreScheme.Proofs.Expr.WellFormed
import StoreScheme.Proofs.Expr.Reserved
import StoreScheme.Proofs.Expr.Denotes
import StoreScheme.Proofs.Session.History
import StoreScheme.Proofs.AddressSafety
import StoreScheme.Proofs.LexicalScope
import StoreScheme.Proofs.Separation
import StoreScheme.Proofs.Confinement
import StoreScheme.Proofs.Text.Bytes
import StoreScheme.Proofs.Text.Regex
import StoreScheme.Proofs.Token.Tiling
import StoreScheme.Proofs.Losslessness
import StoreScheme.Proofs.ErrorReports
import StoreScheme.Proofs.Datum.View
import StoreScheme.Proofs.Grammar
import StoreScheme.Proofs.Hygiene
import StoreScheme.Proofs.Language
import StoreScheme.Proofs.Token.Choice
import StoreScheme.Proofs.Number.Decimal
import StoreScheme.Proofs.Token.Written
import StoreScheme.Proofs.ReadBack
import StoreScheme.Proofs.Token.Seam
import StoreScheme.Proofs.Datum.Alike
import StoreScheme.Proofs.Expr.Lockstep
import StoreScheme.Proofs.Composition
import StoreScheme.Proofs.Eval.Fuel
import StoreScheme.Proofs.Eval.Renaming
import StoreScheme.Proofs.EvaluationRules
import StoreScheme.Proofs.NameIndependence
import StoreScheme.Proofs.Session.Client
import StoreScheme.Proofs.Session.Interner
import StoreScheme.Proofs.TokenValues
import StoreScheme.Proofs.UnreadSources
import StoreScheme.Proofs.Redefinition
import StoreScheme.Proofs.ExactArithmetic
import StoreScheme.Proofs.Value.Identities
import StoreScheme.Proofs.Expr.Identities
import StoreScheme.Proofs.Session.Identities
import StoreScheme.Proofs.Equality
import StoreScheme.Proofs.Eval.Renumbering
import StoreScheme.Proofs.LetApplication
import StoreScheme.Proofs.FormSequences
import StoreScheme.Proofs.Text.Apart
import StoreScheme.Proofs.Token.Overlap
import StoreScheme.Proofs.Token.Longest
import StoreScheme.Proofs.LongestMatch
import StoreScheme.Proofs.Token.Reread
import StoreScheme.Proofs.Tree.Parts
import StoreScheme.Proofs.Expr.Failures
import StoreScheme.Proofs.Rereading
import StoreScheme.Proofs.Datum.FoldCase
import StoreScheme.Proofs.Expr.Resolved
import StoreScheme.Proofs.CaseFolding
import StoreScheme.Proofs.Latest
import StoreScheme.Proofs.GlobalDefinitions
import StoreScheme.Proofs.StoreHistory
import StoreScheme.Proofs.Token.NumberText
import StoreScheme.Proofs.NumberLiterals
import StoreScheme.Proofs.Token.Escapes
import StoreScheme.Proofs.HexEscapes
import StoreScheme.Proofs.Tree.ErrorPlaces
import StoreScheme.Proofs.ErrorLabels
import StoreScheme.Proofs.ErrorSnippets
import StoreScheme.Proofs.Number.Rounding
import StoreScheme.Proofs.Comparisons
import StoreScheme.Proofs.DelimitedTokens
import StoreScheme.Proofs.Tree.Shape
import StoreScheme.Proofs.Tree.Soundness
import StoreScheme.Proofs.ErrorRecovery
