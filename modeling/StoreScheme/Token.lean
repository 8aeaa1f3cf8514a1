import StoreScheme.Number.Basic
import StoreScheme.Text.Span

/-!
# Tokens

What a source text is made of.  Blanks, line ends, comments and directives are tokens too, so that
the tokens of a text together are the text.

* `Token`: the tokens and the values they carry
* `LexError`: why a piece of text is not a token
* `Lexeme`: a token or an error, with its text and its place
-/

namespace StoreScheme

/-- Switches case folding of identifiers on or off for the text that follows. -/
inductive Directive
  | foldCase
  | noFoldCase
deriving Repr, DecidableEq

inductive Token
  | whitespace
  | lineEnding
  | comment
  | directive (d : Directive)
  | openParen
  | closeParen
  | quote
  | dot
  | identifier (name : String)
  | boolean (b : Bool)
  | string (s : String)
  | number (n : Number)
deriving Repr, DecidableEq

/-- Trivia never contributes to a datum. -/
def Token.isTrivia : Token → Bool
  | .whitespace | .lineEnding | .comment | .directive _ => true
  | _ => false

inductive LexError
  | invalid
  | malformedIdentifier
  | invalidCodepoint (code : Nat)
  | invalidDirective (name : String)
  | malformedString
  | malformedNumber
  | numberTooBig
deriving Repr, DecidableEq

def LexError.message : LexError → String
  | .invalid => "invalid token encountered"
  | .malformedIdentifier => "malformed identifier"
  | .invalidCodepoint code => s!"invalid Unicode codepoint: {code}"
  | .invalidDirective name => s!"invalid directive: {name}"
  | .malformedString => "malformed string"
  | .malformedNumber => "malformed number"
  | .numberTooBig => "number literal too big"

/-- A piece of the source: the token it is, or why it is none. -/
structure Lexeme where
  result : Except LexError Token
  text : String
  start : Nat

namespace Lexeme

/-- The offset just after the lexeme. -/
def stop (l : Lexeme) : Nat := l.start + l.text.utf8ByteSize

def span (l : Lexeme) : Span := ⟨l.start, l.stop⟩

end Lexeme

end StoreScheme
