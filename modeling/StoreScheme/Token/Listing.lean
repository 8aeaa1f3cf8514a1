import StoreScheme.Text.Unprintable
import StoreScheme.Token

/-!
# Token listings

The name of a token with the value it carries, as a token listing shows it.
-/

namespace StoreScheme

def Directive.listing : Directive → String
  | .foldCase => "FoldCase"
  | .noFoldCase => "NoFoldCase"

namespace Token

/-- The name of a token. -/
def name : Token → String
  | .whitespace => "IntralineWhitespace"
  | .lineEnding => "LineEnding"
  | .comment => "Comment"
  | .directive _ => "Directive"
  | .openParen => "LParen"
  | .closeParen => "RParen"
  | .quote => "Quote"
  | .dot => "Dot"
  | .identifier _ => "Identifier"
  | .boolean _ => "Boolean"
  | .string _ => "String"
  | .number _ => "Number"

/-- The value of a token in a listing. -/
def payload? : Token → Option String
  | .directive d => some d.listing
  | .identifier name => some (Unprintable.showString name)
  | .boolean b => some (if b then "true" else "false")
  | .string s => some (Unprintable.showString s)
  | .number n => some n.listing
  | _ => none

/-- A token in a listing. -/
def listing (t : Token) : String :=
  match t.payload? with
  | some value => s!"{t.name}({value})"
  | none => t.name

end Token

end StoreScheme
