import StoreScheme.Text.Regex
import StoreScheme.Token.Escape

/-!
# Token rules

Each rule has a pattern and a way to read the text that it matches.  At every position the rule with
the longest match is used, and of several with the same length the one that is listed first: the
two known directives come before all others, and the signed infinities and NaNs before identifiers.

There is one exception, which no pattern states.  The lexer is generated from the patterns and reads
byte by byte.  Where the first byte behind a known directive could continue a directive, it goes on
with the rule for other directives, and when the rest of the character does not fit, it falls back to
what that rule has matched so far.  This is the text of the known directive, which then counts as an
unknown one.

* `Rule.pattern`: the texts of a rule
* `Rule.mayPrecede`: which rests of a text may follow a match
* `Rule.read`: the token, or the error, that a matched text gives
* `Rule.match?`: the length of a rule's match at the head of a text
* `Rule.best?`: the rule used at the head of a text, with the length of its match
* `unmatchedLength`: how far an invalid token reaches where no rule matches
-/

namespace StoreScheme

inductive Rule
  | whitespace
  | lineEnding
  | comment
  | foldCase
  | noFoldCase
  | otherDirective
  | openParen
  | closeParen
  | quote
  | dot
  | specialReal
  | identifier
  | barIdentifier
  | sign
  | signedIdentifier
  | signedDotIdentifier
  | dotIdentifier
  | trueLiteral
  | falseLiteral
  | string
  | integer
  | pointReal
  | fractionReal
  | exponentReal
deriving Repr, DecidableEq

namespace Rule

/-! ## Character classes -/

def digit : CharClass := .range '0' '9'

def letter : CharClass := .range 'a' 'z' ++ .range 'A' 'Z'

/-- Starts an identifier. -/
def identifierStart : CharClass := letter ++ .ofString "!$%&*/:<=>?^_~"

/-- Follows a sign or a point at the start of an identifier. -/
def afterSign : CharClass := identifierStart ++ .ofString "+-@"

def afterDot : CharClass := afterSign ++ .ofString "."

/-- Continues an identifier. -/
def identifierPart : CharClass := afterDot ++ digit

/-- Continues the name of a directive. -/
def directivePart : CharClass := letter ++ digit ++ .ofString "-ſ\u212a"

/-- The characters whose UTF-8 form has the same first byte as one that continues a directive:
besides these themselves, the ones that share it with the long s and with the Kelvin sign.  No pattern
has this class; it is what a lexer that reads byte by byte cannot tell apart at the first byte. -/
def directivePartLead : CharClass :=
  directivePart ++ .range '\u0140' '\u017f' ++ .range '\u2000' '\u2fff'

/-- A letter in either case.  The long s and the Kelvin sign are cases of `s` and `k`. -/
def caseless (c : Char) : CharClass :=
  let both : CharClass := ⟨[(c.toLower, c.toLower), (c.toUpper, c.toUpper)], false⟩
  match c with
  | 's' => both ++ .ofString "ſ"
  | 'k' => both ++ .ofString "\u212a"
  | _ => both

/-! ## Patterns -/

def caselessText (t : String) : Regex :=
  .cat (t.toList.map fun c => .chars (caseless c))

def signs : Regex := .chars (.ofString "+-")

def digits : Regex := .plus (.chars digit)

def identifierTail : Regex := .star (.chars identifierPart)

def exponent : Regex :=
  .cat [.chars (.ofString "eE"), .optional signs, digits]

/-- One item of a string: an ordinary character or a backslash and a character it may precede. -/
def stringItem : Regex :=
  .alt (.chars (.noneOf "\\\"")) (.seq (.text "\\") (.chars (.ofString "abntr\"\\xX \t\r\n")))

def pattern : Rule → Regex
  | whitespace => .plus (.chars (.ofString " \t"))
  | lineEnding => .alt (.text "\n") (.alt (.text "\r\n") (.text "\r"))
  | comment => .seq (.text ";") (.star (.chars (.noneOf "\r\n")))
  | foldCase => caselessText "#!fold-case"
  | noFoldCase => caselessText "#!no-fold-case"
  | otherDirective => .seq (.text "#!") (.plus (.chars directivePart))
  | openParen => .text "("
  | closeParen => .text ")"
  | quote => .text "'"
  | dot => .text "."
  | specialReal => .cat [signs, .alt (caselessText "inf") (caselessText "nan"), .text ".0"]
  | identifier => .seq (.chars identifierStart) identifierTail
  | barIdentifier => .cat [.text "|", .star (.chars (.noneOf "|")), .text "|"]
  | sign => signs
  | signedIdentifier => .cat [signs, .chars afterSign, identifierTail]
  | signedDotIdentifier => .cat [signs, .text ".", .chars afterDot, identifierTail]
  | dotIdentifier => .cat [.text ".", .chars afterDot, identifierTail]
  | trueLiteral => .seq (caselessText "#t") (.optional (caselessText "rue"))
  | falseLiteral => .seq (caselessText "#f") (.optional (caselessText "alse"))
  | string => .cat [.text "\"", .star stringItem, .text "\""]
  | integer => .seq (.optional signs) digits
  | pointReal =>
    .cat [.optional signs, digits, .text ".", .star (.chars digit), .optional exponent]
  | fractionReal => .cat [.optional signs, .text ".", digits, .optional exponent]
  | exponentReal => .cat [.optional signs, digits, exponent]

/-- All rules, those to be preferred first. -/
def all : List Rule :=
  [whitespace, lineEnding, comment, foldCase, noFoldCase, otherDirective, openParen, closeParen,
    quote, dot, specialReal, identifier, barIdentifier, sign, signedIdentifier, signedDotIdentifier,
    dotIdentifier, trueLiteral, falseLiteral, string, integer, pointReal, fractionReal,
    exponentReal]

/-! ## Reading matched texts -/

def readInteger (cs : List Char) : Except LexError Token :=
  let (negative, ds) := Decimal.takeSign cs
  match Number.ofInt? (Binary64.signed negative (Decimal.ofDigits ds)) with
  | some n => .ok (.number n)
  | none => .error .numberTooBig

def readReal (cs : List Char) : Except LexError Token :=
  match Decimal.read? cs with
  | some x => .ok (.number (.real x))
  | none => .error .malformedNumber

def readSpecialReal (cs : List Char) : Except LexError Token :=
  match String.ofList (cs.map Char.toLower) with
  | "+inf.0" => .ok (.number (.real (.infinity false)))
  | "-inf.0" => .ok (.number (.real (.infinity true)))
  | "+nan.0" | "-nan.0" => .ok (.number (.real .nan))
  | _ => .error .malformedNumber

/-- The token of a matched text, or the error that its content gives. -/
def read (r : Rule) (cs : List Char) : Except LexError Token :=
  match r with
  | whitespace => .ok .whitespace
  | lineEnding => .ok .lineEnding
  | comment => .ok .comment
  | foldCase => .ok (.directive .foldCase)
  | noFoldCase => .ok (.directive .noFoldCase)
  | otherDirective => .error (.invalidDirective (String.ofList (cs.drop 2)))
  | openParen => .ok .openParen
  | closeParen => .ok .closeParen
  | quote => .ok .quote
  | dot => .ok .dot
  | identifier | sign | signedIdentifier | signedDotIdentifier | dotIdentifier =>
    .ok (.identifier (String.ofList cs))
  | barIdentifier => (Delimited.barIdentifier.decode cs).map .identifier
  | trueLiteral => .ok (.boolean true)
  | falseLiteral => .ok (.boolean false)
  | string => (Delimited.string.decode cs).map .string
  | integer => readInteger cs
  | pointReal | fractionReal | exponentReal => readReal cs
  | specialReal => readSpecialReal cs

/-! ## Choosing a rule -/

/-- Whether a match of a rule may be followed by the rest of a text.

This is not part of any pattern but the way in which the generated lexer falls back.  Once it has read
the first byte of a character that continues a directive, it follows only `otherDirective`.  If the
other bytes are not those of such a character, that rule's match is the one it falls back to, and no
longer the match of the known directive with the same text. -/
def mayPrecede : Rule → List Char → Bool
  | foldCase, c :: _ => !directivePartLead.contains c
  | noFoldCase, c :: _ => !directivePartLead.contains c
  | _, _ => true

/-- The length of a rule's longest match at the head of a text, if that may stand there. -/
def match? (r : Rule) (input : List Char) : Option Nat :=
  (r.pattern.longest? input).filter fun n => r.mayPrecede (input.drop n)

/-- The better of the best match so far and the match of one more rule: only a longer one wins. -/
def prefer (input : List Char) (best : Option (Rule × Nat)) (r : Rule) : Option (Rule × Nat) :=
  match r.match? input, best with
  | some n, some (_, m) => if m < n then some (r, n) else best
  | some n, none => some (r, n)
  | none, _ => best

/-- The rule with the longest match at the head of a text, the first of several. -/
def best? (input : List Char) : Option (Rule × Nat) := all.foldl (prefer input) none

end Rule

/-- What an invalid token takes after its first character: after a double quote the string items
that follow, after a bar everything up to the next bar, and nothing otherwise. -/
def unmatchedTail : Char → Regex
  | '"' => .star Rule.stringItem
  | '|' => .star (.chars (.noneOf "|"))
  | _ => .epsilon

/-- The length of the invalid token at the head of a text that no rule matches. -/
def unmatchedLength : List Char → Nat
  | [] => 0
  | c :: cs => 1 + ((unmatchedTail c).longest? cs).getD 0

end StoreScheme
