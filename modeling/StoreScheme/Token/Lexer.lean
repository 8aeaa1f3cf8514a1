import StoreScheme.Token.Rule

/-!
# Lexing

A text is cut into lexemes from left to right.  Where no rule matches, an invalid lexeme takes at
least one character, so lexing always comes to the end and its lexemes put together are the text.

* `nextLexeme`: the lexeme at the head of a text
* `lex`: all lexemes of a source
-/

namespace StoreScheme

/-- The result of the lexeme at the head of a text, and the number of its characters. -/
def nextLexeme (input : List Char) : Except LexError Token × Nat :=
  match Rule.best? input with
  | some (r, n) => (r.read (input.take n), n)
  | none => (.error .invalid, unmatchedLength input)

/-- Lexes from byte offset `start`, first passing over the characters of the lexeme before. -/
def lexFrom : (start skip : Nat) → List Char → List Lexeme
  | _, _, [] => []
  | start, skip + 1, _ :: cs => lexFrom start skip cs
  | start, 0, c :: cs =>
    let (result, length) := nextLexeme (c :: cs)
    let lexeme : Lexeme := ⟨result, String.ofList ((c :: cs).take length), start⟩
    lexeme :: lexFrom lexeme.stop (length - 1) cs

/-- The lexemes of a source text. -/
def lex (source : String) : List Lexeme := lexFrom 0 0 source.toList

end StoreScheme
