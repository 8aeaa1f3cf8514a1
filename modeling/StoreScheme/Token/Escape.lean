import StoreScheme.Token

/-!
# Escapes in delimited tokens

Strings and identifiers between bars share one decoder.  Each kind of token says which character
closes it, which letters stand for other characters after a backslash, and whether a backslash
before blanks and line ends joins lines.  Both know the escape `\x…;` for a character by its code
in hexadecimal.

* `Delimited.escape`: one escape, read after its backslash
* `Delimited.decode`: the characters that a delimited token stands for
-/

namespace StoreScheme

/-- The value of a hexadecimal digit. -/
def hexDigit? (c : Char) : Option Nat :=
  if '0' ≤ c ∧ c ≤ '9' then some (c.toNat - '0'.toNat)
  else if 'a' ≤ c ∧ c ≤ 'f' then some (c.toNat - 'a'.toNat + 10)
  else if 'A' ≤ c ∧ c ≤ 'F' then some (c.toNat - 'A'.toNat + 10)
  else none

/-- The character with a given code; surrogates and codes above `0x10ffff` have none. -/
def charOfCode (code : Nat) : Except LexError Char :=
  if code.isValidChar then .ok (Char.ofNat code) else .error (.invalidCodepoint code)

/-- A kind of token that stands between two delimiters. -/
structure Delimited where
  close : Char
  letters : List (Char × Char)
  joinsLines : Bool
  malformed : LexError

namespace Delimited

def string : Delimited where
  close := '"'
  letters := [('a', '\x07'), ('b', '\x08'), ('t', '\t'), ('n', '\n'), ('r', '\r'), ('"', '"'),
    ('\\', '\\')]
  joinsLines := true
  malformed := .malformedString

def barIdentifier : Delimited where
  close := '|'
  letters := []
  joinsLines := false
  malformed := .malformedIdentifier

/-- The largest code of 32 bits, which stands for all that are larger. -/
def maxCode : Nat := 0xffffffff

/-- Reads hexadecimal digits up to a semicolon: gives the character they denote and adds the number
of characters read to `used`. -/
def hexEscape (k : Delimited) (code used : Nat) : List Char → Except LexError (Char × Nat)
  | [] => .error k.malformed
  | c :: cs =>
    if c = ';' then (charOfCode code).map fun character => (character, used + 1)
    else match hexDigit? c with
      | none => .error k.malformed
      | some digit =>
        let next := 16 * code + digit
        if next ≤ maxCode then hexEscape k next (used + 1) cs
        else .error (.invalidCodepoint maxCode)

/-- Blanks and line ends, which a backslash makes disappear. -/
def isBlank (c : Char) : Bool := c = ' ' || c = '\t' || c = '\r' || c = '\n'

/-- Reads one escape after its backslash: the character it stands for, if any, and the number of
characters it takes. -/
def escape (k : Delimited) : List Char → Except LexError (Option Char × Nat)
  | [] => .error k.malformed
  | c :: cs =>
    if c = 'x' || c = 'X' then
      (hexEscape k 0 1 cs).map fun (character, used) => (some character, used)
    else if k.joinsLines && isBlank c then .ok (none, 1 + (cs.takeWhile isBlank).length)
    else match k.letters.lookup c with
      | some character => .ok (some character, 1)
      | none => .error k.malformed

/-- Decodes up to the closing delimiter, passing over the characters of an escape already read. -/
def decodeFrom (k : Delimited) : Nat → List Char → Except LexError (List Char)
  | _, [] => .ok []
  | skip + 1, _ :: cs => decodeFrom k skip cs
  | 0, c :: cs =>
    if c = k.close then .ok []
    else if c = '\\' then
      match k.escape cs with
      | .error e => .error e
      | .ok (character, used) => (decodeFrom k used cs).map (character.toList ++ ·)
    else (decodeFrom k 0 cs).map (c :: ·)

/-- The characters that a whole token, opening delimiter included, stands for. -/
def decode (k : Delimited) (token : List Char) : Except LexError String :=
  (decodeFrom k 0 token.tail).map String.ofList

end Delimited

end StoreScheme
