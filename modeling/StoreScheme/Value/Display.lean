import StoreScheme.Value

/-!
# The written form of values

Numbers, strings, lists and the other data are written so that they read back; procedures and the
void value are written in a form that does not.

* `Value.display`: the text of a value
-/

namespace StoreScheme

/-- Control characters: the first 32 codes and those from 127 to 159. -/
def isControl (c : Char) : Bool := c.toNat < 0x20 || (0x7f ≤ c.toNat && c.toNat < 0xa0)

/-- A character inside a written string. -/
def stringChar (c : Char) : List Char :=
  if c = '"' then ['\\', '"']
  else if c = '\\' then ['\\', '\\']
  else if c = '\n' then ['\\', 'n']
  else if c = '\t' then ['\\', 't']
  else if c = '\r' then ['\\', 'r']
  else if isControl c then ['\\', 'x'] ++ Nat.toDigits 16 c.toNat ++ [';']
  else [c]

/-- A string between double quotes. -/
def stringText (s : String) : List Char := '"' :: s.toList.flatMap stringChar ++ ['"']

namespace Value

/-- The characters of a value, written by itself or as the rest of a list after an item. -/
def displayChars : (inList : Bool) → Value → List Char
  | false, .pair _ car cdr => '(' :: displayChars false car ++ displayChars true cdr
  | true, .pair _ car cdr => ' ' :: displayChars false car ++ displayChars true cdr
  | true, .null => [')']
  | inList, v =>
    let text := match v with
      | .void => "#<void>".toList
      | .number n => n.display.toList
      | .boolean b => if b then ['#', 't'] else ['#', 'f']
      | .string s => stringText s
      | .symbol name => name.toList
      | .null => ['(', ')']
      | .pair _ _ _ => []
      | .primitive p => s!"#<procedure {p.name}>".toList
      | .closure _ _ _ _ => "#<procedure>".toList
    if inList then [' ', '.', ' '] ++ text ++ [')'] else text

/-- The text of a value. -/
def display (v : Value) : String := String.ofList (v.displayChars false)

end Value

end StoreScheme
