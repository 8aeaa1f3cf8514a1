import StoreScheme.Text.UnprintableData

/-!
# Strings in listings

A listing shows a string between double quotes on one line, with every character that does not print
by itself given by its code.
-/

namespace StoreScheme.Unprintable

def contains (c : Char) : Bool := ranges.any fun (first, last) => first ≤ c.toNat && c.toNat ≤ last

/-- A character of a string in a listing. -/
def showChar (c : Char) : List Char :=
  if c = '"' then ['\\', '"']
  else if c = '\\' then ['\\', '\\']
  else if c = '\n' then ['\\', 'n']
  else if c = '\t' then ['\\', 't']
  else if c = '\r' then ['\\', 'r']
  else if c = '\x00' then ['\\', '0']
  else if contains c then ['\\', 'u', '\x7b'] ++ Nat.toDigits 16 c.toNat ++ ['\x7d']
  else [c]

/-- A string in a listing. -/
def showString (s : String) : String :=
  String.ofList ('"' :: s.toList.flatMap showChar ++ ['"'])

end StoreScheme.Unprintable
