import StoreScheme.Text.CaseFoldData

/-!
# Case folding

Texts that differ only in case have the same folded form.
-/

namespace StoreScheme.CaseFold

/-- The code a run gives to a character, if it is one of the run. -/
def Run.fold? (r : Run) (code : Nat) : Option Nat :=
  if r.first ≤ code ∧ code ≤ r.last ∧ (code - r.first) % r.step = 0 then
    some (r.target + (code - r.first))
  else none

/-- The characters that one character folds to. -/
def foldChar (c : Char) : List Char :=
  match expansions.lookup c.toNat with
  | some codes => codes.map Char.ofNat
  | none =>
    match runs.findSome? (·.fold? c.toNat) with
    | some code => [Char.ofNat code]
    | none => [c]

/-- The folded form of a text. -/
def fold (s : String) : String := String.ofList (s.toList.flatMap foldChar)

end StoreScheme.CaseFold
