import StoreScheme.Datum
import StoreScheme.Text.CaseFold

/-!
# Case folding of identifiers

The last directive before a place decides whether identifiers fold case there; without one, the
default does.

* `FoldCase.ofTree`: the switches in a source
* `FoldCase.foldsAt`: whether identifiers fold at an offset
* `FoldCase.name`: the name that an identifier stands for where it is written
-/

namespace StoreScheme

structure FoldCase where
  initial : Bool
  /-- The end of each directive with the setting it makes, in source order. -/
  switches : List (Nat × Bool)
deriving Repr, DecidableEq

namespace FoldCase

/-- The same setting everywhere. -/
def uniform (folds : Bool) : FoldCase := ⟨folds, []⟩

/-- The setting that a lexeme makes from its end on. -/
def switch? (l : Lexeme) : Option (Nat × Bool) :=
  match l.result with
  | .ok (.directive d) => some (l.stop, d = .foldCase)
  | _ => none

def ofTree (initial : Bool) (t : Tree) : FoldCase := ⟨initial, t.leaves.filterMap switch?⟩

/-- Whether identifiers fold case at an offset. -/
def foldsAt (f : FoldCase) (offset : Nat) : Bool :=
  match (f.switches.takeWhile fun (stop, _) => stop ≤ offset).getLast? with
  | some (_, folds) => folds
  | none => f.initial

/-- The name that an identifier stands for at a place. -/
def name (f : FoldCase) (span : Span) (identifier : String) : String :=
  if f.foldsAt span.start then CaseFold.fold identifier else identifier

end FoldCase

end StoreScheme
