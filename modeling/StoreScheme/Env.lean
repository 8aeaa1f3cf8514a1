/-!
# Environments

An environment maps names to addresses, never to values.  It is a chain of frames, innermost first,
in front of the one frame of global names.

* `Env.lookup?`: the address of a name
* `Globals.define`: a top-level definition under a redefinition policy
-/

namespace StoreScheme

/-- The index of a cell in the store. -/
abbrev Address := Nat

/-- The names bound together by a procedure call or a `let`, with their addresses. -/
structure Frame where
  names : List String
  addresses : List Address
deriving Repr, DecidableEq

def Frame.lookup? (fr : Frame) (name : String) : Option Address :=
  (fr.names.zip fr.addresses).lookup name

/-- The frames in scope, innermost first; the global names come after the last. -/
abbrev Env := List Frame

/-- What a second top-level definition of a name does. -/
inductive RedefinePolicy
  /-- The name is bound to the new cell. -/
  | latestWins
  /-- A new binding is added, but the first one is still found. -/
  | firstWins
deriving Repr, DecidableEq

/-- The global names in the order of their definition. -/
structure Globals where
  entries : List (String × Address) := []
deriving Repr, DecidableEq

namespace Globals

def lookup? (g : Globals) (name : String) : Option Address := g.entries.lookup name

def size (g : Globals) : Nat := g.entries.length

/-- Binds the first entry of a name anew. -/
def rebind (name : String) (address : Address) : List (String × Address) → List (String × Address)
  | [] => []
  | (n, a) :: rest => if n = name then (n, address) :: rest else (n, a) :: rebind name address rest

def define (g : Globals) (policy : RedefinePolicy) (name : String) (address : Address) : Globals :=
  if policy = .latestWins ∧ (g.lookup? name).isSome then ⟨rebind name address g.entries⟩
  else ⟨g.entries ++ [(name, address)]⟩

end Globals

namespace Env

/-- The address of a name, searched from the innermost frame outwards. -/
def lookup? (globals : Globals) (name : String) : Env → Option Address
  | [] => globals.lookup? name
  | fr :: rest => (fr.lookup? name).or (lookup? globals name rest)

end Env

end StoreScheme
