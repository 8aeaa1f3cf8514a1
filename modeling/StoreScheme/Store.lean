import StoreScheme.Value

/-!
# The store

A growing row of cells, each with the current value of a variable.  Cells are only added and
overwritten, so an address once given out stays valid.

* `Store.allocate`, `Store.allocateAll`: new cells
* `Store.read?`, `Store.write?`: the cell at an address, if there is one
-/

namespace StoreScheme

structure Store where
  cells : Array Value := #[]

namespace Store

def size (s : Store) : Nat := s.cells.size

/-- Adds a cell and gives its address. -/
def allocate (s : Store) (v : Value) : Address × Store := (s.size, ⟨s.cells.push v⟩)

/-- Adds a cell for each value, in order. -/
def allocateAll (s : Store) : List Value → List Address × Store
  | [] => ([], s)
  | v :: vs =>
    let (address, s) := s.allocate v
    let (addresses, s) := s.allocateAll vs
    (address :: addresses, s)

def read? (s : Store) (a : Address) : Option Value := s.cells[a]?

/-- Overwrites a cell; there is no result if the address is out of bounds. -/
def write? (s : Store) (a : Address) (v : Value) : Option Store :=
  if h : a < s.cells.size then some ⟨s.cells.set a v h⟩ else none

/-- The highest address in use. -/
def last? (s : Store) : Option Address := if s.size = 0 then none else some (s.size - 1)

end Store

end StoreScheme
