import StoreScheme.Store

/-!
# Cells of a store

What each operation does to the cells, seen through `Store.read?` and `Store.size`.

* `Store.allocateAll_fst`, `Store.read?_allocateAll`: new cells stand after all others, in order
* `Store.read?_of_write?`: a write changes one cell and no other
* `Store.write?_eq_none`: a write fails exactly beyond the last cell
* `Store.map`: other values in all cells, which no operation takes notice of
-/

namespace StoreScheme.Store

theorem read?_eq_some_lt {s : Store} {a : Address} {v : Value} (read : s.read? a = some v) :
    a < s.size :=
  (Array.getElem?_eq_some_iff.1 read).1

theorem read?_eq_none {s : Store} {a : Address} : s.read? a = none ↔ s.size ≤ a :=
  Array.getElem?_eq_none_iff

theorem read?_allocate (s : Store) (v : Value) (a : Address) :
    (s.allocate v).2.read? a = if a = s.size then some v else s.read? a :=
  Array.getElem?_push

theorem size_allocate (s : Store) (v : Value) : (s.allocate v).2.size = s.size + 1 :=
  Array.size_push v

theorem size_allocateAll (s : Store) (vs : List Value) :
    (s.allocateAll vs).2.size = s.size + vs.length := by
  induction vs generalizing s with
  | nil => rfl
  | cons v vs ih =>
      have rest := ih (s.allocate v).2
      rw [size_allocate] at rest
      simpa [allocateAll, Nat.add_right_comm, Nat.add_assoc] using rest

theorem allocateAll_fst (s : Store) (vs : List Value) :
    (s.allocateAll vs).1 = List.range' s.size vs.length := by
  induction vs generalizing s with
  | nil => rfl
  | cons v vs ih =>
      have rest := ih (s.allocate v).2
      rw [size_allocate] at rest
      simp only [allocateAll, rest, List.length_cons, List.range'_succ]
      rfl

theorem allocateAll_eq (s : Store) (vs : List Value) :
    s.allocateAll vs = (List.range' s.size vs.length, ⟨s.cells ++ vs⟩) := by
  refine Prod.ext (s.allocateAll_fst vs) ?_
  induction vs generalizing s with
  | nil => simp [allocateAll]
  | cons v vs ih => simp [allocateAll, ih, allocate]

theorem read?_allocateAll (s : Store) (vs : List Value) (a : Nat) :
    (s.allocateAll vs).2.read? a = if a < s.size then s.read? a else vs[a - s.size]? := by
  induction vs generalizing s with
  | nil =>
      by_cases old : a < s.size
      · simp [allocateAll, old]
      · simpa [allocateAll, old] using read?_eq_none.2 (Nat.le_of_not_lt old)
  | cons v vs ih =>
      have rest := ih (s.allocate v).2
      rw [size_allocate, read?_allocate] at rest
      simp only [allocateAll, rest]
      rcases Nat.lt_trichotomy a s.size with old | first | later
      · have inside : a < s.size + 1 := by omega
        have other : a ≠ s.size := by omega
        simp [old, inside, other]
      · simp [first]
      · have beyond : ¬ a < s.size + 1 := by omega
        have other : ¬ a < s.size := by omega
        have index : a - s.size = a - (s.size + 1) + 1 := by omega
        simp [beyond, other, index]

theorem mem_of_read?_allocateAll {s : Store} {vs : List Value} {a : Address} {v : Value}
    (read : (s.allocateAll vs).2.read? a = some v) : s.read? a = some v ∨ v ∈ vs := by
  rw [read?_allocateAll] at read
  split at read
  · exact .inl read
  · exact .inr (List.mem_of_getElem? read)

theorem write?_eq_none {s : Store} {a : Address} {v : Value} :
    s.write? a v = none ↔ s.size ≤ a := by
  unfold write? size
  split <;> simp_all

theorem size_of_write? {s t : Store} {a : Address} {v : Value} (write : s.write? a v = some t) :
    t.size = s.size := by
  unfold write? at write
  split at write
  · cases write
    simp [size]
  · cases write

theorem read?_of_write? {s t : Store} {a : Address} {v : Value} (write : s.write? a v = some t)
    (b : Address) : t.read? b = if b = a then some v else s.read? b := by
  unfold write? at write
  split at write
  · rename_i inside
    cases write
    simp only [read?, Array.getElem?_set, eq_comm (a := a)]
  · cases write

/-! ## Other values in all cells -/

def map (f : Value → Value) (s : Store) : Store := ⟨s.cells.map f⟩

section
variable (f : Value → Value) (s : Store)

theorem read?_map (a : Address) : (s.map f).read? a = (s.read? a).map f := Array.getElem?_map

theorem write?_map (a : Address) (v : Value) :
    (s.map f).write? a (f v) = (s.write? a v).map (map f) := by
  unfold write?
  by_cases inside : a < s.cells.size
  · simp [map, inside]
  · simp [map, inside]

theorem allocate_map (v : Value) :
    (s.map f).allocate (f v) = ((s.allocate v).1, (s.allocate v).2.map f) := by
  simp [allocate, map, size]

theorem allocateAll_map (vs : List Value) :
    (s.map f).allocateAll (vs.map f) = ((s.allocateAll vs).1, (s.allocateAll vs).2.map f) := by
  have cells : s.cells.map f ++ vs.map f = (s.cells ++ vs).map f := by
    apply Array.toList_inj.1
    simp
  simp [allocateAll_eq, map, size, cells]

end

end StoreScheme.Store
