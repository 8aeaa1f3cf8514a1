import StoreScheme.Expr.OfDatum

/-!
# Reserved names

A name is found among the primitives or the keywords exactly if one of them has it.  The names that
are left over are those that programs can bind.

* `Primitive.ofName?_eq_some_iff`, `Keyword.ofName?_eq_some_iff`: look-up by name
* `Unreserved`, `isReserved_eq_false_iff`: names that can be bound
-/

namespace StoreScheme

namespace Primitive

theorem ofName?_name (p : Primitive) : ofName? p.name = some p := by
  cases p <;> decide +kernel

theorem ofName?_eq_some_iff {name : String} {p : Primitive} :
    ofName? name = some p ↔ p.name = name := by
  constructor
  · intro found
    simpa using List.find?_some found
  · rintro rfl
    exact ofName?_name p

theorem ofName?_eq_none_iff {name : String} :
    ofName? name = none ↔ ∀ p : Primitive, p.name ≠ name := by
  rw [Option.eq_none_iff_forall_ne_some]
  exact forall_congr' fun p => not_congr ofName?_eq_some_iff

end Primitive

namespace Keyword

theorem ofName?_name (k : Keyword) : ofName? k.name = some k := by
  cases k <;> decide +kernel

theorem ofName?_eq_some_iff {name : String} {k : Keyword} :
    ofName? name = some k ↔ k.name = name := by
  constructor
  · intro found
    simpa using List.find?_some found
  · rintro rfl
    exact ofName?_name k

theorem ofName?_eq_none_iff {name : String} : ofName? name = none ↔ ∀ k : Keyword, k.name ≠ name := by
  rw [Option.eq_none_iff_forall_ne_some]
  exact forall_congr' fun k => not_congr ofName?_eq_some_iff

end Keyword

/-- Neither a primitive nor a keyword has the name. -/
structure Unreserved (name : String) : Prop where
  primitive : ∀ p : Primitive, p.name ≠ name
  keyword : ∀ k : Keyword, k.name ≠ name

theorem isReserved_eq_false_iff {name : String} : isReserved name = false ↔ Unreserved name := by
  simp only [isReserved, Bool.or_eq_false_iff, Option.isSome_eq_false_iff, Option.isNone_iff_eq_none,
    Primitive.ofName?_eq_none_iff, Keyword.ofName?_eq_none_iff]
  exact ⟨fun ⟨primitive, keyword⟩ => ⟨primitive, keyword⟩, fun free => ⟨free.primitive, free.keyword⟩⟩

end StoreScheme
