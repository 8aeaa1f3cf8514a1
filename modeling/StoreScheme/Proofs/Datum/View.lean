import StoreScheme.Datum

/-!
# Data of trees

How the data and the spans of a row of trees grow when a tree is added at its end.

* `Datum.add`: data before and after a dot, with more data added
* `Datum.splitAtDot_concat`, `Datum.splitAtDot_concat_dot`: adding a tree, or the dot
* `Datum.ofTrees_eq`: all data are those before and after the dot
* `Tree.spanAll?_ends`: a span reaches from the first leaf to the last tree
-/

namespace StoreScheme

namespace Datum

/-- The data before the dot, and those after it if there is one. -/
abbrev Parts := List Datum × Option (List Datum)

def add (parts : Parts) (ds : List Datum) : Parts :=
  match parts with
  | (before, none) => (before ++ ds, none)
  | (before, some after) => (before, some (after ++ ds))

@[simp] theorem add_nil (parts : Parts) : add parts [] = parts := by
  obtain ⟨before, _ | after⟩ := parts <;> simp [add]

theorem add_add (parts : Parts) (ds es : List Datum) :
    add (add parts ds) es = add parts (ds ++ es) := by
  obtain ⟨before, _ | after⟩ := parts <;> simp [add]

@[simp] theorem ofTree?_leaf (kind : LeafKind) (l : Lexeme) : ofTree? (.leaf kind l) = none := rfl

theorem ofTrees_append (ts us : List Tree) : ofTrees (ts ++ us) = ofTrees ts ++ ofTrees us := by
  induction ts with
  | nil => rfl
  | cons t ts ih => simp [ofTrees, ih]

theorem ofTrees_leaves {ts : List Tree} (leaves : ∀ t ∈ ts, ∃ kind l, t = .leaf kind l) :
    ofTrees ts = [] := by
  induction ts with
  | nil => rfl
  | cons t ts ih =>
      obtain ⟨⟨kind, l, rfl⟩, rest⟩ := List.forall_mem_cons.1 leaves
      simp [ofTrees, ih rest]

theorem splitAtDot_dot (l : Lexeme) (ts : List Tree) :
    splitAtDot (.leaf .dot l :: ts) =
      ([], some ((splitAtDot ts).1 ++ (splitAtDot ts).2.getD [])) := rfl

theorem splitAtDot_cons {t : Tree} (notDot : ∀ l, t ≠ .leaf .dot l) (ts : List Tree) :
    splitAtDot (t :: ts) = ((ofTree? t).toList ++ (splitAtDot ts).1, (splitAtDot ts).2) := by
  cases t with
  | node kind children => rfl
  | leaf kind l =>
      cases kind with
      | dot => exact absurd rfl (notDot l)
      | _ => rfl

theorem ofTrees_eq (ts : List Tree) :
    ofTrees ts = (splitAtDot ts).1 ++ (splitAtDot ts).2.getD [] := by
  induction ts with
  | nil => rfl
  | cons t ts ih =>
      by_cases isDot : ∃ l, t = .leaf .dot l
      · obtain ⟨l, rfl⟩ := isDot
        simp [ofTrees, splitAtDot_dot, ih]
      · rw [splitAtDot_cons (not_exists.1 isDot)]
        simp [ofTrees, ih]

theorem splitAtDot_concat {t : Tree} (notDot : ∀ l, t ≠ .leaf .dot l) (ts : List Tree) :
    splitAtDot (ts ++ [t]) = add (splitAtDot ts) (ofTree? t).toList := by
  induction ts with
  | nil => simp [splitAtDot_cons notDot, splitAtDot, add]
  | cons u ts ih =>
      by_cases isDot : ∃ l, u = .leaf .dot l
      · obtain ⟨l, rfl⟩ := isDot
        rw [List.cons_append, splitAtDot_dot, splitAtDot_dot, ih]
        obtain ⟨before, _ | after⟩ := splitAtDot ts <;> simp [add]
      · have notDot' := not_exists.1 isDot
        rw [List.cons_append, splitAtDot_cons notDot', splitAtDot_cons notDot', ih]
        obtain ⟨before, _ | after⟩ := splitAtDot ts <;> simp [add]

theorem splitAtDot_concat_dot {ts : List Tree} {before : List Datum}
    (noDot : splitAtDot ts = (before, none)) (l : Lexeme) :
    splitAtDot (ts ++ [.leaf .dot l]) = (before, some []) := by
  induction ts generalizing before with
  | nil =>
      cases noDot
      rfl
  | cons u ts ih =>
      by_cases isDot : ∃ l, u = .leaf .dot l
      · obtain ⟨l', rfl⟩ := isDot
        cases noDot
      · rw [splitAtDot_cons (not_exists.1 isDot)] at noDot
        rw [List.cons_append, splitAtDot_cons (not_exists.1 isDot)]
        generalize rest : splitAtDot ts = parts at noDot
        obtain ⟨before', after⟩ := parts
        cases noDot
        rw [ih rest]

end Datum

namespace Tree

theorem span?_single (outer inner : NodeKind) (ts : List Tree) :
    (node outer [node inner ts]).span? = spanAll? ts := by
  cases own : spanAll? ts <;> simp [span?, spanAll?, own]

theorem spanAll?_concat (ts : List Tree) {t : Tree} {span : Span} (last : t.span? = some span) :
    ∃ start, spanAll? (ts ++ [t]) = some ⟨start, span.stop⟩ := by
  induction ts with
  | nil => exact ⟨span.start, by simp [spanAll?, last]⟩
  | cons u ts ih =>
      obtain ⟨start, rest⟩ := ih
      cases first : u.span? with
      | none => exact ⟨start, by simp [spanAll?, first, rest]⟩
      | some before => exact ⟨before.start, by simp [spanAll?, first, rest, Span.through]⟩

theorem spanAll?_ends (kind : LeafKind) (l : Lexeme) (ts : List Tree) {t : Tree} {span : Span}
    (last : t.span? = some span) :
    spanAll? (.leaf kind l :: (ts ++ [t])) = some ⟨l.start, span.stop⟩ := by
  obtain ⟨start, rest⟩ := spanAll?_concat ts last
  simp [spanAll?, span?, rest, Span.through, Lexeme.span]

end Tree

end StoreScheme
