import StoreScheme.Proofs.Datum.FoldCase
import StoreScheme.Proofs.Expr.Resolved

/-!
# Case folding follows the directives

At every offset of a source, with errors or without, the setting is that of the directive with the
greatest end up to there, however deep it stands, and every symbol is used under the name that it has
with the setting at its start.

* `Lexeme.identifierIn?`: the name of a symbol, from its text and the settings
* `case_folds_as_directed`: settings and names in a source
-/

namespace StoreScheme

/-- The identifier that a text stands for where it is written. -/
def Lexeme.identifierIn? (f : FoldCase) (l : Lexeme) : Option String :=
  (f.searched? l.start).bind fun folds => l.identifier? folds

section
variable {source : String} {initial : Bool}

theorem searched?_reread (source : String) (initial : Bool) (offset : Nat) :
    (FoldCase.reread initial (parse source).tree).searched? offset =
      some ((FoldCase.ofTree initial (parse source).tree).foldsAt offset) := by
  rw [FoldCase.reread_eq]
  exact FoldCase.searched?_eq (increasing_ofTree source initial) offset

theorem identifier_of_symbol {l : Lexeme} (labels : LeafKind.Labels .symbol l) :
    ∃ name, l.result = .ok (.identifier name) := by
  generalize symbol : LeafKind.symbol = kind at labels
  cases labels with
  | @token _ token ok =>
      cases token with
      | identifier name => exact ⟨name, ok⟩
      | _ => cases symbol
  | error _ | closeParen _ | dot _ => cases symbol

theorem identifierIn?_eq {l : Lexeme} (part : .leaf .symbol l ∈ (parse source).tree.parts) :
    ∃ name, l.result = .ok (.identifier name) ∧ ∀ b, Setting source initial l.start b →
      l.identifierIn? (FoldCase.reread initial (parse source).tree) =
        some (if b then CaseFold.fold name else name) := by
  have member : l ∈ lex source := parse_leaves source ▸ Tree.mem_leaves part
  obtain ⟨name, ok⟩ : ∃ name, l.result = .ok (.identifier name) := by
    cases parse_regular source _ part with
    | leaf labels => exact identifier_of_symbol labels
  refine ⟨name, ok, fun b setting => ?_⟩
  rw [Lexeme.identifierIn?, searched?_reread, setting_iff.1 setting, Option.bind_some]
  exact Lexeme.identifier?_eq b member ok

theorem ofTree_eq_resolved {settings : Nat → Bool}
    (each : ∀ offset, Setting source initial offset (settings offset)) :
    Form.ofTree initial (parse source).tree =
      Form.ofData (.uniform false) (Datum.resolveAll settings (parse source).tree.data) := by
  have same : settings = (FoldCase.ofTree initial (parse source).tree).foldsAt :=
    funext fun offset => (setting_iff.1 (each offset)).symm
  rw [same, Form.ofData_resolve, Form.ofTree]

end

/-- The settings of a source, with the switches found by reading its directives again and looked up by
binary search, are those of the last directives.  The switches increase, and the search gives what going
through them one by one gives.  Symbols are read under the setting where they start, and building
uses all of them under these names: it builds what it builds without folding from the data with these
names in them. -/
theorem case_folds_as_directed (source : String) (initial : Bool) :
    (∀ offset b, (FoldCase.reread initial (parse source).tree).searched? offset = some b ↔
      Setting source initial offset b) ∧
    (FoldCase.reread initial (parse source).tree).Increasing ∧
    FoldCase.reread initial (parse source).tree = FoldCase.ofTree initial (parse source).tree ∧
    (∀ offset, (FoldCase.reread initial (parse source).tree).searched? offset =
      some ((FoldCase.ofTree initial (parse source).tree).foldsAt offset)) ∧
    (∀ l, .leaf .symbol l ∈ (parse source).tree.parts →
      ∃ name, l.result = .ok (.identifier name) ∧ ∀ b, Setting source initial l.start b →
        l.identifierIn? (FoldCase.reread initial (parse source).tree) =
          some (if b then CaseFold.fold name else name)) ∧
    ∀ settings : Nat → Bool, (∀ offset, Setting source initial offset (settings offset)) →
      Form.ofTree initial (parse source).tree =
        Form.ofData (.uniform false) (Datum.resolveAll settings (parse source).tree.data) := by
  have same := FoldCase.reread_eq source initial
  refine ⟨fun offset b => ?_, same ▸ increasing_ofTree source initial, same,
    searched?_reread source initial, fun l part => identifierIn?_eq part,
    fun settings each => ofTree_eq_resolved each⟩
  rw [searched?_reread, Option.some_inj]
  exact setting_iff.symm

/-- A directive holds from its end on, also for a symbol right behind it and inside of a list that is
never closed. -/
theorem case_folds_as_directed_adjacent :
    (parse "(#!fold-case|A|").isOk = false ∧ Setting "(#!fold-case|A|" false 12 true ∧
    Setting "(#!fold-case|A|" false 11 false := by
  have settings := case_folds_as_directed "(#!fold-case|A|" false
  have behind : (FoldCase.ofTree false (parse "(#!fold-case|A|").tree).foldsAt 12 = true := by decide +kernel
  have inside : (FoldCase.ofTree false (parse "(#!fold-case|A|").tree).foldsAt 11 = false := by decide +kernel
  refine ⟨by decide +kernel, (settings.1 12 true).1 ?_, (settings.1 11 false).1 ?_⟩
  · rw [settings.2.2.2.1, behind]
  · rw [settings.2.2.2.1, inside]

end StoreScheme
