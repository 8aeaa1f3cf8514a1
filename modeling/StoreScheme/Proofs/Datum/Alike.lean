import StoreScheme.Proofs.Tree.Lockstep

/-!
# Data alike

Lexemes with the same results are the same data, at places that are related if those of the lexemes
are.

* `Datum.Alike`: the same data up to places
* `Derives.alike`: the data of lexemes that are alike
-/

namespace StoreScheme

inductive Datum.Alike (R : Span → Span → Prop) : Datum → Datum → Prop
  | atom {span span' : Span} {a : Atom} : R span span' → Alike R (.atom span a) (.atom span' a)
  | list {span span' : Span} {items items' : List Datum} : R span span' →
    List.Forall₂ (Alike R) items items' → Alike R (.list span items none) (.list span' items' none)
  | dotted {span span' : Span} {items items' after after' : List Datum} : R span span' →
    List.Forall₂ (Alike R) items items' → List.Forall₂ (Alike R) after after' →
    Alike R (.list span items (some after)) (.list span' items' (some after'))
  | dangling {span span' : Span} : R span span' → Alike R (.quoted span none) (.quoted span' none)
  | quoted {span span' : Span} {d d' : Datum} : R span span' → Alike R d d' →
    Alike R (.quoted span (some d)) (.quoted span' (some d'))

/-- From one place through to another: related, if both ends are. -/
def Span.Through (R : Span → Span → Prop) : Prop :=
  ∀ a b c d : Span, R a b → R c d → R (a.through c) (b.through d)

variable {R : Span → Span → Prop}

theorem Datum.Alike.span {d d' : Datum} (alike : d.Alike R d') : R d.span d'.span := by
  cases alike <;> assumption

theorem Lexeme.Alike.atom? {l m : Lexeme} (alike : l.Alike R m) : l.atom? = m.atom? := by
  rw [Lexeme.atom?, Lexeme.atom?, alike.result]

theorem exists_of_forall₂_append {α β : Type} {P : α → β → Prop} {as bs : List α} {cs : List β}
    (related : List.Forall₂ P (as ++ bs) cs) :
    ∃ cs₁ cs₂, cs = cs₁ ++ cs₂ ∧ List.Forall₂ P as cs₁ ∧ List.Forall₂ P bs cs₂ := by
  induction as generalizing cs with
  | nil => exact ⟨[], cs, rfl, .nil, related⟩
  | cons a as ih =>
      cases related with
      | cons first rest =>
          obtain ⟨cs₁, cs₂, rfl, front, back⟩ := ih rest
          exact ⟨_ :: cs₁, cs₂, rfl, .cons first front, back⟩

theorem exists_of_forall₂_singleton {α β : Type} {P : α → β → Prop} {a : α} {bs : List β}
    (related : List.Forall₂ P [a] bs) : ∃ b, bs = [b] ∧ P a b := by
  obtain ⟨b, _, first, none, rfl⟩ := List.forall₂_cons_left_iff.1 related
  rw [List.forall₂_nil_left_iff.1 none]
  exact ⟨b, rfl, first⟩

theorem Derives.alike (through : Span.Through R) {ls ms : List Lexeme} {ds : List Datum}
    (derives : Derives ls ds) (lexemes : List.Forall₂ (Lexeme.Alike R) ls ms) :
    ∃ es, Derives ms es ∧ List.Forall₂ (Datum.Alike R) ds es := by
  induction derives generalizing ms with
  | nil =>
      rw [List.forall₂_nil_left_iff.1 lexemes]
      exact ⟨[], .nil, .nil⟩
  | atom isAtom _ ih =>
      obtain ⟨m, ms, first, rest, rfl⟩ := List.forall₂_cons_left_iff.1 lexemes
      obtain ⟨es, derives, alike⟩ := ih rest
      exact ⟨_, .atom (first.atom? ▸ isAtom) derives, .cons (.atom first.span) alike⟩
  | quoted isQuote _ _ ihInner ih =>
      obtain ⟨m, ms, first, rest, rfl⟩ := List.forall₂_cons_left_iff.1 lexemes
      obtain ⟨inner, others, rfl, lexemes₁, lexemes₂⟩ := exists_of_forall₂_append rest
      obtain ⟨_, derives₁, alike₁⟩ := ihInner lexemes₁
      obtain ⟨d, rfl, datum⟩ := exists_of_forall₂_singleton alike₁
      obtain ⟨es, derives₂, alike₂⟩ := ih lexemes₂
      exact ⟨_, .quoted (first.result ▸ isQuote) derives₁ derives₂,
        .cons (.quoted (through _ _ _ _ first.span datum.span) datum) alike₂⟩
  | list isOpen isClose _ _ ihInner ih =>
      obtain ⟨m, ms, first, rest, rfl⟩ := List.forall₂_cons_left_iff.1 lexemes
      obtain ⟨inner, others, rfl, lexemes₁, rest₁⟩ := exists_of_forall₂_append rest
      obtain ⟨c, others, last, lexemes₂, rfl⟩ := List.forall₂_cons_left_iff.1 rest₁
      obtain ⟨items, derives₁, alike₁⟩ := ihInner lexemes₁
      obtain ⟨es, derives₂, alike₂⟩ := ih lexemes₂
      exact ⟨_, .list (first.result ▸ isOpen) (last.result ▸ isClose) derives₁ derives₂,
        .cons (.list (through _ _ _ _ first.span last.span) alike₁) alike₂⟩
  | dotted isOpen isDot isClose nonempty _ _ _ ihInner ihAfter ih =>
      obtain ⟨m, ms, first, rest, rfl⟩ := List.forall₂_cons_left_iff.1 lexemes
      obtain ⟨inner, others, rfl, lexemes₁, rest₁⟩ := exists_of_forall₂_append rest
      obtain ⟨dot, others, middle, rest₂, rfl⟩ := List.forall₂_cons_left_iff.1 rest₁
      obtain ⟨after, others, rfl, lexemes₂, rest₃⟩ := exists_of_forall₂_append rest₂
      obtain ⟨c, others, last, lexemes₃, rfl⟩ := List.forall₂_cons_left_iff.1 rest₃
      obtain ⟨items, derives₁, alike₁⟩ := ihInner lexemes₁
      obtain ⟨_, derives₂, alike₂⟩ := ihAfter lexemes₂
      obtain ⟨tail, rfl, datum⟩ := exists_of_forall₂_singleton alike₂
      obtain ⟨es, derives₃, alike₃⟩ := ih lexemes₃
      have nonempty' : items ≠ [] := by
        rintro rfl
        exact nonempty (List.forall₂_nil_right_iff.1 alike₁)
      exact ⟨_, .dotted (first.result ▸ isOpen) (middle.result ▸ isDot) (last.result ▸ isClose) nonempty'
          derives₁ derives₂ derives₃,
        .cons (.dotted (through _ _ _ _ first.span last.span) alike₁ alike₂) alike₃⟩

end StoreScheme
