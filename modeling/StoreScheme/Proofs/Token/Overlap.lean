import StoreScheme.Proofs.Text.Apart
import StoreScheme.Proofs.Token.Choice

/-!
# Rules with common texts

A known directive is also written like an unknown one, and a signed infinity or NaN like an identifier.
No other text is one of two rules.

* `Rule.Overrides`: the rules with common texts
* `Rule.eq_or_overrides`: a text of two rules
* `Rule.Overrides.matches`: every text of the one rule is a text of the other
-/

namespace StoreScheme

/-- A class of single characters is part of another one if each of them is in it. -/
theorem CharClass.contains_of_singles {k k' : CharClass} {c : Char}
    (singles : (!k.complemented &&
      k.ranges.all fun (first, last) => first == last && k'.contains first) = true)
    (contains : k.contains c = true) : k'.contains c = true := by
  obtain ⟨notComplemented, each⟩ := Bool.and_eq_true_iff.1 singles
  rw [Bool.not_eq_true'] at notComplemented
  rw [CharClass.contains, notComplemented, Bool.bne_false, List.any_eq_true] at contains
  obtain ⟨⟨first, last⟩, member, within⟩ := contains
  obtain ⟨single, inside⟩ := Bool.and_eq_true_iff.1 (List.all_eq_true.1 each _ member)
  obtain ⟨above, below⟩ := Bool.and_eq_true_iff.1 within
  have same : first = last := eq_of_beq single
  rw [← same] at below
  rwa [Char.le_antisymm (of_decide_eq_true below) (of_decide_eq_true above)]

namespace Rule

variable {r s : Rule} {t : List Char}

/-! ## Rules apart -/

/-- Two rules with common texts, of which the first is the one to be used. -/
inductive Overrides : Rule → Rule → Prop
  | foldCase : Overrides .foldCase .otherDirective
  | noFoldCase : Overrides .noFoldCase .otherDirective
  | specialReal : Overrides .specialReal .signedIdentifier

instance : DecidableRel Overrides := fun r s =>
  decidable_of_iff
    ((r = .foldCase ∨ r = .noFoldCase) ∧ s = .otherDirective ∨
      r = .specialReal ∧ s = .signedIdentifier) <| by
      constructor
      · rintro (⟨rfl | rfl, rfl⟩ | ⟨rfl, rfl⟩) <;> constructor
      · rintro (_ | _ | _) <;> simp

theorem apart_or_overrides : ∀ r ∈ all, ∀ s ∈ r.earlier,
    Overrides s r ∨ Regex.apart 100 s.pattern r.pattern = true := by
  decide +kernel

theorem mem_earlier_or_mem_earlier (different : r ≠ s) : r ∈ s.earlier ∨ s ∈ r.earlier := by
  revert different
  cases r <;> cases s <;> decide

theorem overrides_of_earlier (earlier : s ∈ r.earlier) (matched : s.pattern.Matches t)
    (matched' : r.pattern.Matches t) : Overrides s r := by
  rcases apart_or_overrides r (mem_all r) s earlier with overrides | apart
  · exact overrides
  · exact absurd matched' (Regex.not_matches_of_apart apart matched)

theorem eq_or_overrides (matched : r.pattern.Matches t) (matched' : s.pattern.Matches t) :
    r = s ∨ Overrides r s ∨ Overrides s r := by
  by_cases same : r = s
  · exact .inl same
  · rcases mem_earlier_or_mem_earlier same with earlier | earlier
    · exact .inr (.inl (overrides_of_earlier earlier matched matched'))
    · exact .inr (.inr (overrides_of_earlier earlier matched' matched))

/-! ## Common texts -/

/-- Every character is in the class, in either case. -/
def caselessWithin (k : CharClass) (cs : List Char) : Bool :=
  cs.all fun c => !(caseless c).complemented &&
    (caseless c).ranges.all fun (first, last) => first == last && k.contains first

theorem contains_of_caseless {k : CharClass} {cs : List Char} (within : caselessWithin k cs = true)
    (matched : Regex.Matches (.cat (cs.map fun c => .chars (caseless c))) t) :
    ∀ d ∈ t, k.contains d = true := by
  induction cs generalizing t with
  | nil =>
      rw [Regex.matches_epsilon.1 matched]
      exact List.forall_mem_nil _
  | cons c cs ih =>
      obtain ⟨u, v, first, rest, rfl⟩ := Regex.matches_seq.1 matched
      obtain ⟨d, contains, rfl⟩ := Regex.matches_chars.1 first
      obtain ⟨single, others⟩ := Bool.and_eq_true_iff.1 within
      exact List.forall_mem_cons.2 ⟨CharClass.contains_of_singles single contains, ih others rest⟩

/-- A character without cases stands for itself only. -/
theorem eq_singleton_of_caseless {c : Char} (alone : caselessWithin ⟨[(c, c)], false⟩ [c] = true)
    (matched : Regex.Matches (.chars (caseless c)) t) : t = [c] := by
  obtain ⟨d, contains, rfl⟩ := Regex.matches_chars.1 matched
  obtain ⟨single, -⟩ := Bool.and_eq_true_iff.1 alone
  rw [CharClass.contains_singleton.1 (CharClass.contains_of_singles single contains)]

theorem otherDirective_of_caseless {c : Char} {cs : List Char}
    (within : caselessWithin directivePart (c :: cs) = true)
    (matched : Regex.Matches (.cat (('#' :: '!' :: c :: cs).map fun c => .chars (caseless c))) t) :
    otherDirective.pattern.Matches t := by
  obtain ⟨u, v, first, rest, rfl⟩ := Regex.matches_seq.1 matched
  obtain ⟨u', v', second, name, rfl⟩ := Regex.matches_seq.1 rest
  have isHash := eq_singleton_of_caseless (by decide) first
  have isMark := eq_singleton_of_caseless (by decide) second
  have parts := contains_of_caseless within name
  obtain ⟨w, w', initial, -, rfl⟩ := Regex.matches_seq.1 name
  obtain ⟨d, -, rfl⟩ := Regex.matches_chars.1 initial
  obtain ⟨part, others⟩ := List.forall_mem_cons.1 parts
  have plus : Regex.Matches (.plus (.chars directivePart)) ([d] ++ w') :=
    .seq (.chars part) (Regex.matches_star_chars others)
  rw [isHash, isMark, ← List.append_assoc]
  exact .seq (Regex.matches_text "#!") plus

theorem signedIdentifier_of_specialReal (matched : specialReal.pattern.Matches t) :
    signedIdentifier.pattern.Matches t := by
  obtain ⟨u, v, sign, rest, rfl⟩ := Regex.matches_seq.1 matched
  obtain ⟨w, w', name, ending, rfl⟩ := Regex.matches_seq.1 rest
  have isEnding : w' = ['.', '0'] := by
    obtain ⟨x, y, zero, nothing, rfl⟩ := Regex.matches_seq.1 ending
    rw [Regex.matches_text_iff.1 zero, Regex.matches_epsilon.1 nothing]
    rfl
  have letters {k : CharClass} (inf : caselessWithin k "inf".toList = true)
      (nan : caselessWithin k "nan".toList = true) : ∀ d ∈ w, k.contains d = true := by
    rcases Regex.matches_alt.1 name with infinite | undefined
    · exact contains_of_caseless inf infinite
    · exact contains_of_caseless nan undefined
  have first := letters (k := afterSign) (by decide +kernel) (by decide +kernel)
  have others := letters (k := identifierPart) (by decide +kernel) (by decide +kernel)
  cases w with
  | nil => cases Regex.nullable_iff.2 name
  | cons d w =>
      have ending' : ∀ d ∈ ['.', '0'], identifierPart.contains d = true := List.all_eq_true.1 (by decide)
      have tail : identifierTail.Matches (w ++ ['.', '0']) :=
        Regex.matches_star_chars (List.forall_mem_append.2 ⟨(List.forall_mem_cons.1 others).2, ending'⟩)
      have whole := Regex.Matches.seq (.chars (first d List.mem_cons_self)) (.seq tail .epsilon)
      rw [List.append_nil] at whole
      rw [isEnding]
      exact .seq sign whole

theorem Overrides.matches (overrides : Overrides r s) (matched : r.pattern.Matches t) :
    s.pattern.Matches t := by
  cases overrides with
  | foldCase => exact otherDirective_of_caseless (by decide +kernel) matched
  | noFoldCase => exact otherDirective_of_caseless (by decide +kernel) matched
  | specialReal => exact signedIdentifier_of_specialReal matched

end Rule

end StoreScheme
