import StoreScheme.Proofs.Token.Longest

/-!
# Lexemes are longest matches

Wherever a lexeme starts, it is the longest text that any rule matches there, and only where no rule
matches it is invalid.  The rules leave one choice: a known directive is also an unknown one, and a
signed infinity or NaN is also an identifier.  The number is always preferred, and so is the known
directive unless it stands right in front of a character that starts with the same byte as one that
continues a directive, where the lexer falls back to the unknown one (`Rule.mayPrecede`).

* `Rule.IsLongest`: the longest prefix of a text that a rule matches
* `Lexeme.Crowded`: a known directive in front of such a character
* `longest_match_used`: the lexemes of a source
-/

namespace StoreScheme

/-- A rule matches a prefix of a text, and no rule matches a longer one. -/
structure Rule.IsLongest (r : Rule) (input t : List Char) : Prop where
  below : t <+: input
  matched : r.pattern.Matches t
  maximal : ∀ (s : Rule) (u : List Char), u <+: input → s.pattern.Matches u → u.length ≤ t.length

namespace Lexeme

variable {source : String} {l : Lexeme}

def IsDirective (t : List Char) : Prop :=
  Rule.foldCase.pattern.Matches t ∨ Rule.noFoldCase.pattern.Matches t

/-- A known directive is followed by a character that starts with the same byte as one that continues
a directive. -/
def Crowded (source : String) (l : Lexeme) : Prop :=
  IsDirective l.text.toList ∧ ∃ c after, l.onwards source = l.text.toList ++ c :: after ∧
    Rule.directivePartLead.contains c = true

theorem isLongest_of_best? {r : Rule} {n : Nat} (best : Rule.best? (l.onwards source) = some (r, n))
    (text : l.text.toList = (l.onwards source).take n) : r.IsLongest (l.onwards source) l.text.toList := by
  have longest := Rule.longest_of_best? best
  rw [text]
  refine ⟨List.take_prefix n _, longest.matched, fun s u below matched => ?_⟩
  rw [List.length_take_of_le longest.le]
  exact Rule.length_le_of_best? best below matched

theorem isDirective_of_overrides {r : Rule} {t : List Char} (overrides : r.Overrides .otherDirective)
    (matched : r.pattern.Matches t) : IsDirective t := by
  cases overrides with
  | foldCase => exact .inl matched
  | noFoldCase => exact .inr matched

theorem mayPrecede_eq {r : Rule} (overrides : r.Overrides .otherDirective) (c : Char) (after : List Char) :
    r.mayPrecede (c :: after) = !Rule.directivePartLead.contains c := by
  cases overrides <;> rfl

/-- In front of such a character a known directive is used as an unknown one. -/
theorem Crowded.result (crowded : l.Crowded source) (member : l ∈ lex source) :
    l.result = Rule.otherDirective.read l.text.toList := by
  obtain ⟨isDirective, c, after, split, lead⟩ := crowded
  obtain ⟨s, overrides, matched⟩ :
      ∃ s : Rule, s.Overrides .otherDirective ∧ s.pattern.Matches l.text.toList := by
    rcases isDirective with matched | matched
    · exact ⟨_, .foldCase, matched⟩
    · exact ⟨_, .noFoldCase, matched⟩
  cases origin member with
  | none best text _ =>
      rw [text] at matched
      exact absurd matched (Rule.not_matches_of_best? best (List.take_prefix _ _))
  | @rule r n best text result =>
      have behind : (l.onwards source).drop n = c :: after := by
        have parts := List.take_append_drop n (l.onwards source)
        rw [← text] at parts
        exact List.append_cancel_left (parts.trans split)
      have refused : s.mayPrecede ((l.onwards source).drop n) = false := by
        rw [behind, mayPrecede_eq overrides, lead]
        rfl
      rw [text] at matched
      rw [result, Rule.eq_otherDirective_of_not_mayPrecede best matched refused]

/-- Elsewhere the rule that overrides the other one is used. -/
theorem result_of_overrides (member : l ∈ lex source) (notCrowded : ¬ l.Crowded source) {r s : Rule}
    (overrides : r.Overrides s) (matched : r.pattern.Matches l.text.toList) :
    l.result = r.read l.text.toList := by
  cases origin member with
  | none best text _ =>
      rw [text] at matched
      exact absurd matched (Rule.not_matches_of_best? best (List.take_prefix _ _))
  | @rule q n best text result =>
      have matched' : r.pattern.Matches ((l.onwards source).take n) := text ▸ matched
      rcases Rule.eq_or_overrides (Rule.longest_of_best? best).matched matched' with
        rfl | overriding | overridden
      · exact result
      · cases overriding <;> cases overrides
      · -- What is used is overridden, so what overrides it could not stand here.
        have refused := Rule.not_mayPrecede_of_earlier best overridden.mem_earlier matched'
        have known := Rule.overrides_of_not_mayPrecede refused
        cases behind : (l.onwards source).drop n with
        | nil =>
            rw [behind, Rule.mayPrecede_nil] at refused
            cases refused
        | cons c after =>
            rw [behind, mayPrecede_eq known, Bool.not_eq_false'] at refused
            refine absurd ⟨isDirective_of_overrides known matched, c, after, ?_, refused⟩ notCrowded
            rw [← behind, text, List.take_append_drop]

theorem exists_isLongest (member : l ∈ lex source) {r : Rule} {t : List Char}
    (below : t <+: l.onwards source) (matched : r.pattern.Matches t) :
    ∃ r : Rule, r.IsLongest (l.onwards source) l.text.toList ∧ l.result = r.read l.text.toList := by
  cases origin member with
  | none best _ _ => exact absurd matched (Rule.not_matches_of_best? best below)
  | rule best text result => exact ⟨_, isLongest_of_best? best text, result⟩

theorem result_eq_invalid_iff (member : l ∈ lex source) : l.result = .error .invalid ↔
    ∀ (r : Rule) (t : List Char), t <+: l.onwards source → ¬ r.pattern.Matches t := by
  cases origin member with
  | none best _ result =>
      exact ⟨fun _ _ _ below => Rule.not_matches_of_best? best below, fun _ => result⟩
  | rule best text result =>
      have longest := isLongest_of_best? best text
      constructor
      · intro invalid
        exact absurd (result.symm.trans invalid) (Rule.read_ne_invalid _ _)
      · intro unmatched
        exact absurd longest.matched (unmatched _ _ longest.below)

/-- The overriding rules are used just where no known directive is crowded. -/
theorem overriding_iff (member : l ∈ lex source) :
    (∀ r s : Rule, r.Overrides s → r.pattern.Matches l.text.toList → l.result = r.read l.text.toList) ↔
      ¬ l.Crowded source := by
  constructor
  · intro preferred crowded
    have result := crowded.result member
    rcases crowded.1 with matched | matched
    · have known := preferred _ _ .foldCase matched
      rw [result] at known
      cases known
    · have known := preferred _ _ .noFoldCase matched
      rw [result] at known
      cases known
  · intro notCrowded r s overrides matched
    exact result_of_overrides member notCrowded overrides matched

end Lexeme

/-- Every lexeme of a source is the longest match of all rules where it starts, and has the result of a
rule for that match; it is invalid just where no rule matches.  Different rules have a text in common
only if one overrides the other, and then it has all its texts in common with it.  Of two such rules
the overriding one is used, except for a known directive that is crowded. -/
theorem longest_match_used (source : String) :
    (∀ (r s : Rule) (t : List Char), r ≠ s → r.pattern.Matches t → s.pattern.Matches t →
      r.Overrides s ∨ s.Overrides r) ∧
    (∀ (r s : Rule) (t : List Char), r.Overrides s → r.pattern.Matches t → s.pattern.Matches t) ∧
    ∀ l ∈ lex source,
      ((∃ (r : Rule) (t : List Char), t <+: l.onwards source ∧ r.pattern.Matches t) →
        ∃ r : Rule, r.IsLongest (l.onwards source) l.text.toList ∧ l.result = r.read l.text.toList) ∧
      (l.result = .error .invalid ↔
        ∀ (r : Rule) (t : List Char), t <+: l.onwards source → ¬ r.pattern.Matches t) ∧
      ((∀ r s : Rule, r.Overrides s → r.pattern.Matches l.text.toList → l.result = r.read l.text.toList) ↔
        ¬ l.Crowded source) ∧
      (l.Crowded source → l.result = Rule.otherDirective.read l.text.toList) := by
  refine ⟨?_, fun r s t => Rule.Overrides.matches, ?_⟩
  · intro r s t different matched matched'
    exact (Rule.eq_or_overrides matched matched').resolve_left different
  · intro l member
    refine ⟨?_, Lexeme.result_eq_invalid_iff member, Lexeme.overriding_iff member, ?_⟩
    · rintro ⟨r, t, below, matched⟩
      exact Lexeme.exists_isLongest member below matched
    · intro crowded
      exact crowded.result member

/-- A known directive in front of `ž` is an unknown one. -/
theorem crowded_directive_unknown :
    Rule.foldCase.pattern.Matches "#!fold-case".toList ∧
    (lex "#!fold-casež").map (·.text) = ["#!fold-case", "ž"] ∧
    (lex "#!fold-casež").map (·.result) = [.error (.invalidDirective "fold-case"), .error .invalid] := by
  have known : Rule.foldCase.pattern.Longest "#!fold-case".toList 11 :=
    Regex.longest?_eq_some_iff.1 (by decide +kernel)
  exact ⟨known.matched, by rfl, by rfl⟩

end StoreScheme
