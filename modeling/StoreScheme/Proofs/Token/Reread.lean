import StoreScheme.Proofs.Token.Longest

/-!
# Tokens read again

The text of a token is cut out of a source by what surrounds it.  Taken by itself it is one token, the
same as in its source: every rule that matches the whole text could also have been used in the source,
unless a known directive had to give way there, and what is used instead of it is not a token.

* `Rule.best?_take`: the rule that is used for the text by itself
* `Lexeme.lex_text`: the lexemes of a token's text
* `firstToken?`: the token at the head of a text
-/

namespace StoreScheme

theorem Rule.best?_take {r : Rule} {n : Nat} {input : List Char} (best : best? input = some (r, n))
    (known : r ≠ .otherDirective) : best? (input.take n) = some (r, n) := by
  have longest := longest_of_best? best
  have whole : best? (input.take n) = some (r, (input.take n).length) := by
    refine best?_whole longest.matched ?_
    intro s earlier matched
    -- In the source such a rule would have been used, unless it could not stand there.
    have refused := not_mayPrecede_of_earlier best earlier matched
    exact known (eq_otherDirective_of_not_mayPrecede best matched refused)
  rwa [List.length_take_of_le longest.le] at whole

/-- The token at the head of a text. -/
def firstToken? (text : String) : Option Token :=
  match lex text with
  | ⟨.ok token, _, _⟩ :: _ => some token
  | _ => none

namespace Lexeme

variable {source : String} {l : Lexeme} {token : Token}

theorem lex_text (member : l ∈ lex source) (ok : l.result = .ok token) :
    lex l.text = [⟨.ok token, l.text, 0⟩] := by
  cases origin member with
  | none _ _ failed => cases ok.symm.trans failed
  | @rule r n best text result =>
      have known : r ≠ .otherDirective := by
        rintro rfl
        cases ok.symm.trans result
      have alone := Rule.best?_take best known
      have length := List.length_take_of_le (Rule.longest_of_best? best).le
      rw [← text] at alone length
      have first : Rule.best? (l.text.toList ++ []) = some (r, l.text.toList.length) := by
        rw [List.append_nil, alone, length]
      rw [lex, ← List.append_nil l.text.toList, lexFrom_append 0 first, ← result, ok, String.ofList_toList]
      rfl

theorem firstToken?_text (member : l ∈ lex source) (ok : l.result = .ok token) :
    firstToken? l.text = some token := by
  rw [firstToken?, lex_text member ok]

end Lexeme

end StoreScheme
