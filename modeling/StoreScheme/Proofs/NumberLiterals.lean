import StoreScheme.Proofs.ExactArithmetic
import StoreScheme.Proofs.Token.Longest
import StoreScheme.Proofs.Token.NumberText

/-!
# Number literals

What a rule for numbers matches, its reader can read.  An integer is read as the number that its digits
denote by their places, if that fits into 64 bits; any real is read, with an exponent or without.

* `IntegerRead`, `RealRead`: what a number is read as
* `Rule.lex_number`, `Rule.result_number`: numbers by themselves and in a source
* `Rule.read_ne_malformedNumber`: no number is malformed
* `number_literals_denote`: the literals of any source
-/

namespace StoreScheme

/-- An integer is read exactly if it fits, and not at all otherwise. -/
structure IntegerRead (n : Int) (result : Except LexError Token) : Prop where
  exact : InRange64 n → ∃ k : Int64, k.toInt = n ∧ result = .ok (.number (.integer k))
  tooBig : ¬ InRange64 n → result = .error .numberTooBig

theorem Rule.readInteger_read (t : List Char) : IntegerRead (integerValue t) (readInteger t) := by
  have value := signed_takeSign t
  constructor
  · intro fits
    refine ⟨Int64.ofInt (integerValue t), Int64.toInt_ofInt_of_le fits.1 fits.2, ?_⟩
    simp only [readInteger, value, Number.ofInt?, if_pos (inRange64_iff.1 fits)]
  · intro beyond
    simp only [readInteger, value, Number.ofInt?, if_neg (mt inRange64_iff.2 beyond)]

namespace Rule

variable {r s : Rule} {t : List Char}

/-! ## Numbers in a source -/

/-- The rules for numbers. -/
def numbers : List Rule := integer :: specialReal :: decimals

theorem not_overrides_number (number : r ∈ numbers) : ¬ Overrides s r := by
  have none : ∀ r ∈ numbers, ∀ s ∈ all, ¬ Overrides s r := by decide
  exact none r number s (mem_all s)

theorem mayPrecede_number (number : r ∈ numbers) (rest : List Char) : r.mayPrecede rest = true := by
  cases r with
  | foldCase | noFoldCase => exact absurd number (by decide)
  | _ => rfl

theorem lex_number (number : r ∈ numbers) (matched : r.pattern.Matches t) :
    lex (String.ofList t) = [⟨r.read t, String.ofList t, 0⟩] := by
  have whole : best? (t ++ []) = some (r, t.length) := by
    rw [List.append_nil]
    refine best?_whole matched fun s earlier matched' => ?_
    exact not_overrides_number number (overrides_of_earlier earlier matched' matched)
  rw [lex, String.toList_ofList, ← List.append_nil t, lexFrom_append 0 whole, List.append_nil]
  rfl

/-- A number in a source is read by the rule that matches its text. -/
theorem result_number {source : String} {l : Lexeme} (member : l ∈ lex source) (number : r ∈ numbers)
    (matched : r.pattern.Matches l.text.toList) : l.result = r.read l.text.toList :=
  Lexeme.result_of_matches member (mayPrecede_number number) (fun _ => not_overrides_number number) matched

/-- A real is read as the decimal that it is written as, or as an infinity or NaN by its name. -/
inductive RealRead (t : List Char) : Except LexError Token → Prop
  | decimal {negative : Bool} {d : Decimal} : RealText negative d t →
    RealRead t (.ok (.number (.real (d.toBinary64 negative))))
  | named {x : Binary64} : (String.ofList (t.map Char.toLower), x) ∈ namedReals →
    RealRead t (.ok (.number (.real x)))

theorem read_real (real : r ∈ specialReal :: decimals) (matched : r.pattern.Matches t) :
    RealRead t (r.read t) := by
  rcases List.mem_cons.1 real with rfl | decimal
  · obtain ⟨x, named⟩ := namedReal_of_matches matched
    rw [read, readSpecialReal_of_mem named]
    exact .named named
  · obtain ⟨negative, d, text⟩ := realText_of_matches decimal matched
    have read : r.read t = .ok (.number (.real (d.toBinary64 negative))) := by
      have same : r.read t = readReal t := by
        simp only [decimals, List.mem_cons, List.not_mem_nil, or_false] at decimal
        rcases decimal with rfl | rfl | rfl <;> rfl
      rw [same, readReal, text.read?]
    rw [read]
    exact .decimal text

theorem read_ne_malformedNumber (matched : r.pattern.Matches t) : r.read t ≠ .error .malformedNumber := by
  intro failed
  by_cases real : r ∈ specialReal :: decimals
  · have read := read_real real matched
    rw [failed] at read
    cases read
  · cases r with
    | barIdentifier => cases Delimited.malformed_of_decode failed nofun
    | string => cases Delimited.malformed_of_decode failed nofun
    | integer =>
        simp only [read, readInteger] at failed
        split at failed <;> cases failed
    | specialReal | pointReal | fractionReal | exponentReal => exact real (by decide)
    | _ => cases failed

end Rule

/-- The text of an integer is one token, with the number that its digits denote, or an error if that
does not fit into 64 bits.  The text of a real, an infinity or NaN is one token with the real that it
denotes.  Both hold inside of any source too, and in none there is a malformed number. -/
theorem number_literals_denote :
    (∀ t, Rule.integer.pattern.Matches t → ∃ result,
      lex (String.ofList t) = [⟨result, String.ofList t, 0⟩] ∧ IntegerRead (integerValue t) result) ∧
    (∀ r ∈ Rule.specialReal :: Rule.decimals, ∀ t, r.pattern.Matches t → ∃ result,
      lex (String.ofList t) = [⟨result, String.ofList t, 0⟩] ∧ Rule.RealRead t result) ∧
    ∀ source, ∀ l ∈ lex source,
      (Rule.integer.pattern.Matches l.text.toList → IntegerRead (integerValue l.text.toList) l.result) ∧
      (∀ r ∈ Rule.specialReal :: Rule.decimals, r.pattern.Matches l.text.toList →
        Rule.RealRead l.text.toList l.result) ∧
      l.result ≠ .error .malformedNumber := by
  have isNumber : ∀ r ∈ Rule.specialReal :: Rule.decimals, r ∈ Rule.numbers :=
    fun r real => List.mem_cons_of_mem _ real
  refine ⟨?_, ?_, fun source l member => ⟨?_, ?_, ?_⟩⟩
  · intro t matched
    exact ⟨_, Rule.lex_number List.mem_cons_self matched, Rule.readInteger_read t⟩
  · intro r real t matched
    exact ⟨_, Rule.lex_number (isNumber r real) matched, Rule.read_real real matched⟩
  · intro matched
    rw [Rule.result_number member List.mem_cons_self matched]
    exact Rule.readInteger_read l.text.toList
  · intro r real matched
    rw [Rule.result_number member (isNumber r real) matched]
    exact Rule.read_real real matched
  · cases Lexeme.origin member with
    | none _ _ result =>
        rw [result]
        nofun
    | rule best text result =>
        rw [result]
        have matched := (Rule.longest_of_best? best).matched
        rw [← text] at matched
        exact Rule.read_ne_malformedNumber matched

/-- The least integer is read, and the one below it is not. -/
theorem number_literals_denote_least :
    lex "-09223372036854775808" =
      [⟨.ok (.number (.integer Int64.minValue)), "-09223372036854775808", 0⟩] ∧
    lex "-9223372036854775809" = [⟨.error .numberTooBig, "-9223372036854775809", 0⟩] := by
  have least : Rule.integer.pattern.Longest "-09223372036854775808".toList 21 :=
    Regex.longest?_eq_some_iff.1 (by decide +kernel)
  have below : Rule.integer.pattern.Longest "-9223372036854775809".toList 20 :=
    Regex.longest?_eq_some_iff.1 (by decide +kernel)
  obtain ⟨result, lexed, read⟩ := number_literals_denote.1 _ least.matched
  obtain ⟨result', lexed', read'⟩ := number_literals_denote.1 _ below.matched
  obtain ⟨k, value, same⟩ := read.exact (by unfold InRange64; decide)
  have isLeast : k = Int64.minValue := Int64.toInt_inj.1 (value.trans (by decide))
  rw [same, isLeast] at lexed
  rw [read'.tooBig (by unfold InRange64; decide)] at lexed'
  exact ⟨lexed, lexed'⟩

end StoreScheme
