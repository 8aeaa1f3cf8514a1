import StoreScheme.Proofs.Token.Escapes
import StoreScheme.Proofs.Token.Longest

/-!
# Escapes in hexadecimal

After a backslash, `x` or `X`, any hexadecimal digits and a semicolon stand for the character whose code
the digits denote.  Strings and identifiers between bars read such an escape in the same way wherever they
come to one, and what is no code of a character is an error, however large it is.

* `Delimited.takeEscape_eq_ok_iff`: the escapes that are accepted
* `Delimited.takeEscape_digits_iff`: all of them have digits, except for `x;`
* `Rule.Decodes`, `Lexeme.hexRead`: escapes in the lexemes of a source
* `hex_escapes_read`: any escape by itself and in a source
-/

namespace StoreScheme

namespace Delimited

variable {k : Delimited} {x : Char}

theorem takeEscape_eq_ok_iff (hex : x ∈ ['x', 'X']) (t : List Char) {character : Option Char}
    {rest : List Char} : k.takeEscape (x :: t) = .ok (character, rest) ↔
      ∃ ds c, HexForm (x :: t) ds rest ∧ c.toNat = hexValue ds ∧ character = some c := by
  have read := takeEscape_hexRead (k := k) hex t
  constructor
  · intro taken
    rcases hexForm_or_broken hex t with ⟨ds, rest', form⟩ | ⟨ds, rest', split, digits, ending⟩
    · rcases exists_char_or_unencodable (hexValue ds) with ⟨c, code⟩ | none
      · have same := (read.character ds rest' c form code).symm.trans taken
        simp only [Except.ok.injEq, Prod.mk.injEq] at same
        obtain ⟨rfl, rfl⟩ := same
        exact ⟨ds, c, form, code, rfl⟩
      · have failed := read.unencodable ds rest' form none
        rw [taken] at failed
        cases failed
    · have failed := read.broken ds rest' split digits ending
      rw [taken] at failed
      cases failed
  · rintro ⟨ds, c, form, code, rfl⟩
    exact read.character ds rest c form code

/-- What is accepted has at least one digit, but for the escape that has none. -/
theorem takeEscape_digits_iff (hex : x ∈ ['x', 'X']) (t : List Char) :
    ((∃ taken, k.takeEscape (x :: t) = .ok taken) ↔
      ∃ ds rest, HexForm (x :: t) ds rest ∧ ds ≠ [] ∧ ∃ c : Char, c.toNat = hexValue ds) ↔
    t.head? ≠ some ';' := by
  constructor
  · intro same bare
    obtain ⟨rest, rfl⟩ : ∃ rest, t = ';' :: rest := List.head?_eq_some_iff.1 bare
    have form : HexForm (x :: ';' :: rest) [] rest := ⟨by simp, x, hex, rfl⟩
    have taken := (takeEscape_eq_ok_iff (k := k) hex _).2 ⟨[], '\x00', form, rfl, rfl⟩
    obtain ⟨ds, rest', form', nonempty, -⟩ := same.1 ⟨_, taken⟩
    exact form'.not_bare nonempty form
  · intro notBare
    constructor
    · rintro ⟨⟨character, rest⟩, taken⟩
      obtain ⟨ds, c, form, code, -⟩ := (takeEscape_eq_ok_iff hex t).1 taken
      refine ⟨ds, rest, form, ?_, c, code⟩
      rintro rfl
      obtain ⟨x', -, split⟩ := form.split
      exact notBare (by rw [(List.cons.inj split).2]; rfl)
    · rintro ⟨ds, rest, form, -, c, code⟩
      exact ⟨_, (takeEscape_eq_ok_iff hex t).2 ⟨ds, c, form, code, rfl⟩⟩

theorem takeEscape_barIdentifier {text : List Char} (other : ¬ HexStart text) :
    barIdentifier.takeEscape text = .error .malformedIdentifier := by
  cases text with
  | nil => rfl
  | cons c cs =>
      have notHex : ¬ (c = 'x' || c = 'X') = true := fun hex => other (.letter (by simpa using hex))
      rw [takeEscape, escape, if_neg notHex]
      rfl

end Delimited

/-! ## Escapes in a source -/

/-- The rules for texts between delimiters, with the tokens that these give. -/
inductive Rule.Decodes : Rule → Delimited → (String → Token) → Prop
  | string : Decodes .string .string .string
  | barIdentifier : Decodes .barIdentifier .barIdentifier .identifier

section
variable {r : Rule} {k : Delimited} {token : String → Token}

theorem Rule.Decodes.backslash (decodes : r.Decodes k token) : '\\' ≠ k.close := by
  cases decodes <;> decide

theorem Rule.Decodes.read (decodes : r.Decodes k token) (t : List Char) :
    r.read t = (k.decodeFrom 0 t.tail).map fun out => token (String.ofList out) := by
  cases decodes <;> exact Delimited.map_map _ _ _

theorem Rule.Decodes.result (decodes : r.Decodes k token) {source : String} {l : Lexeme}
    (member : l ∈ lex source) (matched : r.pattern.Matches l.text.toList) :
    l.result = r.read l.text.toList := by
  cases decodes with
  | string => exact Lexeme.result_of_matches member (fun _ => rfl) nofun matched
  | barIdentifier => exact Lexeme.result_of_matches member (fun _ => rfl) nofun matched

/-- An escape that decoding comes to decides how the lexeme goes on from there, or that it is an error. -/
theorem Lexeme.hexRead {source : String} {l : Lexeme} (member : l ∈ lex source) (decodes : r.Decodes k token)
    (matched : r.pattern.Matches l.text.toList) {before t : List Char} {x : Char} (hex : x ∈ ['x', 'X'])
    (reaches : k.Reaches l.text.toList.tail before ('\\' :: x :: t)) :
    HexRead k (x :: t)
      (fun c rest => (k.decodeFrom 0 rest).map fun after => token (String.ofList (before ++ c :: after)))
      l.result := by
  have result : l.result = (k.decodeFrom 0 ('\\' :: x :: t)).map
      fun out => token (String.ofList (before ++ out)) := by
    rw [decodes.result member matched, decodes.read, reaches.decodeFrom decodes.backslash,
      Delimited.map_map]
    rfl
  rw [Delimited.decodeFrom_backslash decodes.backslash] at result
  refine (Delimited.takeEscape_hexRead (k := k) hex t).lift (fun c rest taken => ?_) fun e failed => ?_
  · rw [result, taken, Delimited.map_map]
    rfl
  · rw [result, failed]
    rfl

end

/-- After a backslash, a text that starts with `x` or `X` is accepted just if hexadecimal digits and a
semicolon follow and the digits denote the code of a character: it is read as that character, and what is
left is the text behind the semicolon.  Any other code is an error.  This is what is accepted for one or
more digits, and differs from it just where a semicolon follows without any.  Decoding a string or an
identifier between bars in a source goes from place to place until its end or a failed escape, and where it
comes to such a text after a backslash, it reads it in this way. -/
theorem hex_escapes_read (text : List Char) :
    (HexStart text → ∀ k : Delimited,
      HexRead k text (fun c rest => .ok (some c, rest)) (k.takeEscape text) ∧
      (∀ character rest, k.takeEscape text = .ok (character, rest) ↔
        ∃ ds c, HexForm text ds rest ∧ c.toNat = hexValue ds ∧ character = some c) ∧
      (((∃ taken, k.takeEscape text = .ok taken) ↔
          ∃ ds rest, HexForm text ds rest ∧ ds ≠ [] ∧ ∃ c : Char, c.toNat = hexValue ds) ↔
        text.tail.head? ≠ some ';')) ∧
    (¬ HexStart text → Delimited.barIdentifier.takeEscape text = .error .malformedIdentifier) ∧
    ∀ source, ∀ l ∈ lex source, ∀ r k token, Rule.Decodes r k token → r.pattern.Matches l.text.toList →
      (∃ result, k.Ends l.text.toList.tail result ∧
        l.result = result.map fun out => token (String.ofList out)) ∧
      ∀ before, k.Reaches l.text.toList.tail before ('\\' :: text) → HexStart text →
        HexRead k text
          (fun c rest => (k.decodeFrom 0 rest).map fun after => token (String.ofList (before ++ c :: after)))
          l.result := by
  refine ⟨?_, Delimited.takeEscape_barIdentifier, ?_⟩
  · rintro ⟨hex⟩ k
    refine ⟨Delimited.takeEscape_hexRead hex _, ?_, Delimited.takeEscape_digits_iff hex _⟩
    intro character rest
    exact Delimited.takeEscape_eq_ok_iff hex _
  · intro source l member r k token decodes matched
    refine ⟨⟨_, Delimited.ends_decodeFrom decodes.backslash _, ?_⟩, ?_⟩
    · rw [decodes.result member matched, decodes.read]
    · rintro before reaches ⟨hex⟩
      exact Lexeme.hexRead member decodes matched hex reaches

/-- A code that is larger than that of `A` by `2 ^ 32` is not read as `A`. -/
theorem hex_escapes_read_wide :
    (lex "\"\\x0041;\\X100000041;\"").map (·.result) = [.error (.invalidCodepoint 0xffffffff)] := by
  obtain ⟨l, text, lexed⟩ : ∃ l : Lexeme, l.text.toList = "\"\\x0041;\\X100000041;\"".toList ∧
      lex "\"\\x0041;\\X100000041;\"" = [l] := ⟨_, rfl, by rfl⟩
  have member : l ∈ lex "\"\\x0041;\\X100000041;\"" := by simp [lexed]
  have longest : Rule.string.pattern.Longest "\"\\x0041;\\X100000041;\"".toList 21 :=
    Regex.longest?_eq_some_iff.1 (by decide +kernel)
  have read := ((hex_escapes_read "X100000041;\"".toList).2.2 _ l member _ _ _ .string
    (text ▸ longest.matched)).2 ['A']
  rw [text] at read
  have taken : Delimited.string.takeEscape "x0041;\\X100000041;\"".toList =
      .ok (some 'A', "\\X100000041;\"".toList) := rfl
  have wide := (read (.escape .start taken) (.letter (by decide))).unencodable "100000041".toList ['"']
    ⟨List.all_iff_forall_prop.1 (by decide), 'X', by decide, rfl⟩
    (by unfold Unencodable; decide)
  rw [lexed, List.map_singleton, wide]
  rfl

/-- An escape without digits is accepted, as the first character of all. -/
theorem hex_escape_bare :
    Delimited.string.takeEscape "x;\"".toList = .ok (some '\x00', ['"']) ∧
    (¬ ∃ ds rest, HexForm "x;\"".toList ds rest ∧ ds ≠ []) ∧
    lex "\"\\x;\"" = [⟨.ok (.string "\x00"), "\"\\x;\"", 0⟩] ∧
    lex "|\\x;|" = [⟨.ok (.identifier "\x00"), "|\\x;|", 0⟩] := by
  refine ⟨rfl, ?_, by rfl, by rfl⟩
  rintro ⟨ds, rest, form, nonempty⟩
  exact form.not_bare nonempty ⟨by simp, 'x', by simp, rfl⟩

end StoreScheme
