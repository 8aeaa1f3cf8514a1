import StoreScheme.Proofs.Number.Decimal
import StoreScheme.Proofs.Token.Choice
import StoreScheme.Value.Display

/-!
# Written tokens

Every number, string and boolean is written as a text that is one token, which carries the same
value, as long as a delimiter follows.

* `Delimited.decode_stringText`: escapes are undone
* `Token.Spelled`: a text that is a token wherever a delimiter follows
* `Token.spelled_string`, `Token.spelled_integer`, `Token.spelled_real`: the written forms
* `Token.spelled_of_lex`: a text that is an identifier by itself
-/

namespace StoreScheme

/-! ## Escapes -/

namespace Delimited

variable {k : Delimited} {c : Char} {t rest : List Char}

theorem hexDigit?_digitChar (n : Fin 16) : hexDigit? (Nat.digitChar n) = some n.val := by
  revert n
  decide

theorem digitChar_ne_semicolon (n : Fin 16) : Nat.digitChar n ≠ ';' := by
  revert n
  decide

theorem hexEscape_digitChar {code used n : Nat} (digit : n < 16) (small : 16 * code + n ≤ maxCode) :
    k.hexEscape code used (Nat.digitChar n :: rest) = k.hexEscape (16 * code + n) (used + 1) rest := by
  have value := hexDigit?_digitChar ⟨n, digit⟩
  have notEnd := digitChar_ne_semicolon ⟨n, digit⟩
  simp [hexEscape, value, notEnd, small]

theorem hexEscape_toDigits {n : Nat} (used : Nat) (rest : List Char) (small : n ≤ maxCode) :
    k.hexEscape 0 used (Nat.toDigits 16 n ++ rest) =
      k.hexEscape n (used + (Nat.toDigits 16 n).length) rest := by
  induction n using Nat.strongRecOn generalizing rest with
  | ind n ih =>
      by_cases single : n < 16
      · have first : k.hexEscape 0 used (Nat.digitChar n :: rest) =
            k.hexEscape (16 * 0 + n) (used + 1) rest := hexEscape_digitChar single (by omega)
        simpa [Nat.toDigits_of_lt_base single] using first
      · have split := Nat.div_add_mod n 16
        rw [Nat.toDigits_of_base_le (by decide) (Nat.not_lt.1 single), List.append_assoc,
          ih (n / 16) (by omega) _ (by omega), List.singleton_append,
          hexEscape_digitChar (Nat.mod_lt n (by decide)) (by omega), split]
        simp [Nat.add_assoc]

theorem exists_digitChar_of_mem_toDigits {n : Nat} (member : c ∈ Nat.toDigits 16 n) :
    ∃ i : Fin 16, c = Nat.digitChar i := by
  induction n using Nat.strongRecOn with
  | ind n ih =>
      by_cases single : n < 16
      · rw [Nat.toDigits_of_lt_base single] at member
        exact ⟨⟨n, single⟩, by simpa using member⟩
      · rw [Nat.toDigits_of_base_le (by decide) (Nat.not_lt.1 single)] at member
        rcases List.mem_append.1 member with front | last
        · exact ih (n / 16) (by omega) front
        · exact ⟨⟨n % 16, Nat.mod_lt n (by decide)⟩, by simpa using last⟩

theorem charOfCode_toNat (c : Char) : charOfCode c.toNat = .ok c := by
  have valid : c.toNat.isValidChar := c.valid
  simp [charOfCode, valid]

theorem toNat_le_maxCode (c : Char) : c.toNat ≤ maxCode := by
  have valid := c.val.toNat_lt
  simp only [maxCode, Char.toNat]
  omega

theorem escape_hex (c : Char) (rest : List Char) :
    k.escape ('x' :: (Nat.toDigits 16 c.toNat ++ ';' :: rest)) =
      .ok (some c, (Nat.toDigits 16 c.toNat).length + 2) := by
  rw [escape, hexEscape_toDigits 1 _ (toNat_le_maxCode c), hexEscape]
  simp [charOfCode_toNat, Except.map]
  omega

theorem decodeFrom_append (t rest : List Char) :
    k.decodeFrom t.length (t ++ rest) = k.decodeFrom 0 rest := by
  induction t with
  | nil => rfl
  | cons c t ih => simpa [decodeFrom] using ih

theorem decodeFrom_escape {t : List Char} (backslashNotClose : '\\' ≠ k.close)
    (escaped : k.escape (t ++ rest) = .ok (some c, t.length)) :
    k.decodeFrom 0 ('\\' :: (t ++ rest)) = (k.decodeFrom 0 rest).map (c :: ·) := by
  simp [decodeFrom, backslashNotClose, escaped, decodeFrom_append]

/-- How a character is written inside a string. -/
theorem stringChar_cases (c : Char) :
    (stringChar c = [c] ∧ c ≠ '"' ∧ c ≠ '\\') ∨
    (∃ e ∈ "\"\\ntr".toList, stringChar c = ['\\', e] ∧
      ∀ rest, string.escape (e :: rest) = .ok (some c, 1)) ∨
    stringChar c = '\\' :: 'x' :: (Nat.toDigits 16 c.toNat ++ [';']) := by
  unfold stringChar
  split
  · subst c
    exact .inr (.inl ⟨'"', by decide, rfl, fun _ => rfl⟩)
  · split
    · subst c
      exact .inr (.inl ⟨'\\', by decide, rfl, fun _ => rfl⟩)
    · split
      · subst c
        exact .inr (.inl ⟨'n', by decide, rfl, fun _ => rfl⟩)
      · split
        · subst c
          exact .inr (.inl ⟨'t', by decide, rfl, fun _ => rfl⟩)
        · split
          · subst c
            exact .inr (.inl ⟨'r', by decide, rfl, fun _ => rfl⟩)
          · split
            · exact .inr (.inr (by simp))
            · exact .inl ⟨rfl, ‹_›, ‹_›⟩

theorem decodeFrom_stringChar (c : Char) (rest : List Char) :
    string.decodeFrom 0 (stringChar c ++ rest) = (string.decodeFrom 0 rest).map (c :: ·) := by
  have backslashNotClose : '\\' ≠ string.close := by decide
  rcases stringChar_cases c with ⟨text, notQuote, notBackslash⟩ | ⟨e, _, text, escaped⟩ | text
  · have notClose : c ≠ string.close := notQuote
    simp [text, decodeFrom, notClose, notBackslash]
  · rw [text]
    exact decodeFrom_escape (t := [e]) backslashNotClose (escaped rest)
  · have escaped := escape_hex (k := string) c rest
    rw [text]
    have whole : '\\' :: 'x' :: (Nat.toDigits 16 c.toNat ++ [';']) ++ rest =
        '\\' :: ('x' :: (Nat.toDigits 16 c.toNat ++ [';']) ++ rest) := rfl
    rw [whole]
    refine decodeFrom_escape backslashNotClose ?_
    simpa using escaped

theorem decode_stringText (s : String) : string.decode (stringText s) = .ok s := by
  have body : string.decodeFrom 0 (s.toList.flatMap stringChar ++ ['"']) = .ok s.toList := by
    induction s.toList with
    | nil => rfl
    | cons c cs ih =>
        rw [List.flatMap_cons, List.append_assoc, decodeFrom_stringChar, ih]
        rfl
  simp [decode, stringText, body, Except.map]

end Delimited

/-! ## Spelled tokens -/

namespace Rule

theorem matches_escaped {e : Char} (letter : e ∈ "abntr\"\\xX \t\r\n".toList) :
    stringItem.Matches ['\\', e] :=
  .altRight (.seq (Regex.matches_text "\\") (.chars (CharClass.contains_ofString.2 letter)))

theorem matches_ordinary {t : List Char} (ordinary : ∀ c ∈ t, c ∉ "\\\"".toList) :
    Regex.Matches (.star stringItem) t := by
  induction t with
  | nil => exact .starNil
  | cons c t ih =>
      obtain ⟨first, rest⟩ := List.forall_mem_cons.1 ordinary
      exact .starCons (u := [c]) (.altLeft (.chars (CharClass.contains_noneOf.2 first))) (ih rest)

theorem matches_stringChar (c : Char) : Regex.Matches (.star stringItem) (stringChar c) := by
  rcases Delimited.stringChar_cases c with ⟨text, notQuote, notBackslash⟩ | ⟨e, letter, text, _⟩ | text
  · rw [text]
    exact matches_ordinary (by simp [notQuote, notBackslash])
  · have every : ∀ e ∈ "\"\\ntr".toList, e ∈ "abntr\"\\xX \t\r\n".toList :=
      List.all_iff_forall_prop.1 (by decide)
    rw [text]
    exact .starCons (u := ['\\', e]) (matches_escaped (every e letter)) .starNil
  · have digits : ∀ i : Fin 16, Nat.digitChar i ∉ "\\\"".toList := by decide
    have ordinary : ∀ d ∈ Nat.toDigits 16 c.toNat ++ [';'], d ∉ "\\\"".toList := by
      intro d member
      rcases List.mem_append.1 member with digit | last
      · obtain ⟨i, rfl⟩ := Delimited.exists_digitChar_of_mem_toDigits digit
        exact digits i
      · rw [List.mem_singleton.1 last]
        decide
    rw [text]
    exact .starCons (u := ['\\', 'x']) (matches_escaped (by decide)) (matches_ordinary ordinary)

theorem matches_stringText (s : String) : string.pattern.Matches (stringText s) := by
  have body : Regex.Matches (.star stringItem) (s.toList.flatMap stringChar) := by
    induction s.toList with
    | nil => exact .starNil
    | cons c cs ih => exact Regex.matches_star_append (matches_stringChar c) ih
  have close : Regex.Matches (.seq (.text "\"") .epsilon) ['"'] := .seq (Regex.matches_text "\"") .epsilon
  exact .seq (u := ['"']) (Regex.matches_text "\"") (.seq body close)

/-! ## Digits -/

theorem mem_of_isDigit {c : Char} (digit : c.isDigit = true) : c ∈ "0123456789".toList := by
  have every : ∀ n, 48 ≤ n → n ≤ 57 → Char.ofNat n ∈ "0123456789".toList := by
    intro n least most
    obtain ⟨i, rfl⟩ : ∃ i : Fin 10, n = 48 + i.val := ⟨⟨n - 48, by omega⟩, by simp; omega⟩
    revert i
    decide
  obtain ⟨least, most⟩ := Char.isDigit_iff_toNat.1 digit
  rw [← Char.ofNat_toNat c]
  exact every c.toNat least most

theorem contains_digit {c : Char} (isDigit : c.isDigit = true) : digit.contains c = true := by
  have every : ∀ c ∈ "0123456789".toList, digit.contains c = true :=
    List.all_iff_forall_prop.1 (by decide)
  exact every c (mem_of_isDigit isDigit)

theorem matches_digits {ds : List Char} (isDigit : ∀ c ∈ ds, c.isDigit = true) (nonempty : ds ≠ []) :
    digits.Matches ds := by
  cases ds with
  | nil => exact absurd rfl nonempty
  | cons c ds =>
      obtain ⟨first, rest⟩ := List.forall_mem_cons.1 isDigit
      exact .seq (u := [c]) (.chars (contains_digit first))
        (Regex.matches_star_chars fun d member => contains_digit (rest d member))

theorem matches_sign (negative : Bool) :
    (Regex.optional signs).Matches (Number.signText negative).toList := by
  cases negative with
  | false => exact .altRight .epsilon
  | true => exact .altLeft (.chars (by decide))

/-- The rules before the numbers do not match a text of digits, also with a sign. -/
theorem not_matches_digits {s : Rule} (earlier : s ∈ integer.earlier) (negative : Bool) {c : Char}
    (isDigit : c.isDigit = true) (cs : List Char) :
    ¬ s.pattern.Matches ((Number.signText negative).toList ++ c :: cs) := by
  intro matched
  have digit := mem_of_isDigit isDigit
  cases negative with
  | false =>
      have none : (integer.earlier.all fun s => "0123456789".toList.all fun c => !s.pattern.starts c) = true := by
        decide +kernel
      have matched' : s.pattern.Matches (c :: cs) := by simpa [Number.signText] using matched
      have refused := List.all_eq_true.1 (List.all_eq_true.1 none s earlier) c digit
      rw [Regex.starts_of_matches matched'] at refused
      cases refused
  | true =>
      have none : (integer.earlier.all fun s => "0123456789".toList.all fun c =>
          !(Regex.derive '-' s.pattern).starts c) = true := by
        decide +kernel
      have matched' : s.pattern.Matches ('-' :: c :: cs) := by simpa [Number.signText] using matched
      have refused := List.all_eq_true.1 (List.all_eq_true.1 none s earlier) c digit
      rw [Regex.starts_of_matches (Regex.matches_derive.2 matched')] at refused
      cases refused

theorem matches_point (negative : Bool) {whole fraction : List Char}
    (isDigit : ∀ c ∈ whole, c.isDigit = true) (nonempty : whole ≠ [])
    (isDigit' : ∀ c ∈ fraction, c.isDigit = true) :
    pointReal.pattern.Matches ((Number.signText negative).toList ++ (whole ++ '.' :: fraction)) := by
  have digits' : Regex.Matches (.star (.chars digit)) fraction :=
    Regex.matches_star_chars fun c member => contains_digit (isDigit' c member)
  have ending : Regex.Matches (.seq (.optional exponent) .epsilon) [] :=
    .seq (u := []) (.altRight .epsilon) .epsilon
  have rest := Regex.Matches.seq (Regex.matches_text ".") (Regex.Matches.seq digits' ending)
  rw [List.append_nil] at rest
  exact .seq (matches_sign negative) (.seq (matches_digits isDigit nonempty) rest)

theorem not_matches_point (negative : Bool) {whole fraction : List Char}
    (isDigit : ∀ c ∈ whole, c.isDigit = true) (nonempty : whole ≠ []) :
    ∀ s ∈ pointReal.earlier,
      ¬ s.pattern.Matches ((Number.signText negative).toList ++ (whole ++ '.' :: fraction)) := by
  intro s earlier matched
  have kinds : ∀ s ∈ pointReal.earlier, s ∈ integer.earlier ∨ s = integer := by decide
  rcases kinds s earlier with earlier | rfl
  · obtain ⟨c, cs, rfl⟩ := List.exists_cons_of_ne_nil nonempty
    exact not_matches_digits earlier negative (isDigit c List.mem_cons_self) _ matched
  · have noPoint : integer.pattern.avoids '.' = true := by decide
    exact Regex.not_mem_of_avoids noPoint matched (by simp)

end Rule

namespace Token

/-- A text that is a token wherever a delimiter follows, and no blank. -/
def Spelled (token : Token) (t : List Char) : Prop :=
  ∃ r : Rule, r ≠ .whitespace ∧ r.read t = .ok token ∧
    ∀ rest, Rule.Ends rest → Rule.best? (t ++ rest) = some (r, t.length)

variable {token : Token} {r : Rule} {t : List Char}

theorem spelled_of_best? (best : Rule.best? t = some (r, t.length)) (read : r.read t = .ok token)
    (kind : r.isPlain = true ∨ ∃ d, r.opener? = some d) : token.Spelled t := by
  refine ⟨r, ?_, read, fun rest => Rule.best?_ends best kind⟩
  rintro rfl
  rcases kind with plain | ⟨d, opens⟩
  · exact absurd plain (by decide)
  · cases opens

theorem spelled_string (s : String) : (Token.string s).Spelled (stringText s) := by
  have best := Rule.best?_closed (d := '"') rfl (Rule.matches_stringText s) []
  rw [List.append_nil] at best
  exact spelled_of_best? best (by simp [Rule.read, Delimited.decode_stringText, Except.map]) (.inr ⟨'"', rfl⟩)

theorem spelled_boolean (b : Bool) : (Token.boolean b).Spelled (if b then ['#', 't'] else ['#', 'f']) := by
  cases b with
  | false => exact spelled_of_best? (r := .falseLiteral) (by decide +kernel) rfl (.inl (by decide))
  | true => exact spelled_of_best? (r := .trueLiteral) (by decide +kernel) rfl (.inl (by decide))

theorem integer_display (n : Int) :
    (toString n).toList = (Number.signText (n < 0)).toList ++ Nat.toDigits 10 n.natAbs := by
  by_cases negative : n < 0
  · have magnitude : (-n).toNat = n.natAbs := by omega
    simp [Int.toString_eq_repr, Int.repr_eq_if, Nat.repr_eq_ofList_toDigits, Number.signText, negative,
      Int.not_le.2 negative, magnitude]
  · have magnitude : n.toNat = n.natAbs := by omega
    simp [Int.toString_eq_repr, Int.repr_eq_if, Nat.repr_eq_ofList_toDigits, Number.signText, negative,
      Int.not_lt.1 negative, magnitude]

theorem readInteger_display (n : Int64) :
    Rule.readInteger (toString n.toInt).toList = .ok (.number (.integer n)) := by
  have fits : Number.ofInt? n.toInt = some (.integer n) := by
    rw [Number.ofInt?, if_pos ⟨n.minValue_le_toInt, n.toInt_le⟩, Int64.ofInt_toInt]
  have parts : Decimal.takeSign (toString n.toInt).toList =
      (decide (n.toInt < 0), Nat.toDigits 10 n.toInt.natAbs) := by
    rw [integer_display]
    by_cases negative : n.toInt < 0
    · simp [negative, Number.signText, Decimal.takeSign]
    · have unsigned := Decimal.takeSign_isDigit (Decimal.isDigit_toDigits n.toInt.natAbs)
        Nat.toDigits_ne_nil []
      simpa [negative, Number.signText] using unsigned
  have value : Binary64.signed (n.toInt < 0) n.toInt.natAbs = n.toInt := by
    simp only [Binary64.signed, decide_eq_true_eq]
    omega
  simp only [Rule.readInteger, parts, Decimal.ofDigits_toDigits, value, fits]

theorem spelled_integer (n : Int64) :
    (Token.number (.integer n)).Spelled (Number.integer n).display.toList := by
  have best : Rule.best? (toString n.toInt).toList = some (.integer, (toString n.toInt).toList.length) := by
    have isDigit := Decimal.isDigit_toDigits n.toInt.natAbs
    have nonempty : Nat.toDigits 10 n.toInt.natAbs ≠ [] := Nat.toDigits_ne_nil
    rw [integer_display]
    refine Rule.best?_whole (.seq (Rule.matches_sign _) (Rule.matches_digits isDigit nonempty)) ?_
    intro s earlier
    obtain ⟨c, cs, split⟩ := List.exists_cons_of_ne_nil nonempty
    rw [split] at isDigit ⊢
    exact Rule.not_matches_digits earlier _ (isDigit c List.mem_cons_self) cs
  exact spelled_of_best? best (readInteger_display n) (.inl (by decide))

theorem spelled_real {x : Binary64} (notNaN : x ≠ .nan) :
    (Token.number (.real x)).Spelled (Number.real x).display.toList := by
  cases x with
  | nan => exact absurd rfl notNaN
  | infinity negative =>
      cases negative with
      | false => exact spelled_of_best? (r := .specialReal) (by decide +kernel) rfl (.inl (by decide))
      | true => exact spelled_of_best? (r := .specialReal) (by decide +kernel) rfl (.inl (by decide))
  | finite negative position =>
      obtain ⟨whole, fraction, written⟩ := Decimal.written_shortest position
      have text : (Number.real (.finite negative position)).display.toList =
          (Number.signText negative).toList ++ (whole ++ '.' :: fraction) := by
        simp [Number.display, Number.realDisplay, written.text]
      have best := Rule.best?_whole (Rule.matches_point negative written.digits written.nonempty written.digits')
        (Rule.not_matches_point negative written.digits written.nonempty)
      have read : Rule.readReal ((Number.signText negative).toList ++ (whole ++ '.' :: fraction)) =
          .ok (.number (.real (.finite negative position))) := by
        simp [Rule.readReal, written.read?, Decimal.shortest_toBinary64]
      rw [text]
      exact spelled_of_best? best read (.inl (by decide))

theorem isPlain_or_closed_of_identifier {name : String} (read : r.read t = .ok (.identifier name)) :
    r.isPlain = true ∨ ∃ d, r.opener? = some d := by
  cases r with
  | identifier | sign | signedIdentifier | signedDotIdentifier | dotIdentifier => exact .inl (by decide)
  | barIdentifier => exact .inr ⟨'|', rfl⟩
  | string =>
      rw [Rule.read] at read
      cases decoded : Delimited.string.decode t <;> simp [decoded, Except.map] at read
  | integer =>
      simp only [Rule.read, Rule.readInteger] at read
      split at read <;> cases read
  | pointReal | fractionReal | exponentReal =>
      simp only [Rule.read, Rule.readReal] at read
      split at read <;> cases read
  | specialReal =>
      simp only [Rule.read, Rule.readSpecialReal] at read
      split at read <;> cases read
  | _ => cases read

theorem spelled_of_lex {name : String} (alone : lex name = [⟨.ok (.identifier name), name, 0⟩]) :
    (Token.identifier name).Spelled name.toList := by
  unfold lex at alone
  generalize split : name.toList = cs at alone
  cases cs with
  | nil => cases alone
  | cons c cs =>
      have ok : ∀ l ∈ lexFrom 0 0 (c :: cs), ∃ token, l.result = .ok token := by
        rw [alone]
        exact List.forall_mem_singleton.2 ⟨_, rfl⟩
      obtain ⟨r, t, rest, whole, best⟩ := exists_best?_of_ok ok
      rw [whole, lexFrom_append 0 best] at alone
      obtain ⟨first, _⟩ := List.cons.inj alone
      obtain ⟨read, text, _⟩ := Lexeme.mk.inj first
      have all : t = t ++ rest := by rw [← whole, ← split, ← text, String.toList_ofList]
      have none : rest = [] := by simpa using all
      subst none
      rw [List.append_nil] at best whole
      rw [whole]
      exact spelled_of_best? best read (isPlain_or_closed_of_identifier read)

end Token

end StoreScheme
