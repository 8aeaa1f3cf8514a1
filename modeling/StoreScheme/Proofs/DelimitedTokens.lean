import StoreScheme.Proofs.HexEscapes
import StoreScheme.Proofs.Token.NumberText

/-!
# Delimited tokens

The rule of a string and its decoder know the same escapes, so decoding never leaves the token that was
matched: it fails at an escape in hexadecimal or comes to the closing quote at the very end.  What it gives
can be told from the text, escape by escape.  Between bars any character may stand, and decoding comes to the
last bar or fails at a backslash that begins no escape.

* `StringEscape`, `Stands`: what an escape stands for, and the text of a string
* `Delimited.takeEscape_string_iff`: one escape in a string
* `Stands.decodeFrom`, `Delimited.Reaches.stands`: decoding, from the text and back
* `Delimited.Invariant`: what holds of the texts that are left to decode
* `stringRest_invariant`, `barRest_invariant`: the rules keep decoding inside of their tokens
* `delimited_tokens_decoded`: every text that a rule matches
-/

namespace StoreScheme

/-! ## Escapes in strings -/

/-- The letters that stand for another character after a backslash, with its code. -/
def escapeLetters : List (Char × Nat) :=
  [('a', 7), ('b', 8), ('t', 9), ('n', 10), ('r', 13), ('"', 34), ('\\', 92)]

def blanks : List Char := [' ', '\t', '\r', '\n']

/-- What a text stands for after a backslash, and the rest of the text behind that.  An escape in hexadecimal
has at least a given number of digits. -/
inductive StringEscape (least : Nat) : List Char → Option Char → List Char → Prop
  | letter {e c : Char} {rest : List Char} : (e, c.toNat) ∈ escapeLetters →
    StringEscape least (e :: rest) (some c) rest
  | hex {text ds rest : List Char} {c : Char} : HexForm text ds rest → least ≤ ds.length →
    c.toNat = hexValue ds → StringEscape least text (some c) rest
  | join {run rest : List Char} : run ≠ [] → (∀ c ∈ run, c ∈ blanks) → (∀ c ∈ rest.head?, c ∉ blanks) →
    StringEscape least (run ++ rest) none rest

/-- The characters that the text between the quotes of a string stands for. -/
inductive Stands (least : Nat) : List Char → List Char → Prop
  | nil : Stands least [] []
  | plain {c : Char} {rest out : List Char} : c ≠ '"' → c ≠ '\\' → Stands least rest out →
    Stands least (c :: rest) (c :: out)
  | escape {text rest out : List Char} {character : Option Char} :
    StringEscape least text character rest → Stands least rest out →
    Stands least ('\\' :: text) (character.toList ++ out)

namespace Delimited

variable {text rest run : List Char} {e c : Char} {character : Option Char}

theorem isBlank_iff : isBlank c = true ↔ c ∈ blanks := by
  simp [isBlank, blanks, or_assoc]

theorem lookup_letters_iff : string.letters.lookup e = some c ↔ (e, c.toNat) ∈ escapeLetters := by
  constructor
  · intro found
    obtain ⟨before, after, table, -⟩ := List.lookup_eq_some_iff.1 found
    have every : ∀ p ∈ string.letters, (p.1, p.2.toNat) ∈ escapeLetters := by decide
    exact every (e, c) (by simp [table])
  · intro member
    have every : ∀ p ∈ escapeLetters, string.letters.lookup p.1 = some (Char.ofNat p.2) := by decide
    have found := every _ member
    rwa [Char.ofNat_toNat] at found

theorem takeEscape_letter (letter : (e, c.toNat) ∈ escapeLetters) (rest : List Char) :
    string.takeEscape (e :: rest) = .ok (some c, rest) := by
  have other : ∀ p ∈ escapeLetters, (p.1 = 'x' || p.1 = 'X') = false ∧ isBlank p.1 = false := by decide
  obtain ⟨notHex, notBlank⟩ := other _ letter
  simp only [takeEscape, escape, notHex, notBlank, lookup_letters_iff.2 letter]
  rfl

theorem takeEscape_run (nonempty : run ≠ []) (blank : ∀ c ∈ run, c ∈ blanks)
    (ends : ∀ c ∈ rest.head?, c ∉ blanks) : string.takeEscape (run ++ rest) = .ok (none, rest) := by
  obtain ⟨b, run, rfl⟩ := List.exists_cons_of_ne_nil nonempty
  obtain ⟨first, blank⟩ := List.forall_mem_cons.1 blank
  have other : ∀ b ∈ blanks, (b = 'x' || b = 'X') = false := List.all_iff_forall_prop.1 (by decide)
  have whole : (run ++ rest).takeWhile isBlank = run := by
    rw [List.takeWhile_append_of_pos fun c member => isBlank_iff.2 (blank c member)]
    cases rest with
    | nil => simp
    | cons c rest =>
        have stops : isBlank c = false := Bool.eq_false_iff.2 fun isBlank => ends c rfl (isBlank_iff.1 isBlank)
        simp [stops]
  simp only [takeEscape, List.cons_append, escape, other b first, isBlank_iff.2 first, whole]
  simp [Except.map, string, Nat.add_comm 1]

theorem exists_run (blank : e ∈ blanks) (text : List Char) : ∃ run rest, e :: text = run ++ rest ∧
    run ≠ [] ∧ (∀ c ∈ run, c ∈ blanks) ∧ ∀ c ∈ rest.head?, c ∉ blanks := by
  refine ⟨e :: text.takeWhile isBlank, text.dropWhile isBlank, ?_, List.cons_ne_nil _ _, ?_, ?_⟩
  · rw [List.cons_append, List.takeWhile_append_dropWhile]
  · exact List.forall_mem_cons.2
      ⟨blank, fun c member => isBlank_iff.1 (List.all_eq_true.1 List.all_takeWhile c member)⟩
  · intro c first member
    have stops := List.head?_dropWhile_not isBlank text
    rw [Option.mem_def.1 first] at stops
    exact Bool.false_ne_true (stops.symm.trans (isBlank_iff.2 member))

theorem takeEscape_string_iff : string.takeEscape text = .ok (character, rest) ↔
    StringEscape 0 text character rest := by
  constructor
  · intro taken
    cases text with
    | nil => cases taken
    | cons e text =>
        by_cases hex : e ∈ ['x', 'X']
        · obtain ⟨ds, c, form, code, rfl⟩ := (takeEscape_eq_ok_iff hex text).1 taken
          exact .hex form (Nat.zero_le _) code
        by_cases blank : e ∈ blanks
        · obtain ⟨run, rest', split, nonempty, blank, ends⟩ := exists_run blank text
          rw [split] at taken ⊢
          cases (takeEscape_run nonempty blank ends).symm.trans taken
          exact .join nonempty blank ends
        · have notHex : ¬ (e = 'x' || e = 'X') = true := by simpa using hex
          have notBlank : ¬ (string.joinsLines && isBlank e) = true := fun joins => blank (isBlank_iff.1 joins)
          rw [takeEscape, escape, if_neg notHex, if_neg notBlank] at taken
          cases found : string.letters.lookup e with
          | none =>
              rw [found] at taken
              cases taken
          | some c =>
              rw [found] at taken
              cases taken
              exact .letter (lookup_letters_iff.1 found)
  · intro escape
    cases escape with
    | letter letter => exact takeEscape_letter letter _
    | hex form _ code =>
        obtain ⟨x, hex, rfl⟩ := form.split
        exact (takeEscape_eq_ok_iff hex _).2 ⟨_, _, form, code, rfl⟩
    | join nonempty blank ends => exact takeEscape_run nonempty blank ends

end Delimited

/-! ## Texts of strings -/

section
variable {least : Nat} {text rest body out : List Char} {character : Option Char}

theorem StringEscape.mono {more : Nat} (fewer : least ≤ more) (escape : StringEscape more text character rest) :
    StringEscape least text character rest := by
  cases escape with
  | letter letter => exact .letter letter
  | hex form digits code => exact .hex form (Nat.le_trans fewer digits) code
  | join nonempty blank ends => exact .join nonempty blank ends

theorem StringEscape.taken (escape : StringEscape least text character rest) :
    Delimited.string.takeEscape text = .ok (character, rest) :=
  Delimited.takeEscape_string_iff.2 (escape.mono (Nat.zero_le least))

/-- With a digit asked for, what is accepted is what the decoder takes, but for the escape without any. -/
theorem stringEscape_one_iff : StringEscape 1 text character rest ↔
    Delimited.string.takeEscape text = .ok (character, rest) ∧ ∀ rest', ¬ HexForm text [] rest' := by
  constructor
  · intro escape
    refine ⟨escape.taken, fun rest' bare => ?_⟩
    cases escape with
    | letter letter =>
        obtain ⟨x, hex, split⟩ := bare.split
        obtain ⟨rfl, -⟩ := List.cons.inj split
        have other : ∀ p ∈ escapeLetters, p.1 ∉ ['x', 'X'] := by decide
        exact other _ letter hex
    | hex form digits _ => exact form.not_bare (List.ne_nil_of_length_pos digits) bare
    | @join run _ nonempty blank _ =>
        obtain ⟨b, run, rfl⟩ := List.exists_cons_of_ne_nil nonempty
        obtain ⟨x, hex, split⟩ := bare.split
        obtain ⟨rfl, -⟩ := List.cons.inj split
        have other : ∀ b ∈ blanks, b ∉ ['x', 'X'] := List.all_iff_forall_prop.1 (by decide)
        exact other _ (blank _ List.mem_cons_self) hex
  · rintro ⟨taken, digits⟩
    cases Delimited.takeEscape_string_iff.1 taken with
    | letter letter => exact .letter letter
    | @hex _ ds _ _ form _ code =>
        refine .hex form (Nat.pos_of_ne_zero fun none => ?_) code
        rw [List.length_eq_zero_iff.1 none] at form
        exact digits rest form
    | join nonempty blank ends => exact .join nonempty blank ends

theorem StringEscape.append_close (escape : StringEscape least text character rest) :
    StringEscape least (text ++ ['"']) character (rest ++ ['"']) := by
  cases escape with
  | letter letter => exact .letter letter
  | @hex _ ds _ _ form digits code =>
      obtain ⟨x, hex, rfl⟩ := form.split
      exact .hex ⟨form.digits, x, hex, by simp⟩ digits code
  | join nonempty blank ends =>
      rw [List.append_assoc]
      refine .join nonempty blank ?_
      -- The closing quote is no blank, so it does not make the run any longer.
      cases rest with
      | nil => simp [blanks]
      | cons c rest => exact ends

theorem StringEscape.before_close (escape : StringEscape least text character (rest ++ ['"'])) :
    ∃ before, text = before ++ ['"'] ∧ StringEscape least before character rest := by
  generalize whole : rest ++ ['"'] = behind at escape
  cases escape with
  | @letter e _ _ letter => exact ⟨e :: rest, by rw [← whole, List.cons_append], .letter letter⟩
  | @hex _ ds _ _ form digits code =>
      obtain ⟨x, hex, rfl⟩ := form.split
      exact ⟨x :: (ds ++ ';' :: rest), by simp [← whole], .hex ⟨form.digits, x, hex, rfl⟩ digits code⟩
  | @join run _ nonempty blank ends =>
      subst whole
      refine ⟨run ++ rest, by rw [List.append_assoc], .join nonempty blank ?_⟩
      cases rest with
      | nil => nofun
      | cons c rest => exact ends

theorem Stands.decodeFrom (stands : Stands least body out) :
    Delimited.string.decodeFrom 0 (body ++ ['"']) = .ok out := by
  induction stands with
  | nil => rfl
  | @plain c rest out inside ordinary _ ih =>
      have notClose : ¬ c = Delimited.string.close := inside
      rw [List.cons_append, Delimited.decodeFrom, if_neg notClose, if_neg ordinary, ih]
      rfl
  | @escape text rest out character escape _ ih =>
      rw [List.cons_append, Delimited.decodeFrom_backslash (by decide), escape.append_close.taken]
      dsimp only
      rw [ih]
      rfl

theorem Stands.unique {least' : Nat} {out' : List Char} (first : Stands least body out)
    (second : Stands least' body out') : out = out' :=
  Except.ok.inj (first.decodeFrom.symm.trans second.decodeFrom)

theorem Stands.backslash {items more : List Char} (stands : Stands least items more)
    (split : '\\' :: text = items ++ ['"']) :
    ∃ character rest more', StringEscape least text character (rest ++ ['"']) ∧ Stands least rest more' := by
  cases stands with
  | nil => cases split
  | plain _ ordinary _ => exact absurd (List.cons.inj split).1.symm ordinary
  | escape escape rest =>
      obtain ⟨-, rfl⟩ := List.cons.inj split
      exact ⟨_, _, _, escape.append_close, rest⟩

end

namespace Delimited.Reaches

variable {least : Nat} {rest body out : List Char}

/-- What is decoded is what the text stands for, if the escapes that decoding comes to have the digits that
are asked for. -/
theorem stands
    (digits : ∀ before text character rest, string.Reaches (body ++ ['"']) before ('\\' :: text) →
      string.takeEscape text = .ok (character, rest) → StringEscape least text character rest)
    (reaches : string.Reaches (body ++ ['"']) out rest) (items more : List Char)
    (left : rest = items ++ ['"']) (stands : Stands least items more) : Stands least body (out ++ more) := by
  -- The text that is left is put together backwards, from the end to the start.
  induction reaches generalizing items more with
  | start =>
      obtain rfl := List.append_cancel_right left
      exact stands
  | @plain out c rest reaches inside ordinary ih =>
      subst left
      have before := ih (c :: items) (c :: more) rfl (.plain inside ordinary stands)
      rwa [List.append_cons] at before
  | @escape out text character rest reaches taken ih =>
      subst left
      obtain ⟨own, rfl, escape⟩ := (digits out text character _ reaches taken).before_close
      have before := ih ('\\' :: own) (character.toList ++ more) rfl (.escape escape stands)
      rwa [← List.append_assoc] at before

theorem exists_stands (reaches : string.Reaches (body ++ ['"']) out rest) {whole : List Char}
    (stands : Stands least body whole) : ∃ items more, rest = items ++ ['"'] ∧ Stands least items more := by
  induction reaches with
  | start => exact ⟨body, whole, rfl, stands⟩
  | @plain out c rest _ inside ordinary ih =>
      obtain ⟨items, more, left, stands⟩ := ih
      cases stands with
      | nil => exact absurd (List.cons.inj left).1 inside
      | plain _ _ stands => exact ⟨_, _, (List.cons.inj left).2, stands⟩
      | escape _ _ => exact absurd (List.cons.inj left).1 ordinary
  | @escape out text character rest _ taken ih =>
      obtain ⟨items, more, left, stands⟩ := ih
      obtain ⟨character', rest', more', escape, stands⟩ := stands.backslash left
      cases taken.symm.trans escape.taken
      exact ⟨rest', more', rfl, stands⟩

theorem stands_zero (reaches : string.Reaches (body ++ ['"']) out ['"']) : Stands 0 body out := by
  have stands := reaches.stands (fun _ _ _ _ _ => takeEscape_string_iff.1) [] [] rfl .nil
  rwa [List.append_nil] at stands

theorem stands_one_iff (reaches : string.Reaches (body ++ ['"']) out ['"']) : Stands 1 body out ↔
    ∀ before text rest, string.Reaches (body ++ ['"']) before ('\\' :: text) → ¬ HexForm text [] rest := by
  constructor
  · intro stands before text rest comes
    obtain ⟨items, more, left, stands⟩ := comes.exists_stands stands
    obtain ⟨_, _, _, escape, -⟩ := stands.backslash left
    exact (stringEscape_one_iff.1 escape).2 rest
  · intro digits
    have stands := reaches.stands (fun before text _ _ comes taken =>
      stringEscape_one_iff.2 ⟨taken, fun rest => digits before text rest comes⟩) [] [] rfl .nil
    rwa [List.append_nil] at stands

end Delimited.Reaches

/-! ## Inside of a token -/

namespace Delimited

/-- A property of the texts that are left to decode. -/
structure Invariant (k : Delimited) (P : List Char → Prop) : Prop where
  plain : ∀ c rest, P (c :: rest) → c ≠ k.close → c ≠ '\\' → P rest
  escape : ∀ text character rest, P ('\\' :: text) → k.takeEscape text = .ok (character, rest) → P rest
  close : ∀ rest, P rest → (∀ c ∈ rest.head?, c = k.close) → rest = [k.close]

variable {k : Delimited} {P : List Char → Prop} {body out rest : List Char}

theorem Invariant.reaches (invariant : k.Invariant P) (start : P body) (reaches : k.Reaches body out rest) :
    P rest := by
  induction reaches with
  | start => exact start
  | plain _ inside ordinary ih => exact invariant.plain _ _ ih inside ordinary
  | escape _ taken ih => exact invariant.escape _ _ _ ih taken

theorem Invariant.ends (invariant : k.Invariant P) (backslashNotClose : '\\' ≠ k.close) (start : P body) :
    (∃ before text e, k.Reaches body before ('\\' :: text) ∧ k.takeEscape text = .error e ∧
      k.decodeFrom 0 body = .error e) ∨
    ∃ out, k.Reaches body out [k.close] ∧ k.decodeFrom 0 body = .ok out := by
  have ends := ends_decodeFrom backslashNotClose body
  generalize k.decodeFrom 0 body = result at ends
  cases ends with
  | error reaches failed => exact .inl ⟨_, _, _, reaches, failed, rfl⟩
  | close reaches closes =>
      rw [invariant.close _ (invariant.reaches start reaches) closes] at reaches
      exact .inr ⟨_, reaches, rfl⟩

theorem skip_ordinary (plain : ∀ c rest, P (c :: rest) → c ≠ k.close → c ≠ '\\' → P rest) {skipped : List Char}
    (ordinary : ∀ c ∈ skipped, c ≠ k.close ∧ c ≠ '\\') (holds : P (skipped ++ rest)) : P rest := by
  induction skipped with
  | nil => exact holds
  | cons c skipped ih =>
      obtain ⟨⟨inside, ordinary⟩, others⟩ := List.forall_mem_cons.1 ordinary
      exact ih others (plain c _ holds inside ordinary)

theorem ordinary_of_digit {c d : Char} (other : d.toLower ∉ hexDigits) (digit : c.toLower ∈ hexDigits) : c ≠ d := by
  rintro rfl
  exact other digit

theorem skip_hexForm (plain : ∀ c rest, P (c :: rest) → c ≠ k.close → c ≠ '\\' → P rest)
    (closes : k.close.toLower ∉ hexDigits ∧ k.close ≠ ';') {x : Char} {text ds : List Char}
    (form : HexForm (x :: text) ds rest) (holds : P text) : P rest := by
  obtain ⟨_, -, split⟩ := form.split
  rw [(List.cons.inj split).2, List.append_cons] at holds
  refine skip_ordinary plain (List.forall_mem_append.2 ⟨fun c member => ?_, ?_⟩) holds
  · have digit := form.digits c member
    exact ⟨ordinary_of_digit closes.1 digit, ordinary_of_digit (by decide) digit⟩
  · exact List.forall_mem_singleton.2 ⟨closes.2.symm, by decide⟩

end Delimited

/-! ## Strings -/

/-- The rest of a text that the rule of strings matches. -/
def StringRest (rest : List Char) : Prop :=
  ∃ items, Regex.Matches (.star Rule.stringItem) items ∧ rest = items ++ ['"']

theorem Rule.stringItems_cases {c : Char} {w : List Char} (matched : Regex.Matches (.star stringItem) (c :: w)) :
    c ≠ '"' ∧ c ≠ '\\' ∧ Regex.Matches (.star stringItem) w ∨
      c = '\\' ∧ ∃ e v, e ∈ "abntr\"\\xX \t\r\n".toList ∧ Regex.Matches (.star stringItem) v ∧ w = e :: v := by
  obtain ⟨u, v, item, items, rfl⟩ := Regex.matches_star_cons.1 matched
  obtain plain | escape := Regex.matches_alt.1 item
  · obtain ⟨contains, rfl⟩ := Regex.matches_chars_cons.1 plain
    have other := CharClass.contains_noneOf.1 contains
    exact .inl ⟨fun quote => other (by simp [quote]), fun backslash => other (by simp [backslash]), items⟩
  · obtain ⟨first, second, backslash, letter, split⟩ := Regex.matches_seq.1 escape
    obtain ⟨e, contains, rfl⟩ := Regex.matches_chars.1 letter
    rw [Regex.matches_text_iff.1 backslash] at split
    obtain ⟨rfl, rfl⟩ := List.cons.inj split
    exact .inr ⟨rfl, e, v, CharClass.contains_ofString.1 contains, items, rfl⟩

theorem stringRest_cons {c : Char} {rest : List Char} (inside : StringRest (c :: rest)) :
    c = '"' ∧ rest = [] ∨ c ≠ '"' ∧ c ≠ '\\' ∧ StringRest rest ∨
      c = '\\' ∧ ∃ e v, e ∈ "abntr\"\\xX \t\r\n".toList ∧ StringRest v ∧ rest = e :: v := by
  obtain ⟨items, matched, split⟩ := inside
  cases items with
  | nil =>
      obtain ⟨rfl, rfl⟩ := List.cons.inj split
      exact .inl ⟨rfl, rfl⟩
  | cons d items =>
      obtain ⟨rfl, rfl⟩ := List.cons.inj split
      refine .inr ?_
      obtain ⟨inside, ordinary, later⟩ | ⟨rfl, e, v, letter, later, rfl⟩ := Rule.stringItems_cases matched
      · exact .inl ⟨inside, ordinary, items, later, rfl⟩
      · exact .inr ⟨rfl, e, v ++ ['"'], letter, ⟨v, later, rfl⟩, rfl⟩

theorem stringRest_plain (c : Char) (rest : List Char) (inside : StringRest (c :: rest)) (notClose : c ≠ '"')
    (ordinary : c ≠ '\\') : StringRest rest := by
  obtain ⟨rfl, -⟩ | ⟨-, -, inside⟩ | ⟨rfl, -⟩ := stringRest_cons inside
  · exact absurd rfl notClose
  · exact inside
  · exact absurd rfl ordinary

theorem escapable : ∀ e ∈ "abntr\"\\xX \t\r\n".toList,
    e ∈ ['x', 'X'] ∨ e ∈ blanks ∨ ∃ code, (e, code) ∈ escapeLetters := by
  have letters : ∀ e ∈ "abntr\"\\xX \t\r\n".toList,
      e ∈ ['x', 'X'] ∨ e ∈ blanks ∨ e ∈ escapeLetters.map Prod.fst := List.all_iff_forall_prop.1 (by decide)
  intro e member
  refine (letters e member).imp_right fun other => other.imp_right fun letter => ?_
  obtain ⟨⟨_, code⟩, found, rfl⟩ := List.mem_map.1 letter
  exact ⟨code, found⟩

theorem stringRest_backslash {text : List Char} (inside : StringRest ('\\' :: text)) :
    ∃ e v, e ∈ "abntr\"\\xX \t\r\n".toList ∧ StringRest v ∧ text = e :: v := by
  obtain ⟨⟨⟩, -⟩ | ⟨-, ordinary, -⟩ | ⟨-, letter⟩ := stringRest_cons inside
  · exact absurd rfl ordinary
  · exact letter

theorem hexStart_of_failed {text : List Char} {error : LexError} (inside : StringRest ('\\' :: text))
    (failed : Delimited.string.takeEscape text = .error error) : HexStart text := by
  obtain ⟨e, v, letter, -, rfl⟩ := stringRest_backslash inside
  obtain hex | blank | named := escapable e letter
  · exact .letter hex
  · obtain ⟨run, rest, split, nonempty, blank, ends⟩ := Delimited.exists_run blank v
    rw [split, Delimited.takeEscape_run nonempty blank ends] at failed
    cases failed
  · obtain ⟨code, member⟩ := named
    have codes : ∀ p ∈ escapeLetters, (Char.ofNat p.2).toNat = p.2 := by decide
    rw [Delimited.takeEscape_letter (c := Char.ofNat code) (codes _ member ▸ member)] at failed
    cases failed

theorem stringRest_invariant : Delimited.string.Invariant StringRest where
  plain := stringRest_plain
  escape text character rest inside taken := by
    obtain ⟨e, v, -, behind, split⟩ := stringRest_backslash inside
    cases Delimited.takeEscape_string_iff.1 taken with
    | letter _ =>
        obtain ⟨-, rfl⟩ := List.cons.inj split
        exact behind
    | hex form _ _ =>
        subst split
        exact Delimited.skip_hexForm (k := .string) stringRest_plain (by decide) form behind
    | @join run _ nonempty blank _ =>
        obtain ⟨b, run, rfl⟩ := List.exists_cons_of_ne_nil nonempty
        obtain ⟨-, rfl⟩ := List.cons.inj split
        have ordinary : ∀ b ∈ blanks, b ≠ '"' ∧ b ≠ '\\' := List.all_iff_forall_prop.1 (by decide)
        exact Delimited.skip_ordinary (k := .string) stringRest_plain
          (fun c member => ordinary c (blank c (List.mem_cons_of_mem _ member))) behind
  close rest inside closes := by
    cases rest with
    | nil =>
        obtain ⟨items, -, split⟩ := inside
        exact absurd split.symm (List.append_ne_nil_of_right_ne_nil _ (List.cons_ne_nil _ _))
    | cons c rest =>
        obtain rfl := closes c rfl
        obtain ⟨-, rfl⟩ | ⟨notClose, -⟩ | ⟨⟨⟩, -⟩ := stringRest_cons inside
        · rfl
        · exact absurd rfl notClose

/-! ## Identifiers between bars -/

def BarRest (rest : List Char) : Prop := ∃ inner, '|' ∉ inner ∧ rest = inner ++ ['|']

theorem barRest_tail {c : Char} {rest : List Char} (inside : BarRest (c :: rest)) (notClose : c ≠ '|') :
    BarRest rest := by
  obtain ⟨inner, noBar, split⟩ := inside
  cases inner with
  | nil => exact absurd (List.cons.inj split).1 notClose
  | cons d inner => exact ⟨inner, fun bar => noBar (List.mem_cons_of_mem _ bar), (List.cons.inj split).2⟩

theorem hexStart_of_takeEscape {text rest : List Char} {character : Option Char}
    (taken : Delimited.barIdentifier.takeEscape text = .ok (character, rest)) : HexStart text := by
  by_contra other
  rw [Delimited.takeEscape_barIdentifier other] at taken
  cases taken

theorem barRest_invariant : Delimited.barIdentifier.Invariant BarRest where
  plain _ _ inside notClose _ := barRest_tail inside notClose
  escape text character rest inside taken := by
    cases hexStart_of_takeEscape taken with
    | @letter x text hex =>
        obtain ⟨ds, c, form, -, -⟩ := (Delimited.takeEscape_eq_ok_iff hex text).1 taken
        have notBar : x ≠ '|' := fun bar => by simp [bar] at hex
        exact Delimited.skip_hexForm (k := .barIdentifier) (fun _ _ inside notClose _ => barRest_tail inside notClose)
          (by decide) form (barRest_tail (barRest_tail inside (by decide)) notBar)
  close rest inside closes := by
    obtain ⟨inner, noBar, rfl⟩ := inside
    cases inner with
    | nil => rfl
    | cons d inner => exact absurd (closes d rfl ▸ List.mem_cons_self) noBar

/-! ## Matched texts -/

theorem Rule.exists_stringRest {t : List Char} (matched : Rule.string.pattern.Matches t) :
    ∃ body, t = '"' :: (body ++ ['"']) ∧ StringRest (body ++ ['"']) := by
  obtain ⟨ws, _ | ⟨first, _ | ⟨items, _ | ⟨last, _ | _⟩⟩⟩, rfl⟩ := Regex.matches_cat.1 matched
  rw [Regex.matches_text_iff.1 first, Regex.matches_text_iff.1 last]
  exact ⟨_, by simp, _, items, rfl⟩

theorem Rule.exists_barRest {t : List Char} (matched : Rule.barIdentifier.pattern.Matches t) :
    ∃ body, t = '|' :: (body ++ ['|']) ∧ BarRest (body ++ ['|']) := by
  obtain ⟨ws, _ | ⟨first, _ | ⟨inner, _ | ⟨last, _ | _⟩⟩⟩, rfl⟩ := Regex.matches_cat.1 matched
  rw [Regex.matches_text_iff.1 first, Regex.matches_text_iff.1 last]
  exact ⟨_, by simp, _, Regex.not_mem_of_avoids (by decide) inner, rfl⟩

open Delimited in
/-- Of a text that the rule of strings matches, decoding comes to no backslash with an unknown escape or none
behind it.  It fails at an escape in hexadecimal, or it comes to the last quote and gives what the text stands
for, with an escape without digits taken to stand for something.  Of a text that the rule of identifiers
between bars matches, it comes to the last bar or fails at a backslash that begins no escape of a character. -/
theorem delimited_tokens_decoded (t : List Char) :
    (Rule.string.pattern.Matches t → ∃ body, t = '"' :: (body ++ ['"']) ∧
      (∀ before text, string.Reaches (body ++ ['"']) before ('\\' :: text) → ∃ e rest, text = e :: rest ∧
        (e ∈ ['x', 'X'] ∨ e ∈ blanks ∨ ∃ code, (e, code) ∈ escapeLetters)) ∧
      ((∃ before text e, string.Reaches (body ++ ['"']) before ('\\' :: text) ∧ HexStart text ∧
          string.takeEscape text = .error e ∧ string.decode t = .error e) ∨
        ∃ out, string.Reaches (body ++ ['"']) out ['"'] ∧ string.decode t = .ok (String.ofList out) ∧
          Stands 0 body out ∧ (∀ out', Stands 0 body out' → out' = out) ∧
          (Stands 1 body out ↔ ∀ before text rest,
            string.Reaches (body ++ ['"']) before ('\\' :: text) → ¬ HexForm text [] rest))) ∧
    (Rule.barIdentifier.pattern.Matches t → ∃ body, t = '|' :: (body ++ ['|']) ∧
      ((∃ before text e, barIdentifier.Reaches (body ++ ['|']) before ('\\' :: text) ∧
          (¬ ∃ ds rest, HexForm text ds rest ∧ ds ≠ [] ∧ ∃ c : Char, c.toNat = hexValue ds) ∧
          barIdentifier.takeEscape text = .error e ∧ barIdentifier.decode t = .error e) ∨
        ∃ out, barIdentifier.Reaches (body ++ ['|']) out ['|'] ∧
          barIdentifier.decode t = .ok (String.ofList out))) := by
  constructor
  · intro matched
    obtain ⟨body, rfl, inside⟩ := Rule.exists_stringRest matched
    refine ⟨body, rfl, fun before text comes => ?_, ?_⟩
    · obtain ⟨e, rest, letter, -, split⟩ := stringRest_backslash (stringRest_invariant.reaches inside comes)
      exact ⟨e, rest, split, escapable e letter⟩
    obtain ⟨before, text, e, comes, failed, decoded⟩ | ⟨out, comes, decoded⟩ :=
      stringRest_invariant.ends (by decide) inside
    · refine .inl ⟨before, text, e, comes, ?_, failed, by rw [decode, List.tail_cons, decoded]; rfl⟩
      exact hexStart_of_failed (stringRest_invariant.reaches inside comes) failed
    · refine .inr ⟨out, comes, by rw [decode, List.tail_cons, decoded]; rfl, comes.stands_zero, ?_, ?_⟩
      · exact fun out' stands => stands.unique comes.stands_zero
      · exact comes.stands_one_iff
  · intro matched
    obtain ⟨body, rfl, inside⟩ := Rule.exists_barRest matched
    refine ⟨body, rfl, ?_⟩
    obtain ⟨before, text, e, comes, failed, decoded⟩ | ⟨out, comes, decoded⟩ :=
      barRest_invariant.ends (by decide) inside
    · refine .inl ⟨before, text, e, comes, ?_, failed, by rw [decode, List.tail_cons, decoded]; rfl⟩
      rintro ⟨ds, rest, form, -, c, code⟩
      obtain ⟨x, hex, rfl⟩ := form.split
      cases failed.symm.trans ((takeEscape_eq_ok_iff hex _).2 ⟨ds, c, form, code, rfl⟩)
    · exact .inr ⟨out, comes, by rw [decode, List.tail_cons, decoded]; rfl⟩

open Delimited in
/-- Escapes of all kinds, also of the delimiter itself. -/
theorem delimited_tokens_decoded_escapes :
    (∃ out, string.decode "\"a\\\"\\x41;\\ \n b\"".toList = .ok (String.ofList out) ∧
      Stands 0 "a\\\"\\x41;\\ \n b".toList out) ∧
    ∃ out, barIdentifier.decode "|a\\x7c;|".toList = .ok (String.ofList out) ∧
      barIdentifier.Reaches "a\\x7c;|".toList out ['|'] := by
  constructor
  · have longest : Rule.string.pattern.Longest "\"a\\\"\\x41;\\ \n b\"".toList 15 :=
      Regex.longest?_eq_some_iff.1 (by decide +kernel)
    have matched : Rule.string.pattern.Matches "\"a\\\"\\x41;\\ \n b\"".toList := longest.matched
    have whole : "\"a\\\"\\x41;\\ \n b\"".toList = '"' :: ("a\\\"\\x41;\\ \n b".toList ++ ['"']) := rfl
    obtain ⟨body, split, -, ⟨_, _, e, -, -, -, failed⟩ | ⟨out, -, decoded, stands, -⟩⟩ :=
      (delimited_tokens_decoded _).1 matched
    · cases failed
    · obtain rfl := List.append_cancel_right (List.cons.inj (whole.symm.trans split)).2
      exact ⟨out, decoded, stands⟩
  · have longest : Rule.barIdentifier.pattern.Longest "|a\\x7c;|".toList 8 :=
      Regex.longest?_eq_some_iff.1 (by decide +kernel)
    have matched : Rule.barIdentifier.pattern.Matches "|a\\x7c;|".toList := longest.matched
    have whole : "|a\\x7c;|".toList = '|' :: "a\\x7c;|".toList := rfl
    obtain ⟨body, split, ⟨_, _, e, -, -, -, failed⟩ | ⟨out, comes, decoded⟩⟩ :=
      (delimited_tokens_decoded _).2 matched
    · cases failed
    · exact ⟨out, decoded, (List.cons.inj (whole.symm.trans split)).2 ▸ comes⟩

/-- A string is matched and decoded that stands for nothing if an escape has digits. -/
theorem string_without_digits :
    Rule.string.pattern.Matches "\"\\x;\"".toList ∧
    Delimited.string.decode "\"\\x;\"".toList = .ok "\x00" ∧
    ¬ ∃ out, Stands 1 "\\x;".toList out := by
  have matched : Rule.string.pattern.Longest "\"\\x;\"".toList 5 :=
    Regex.longest?_eq_some_iff.1 (by decide +kernel)
  refine ⟨matched.matched, rfl, ?_⟩
  rintro ⟨out, stands⟩
  have split : '\\' :: ['x', ';', '"'] = "\\x;".toList ++ ['"'] := rfl
  obtain ⟨_, _, _, escape, -⟩ := stands.backslash split
  exact (stringEscape_one_iff.1 escape).2 ['"'] ⟨nofun, 'x', by decide, rfl⟩

end StoreScheme
