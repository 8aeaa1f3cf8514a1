import Mathlib.Data.Nat.Digits.Defs
import StoreScheme.Proofs.Token.Written

/-!
# Texts of escapes

An escape in hexadecimal is `x`, digits and a semicolon.  What it stands for can be told from the places
of its digits, without the decoder.

* `hexValue`, `Unencodable`: the codes that digits denote, and those of no character
* `HexStart`, `HexForm`, `HexRead`: the form of an escape, and what is read for it
* `Delimited.hexEscape_append`: digits read one by one give the number that they denote
* `Delimited.takeEscape_hexRead`: what is read for any escape in hexadecimal
* `Delimited.Reaches`, `Delimited.Reaches.decodeFrom`: the places that decoding comes to
* `Delimited.Ends`, `Delimited.ends_decodeFrom`: how decoding ends
-/

namespace StoreScheme

/-! ## Digits and codes -/

/-- The hexadecimal digits by their values; each letter may be a capital one as well. -/
def hexDigits : List Char := "0123456789abcdef".toList

/-- The number that hexadecimal digits denote, each by its place. -/
def hexValue (ds : List Char) : Nat := Nat.ofDigits 16 (ds.reverse.map fun c => hexDigits.idxOf c.toLower)

/-- The codes of no character: surrogates, and all above the last code. -/
def Unencodable (code : Nat) : Prop := 0xd800 ≤ code ∧ code ≤ 0xdfff ∨ 0x10ffff < code

theorem hexDigit?_eq (c : Char) :
    hexDigit? c = if c.toLower ∈ hexDigits then some (hexDigits.idxOf c.toLower) else none := by
  by_cases ascii : c.toNat < 128
  · have every : ∀ i : Fin 128, hexDigit? (Char.ofNat i) = if (Char.ofNat i).toLower ∈ hexDigits then
        some (hexDigits.idxOf (Char.ofNat i).toLower) else none := by
      decide +kernel
    simpa using every ⟨c.toNat, ascii⟩
  · have same : c.toLower = c := by
      have notCapital : ¬ (c.val ≥ 'A'.val ∧ c.val ≤ 'Z'.val) := by
        simp only [ge_iff_le, UInt32.le_iff_toNat_le, Char.toNat_val]
        exact fun capital => ascii (Nat.lt_of_le_of_lt capital.2 (by decide))
      exact dif_neg notCapital
    have small : ∀ d ∈ hexDigits, d.toNat < 128 := List.all_iff_forall_prop.1 (by decide)
    have noDigit : ∀ d : Char, d.toNat < 128 → ¬ c ≤ d := by
      intro d small below
      exact ascii (Nat.lt_of_le_of_lt (UInt32.le_iff_toNat_le.1 (Char.le_def.1 below)) small)
    rw [same, if_neg fun member => ascii (small c member)]
    simp [hexDigit?, noDigit '9' (by decide), noDigit 'f' (by decide), noDigit 'F' (by decide)]

theorem hexValue_cons (c : Char) (ds : List Char) :
    hexValue (c :: ds) = 16 ^ ds.length * hexDigits.idxOf c.toLower + hexValue ds := by
  simp [hexValue, Nat.ofDigits_append, Nat.add_comm]

theorem unencodable_iff {code : Nat} : Unencodable code ↔ ¬ code.isValidChar := by
  unfold Unencodable Nat.isValidChar
  omega

theorem exists_char_or_unencodable (code : Nat) : (∃ c : Char, c.toNat = code) ∨ Unencodable code := by
  by_cases valid : code.isValidChar
  · exact .inl ⟨Char.ofNatAux code valid, rfl⟩
  · exact .inr (unencodable_iff.2 valid)

/-! ## Forms of escapes -/

/-- Texts that start as an escape in hexadecimal. -/
inductive HexStart : List Char → Prop
  | letter {x : Char} {t : List Char} : x ∈ ['x', 'X'] → HexStart (x :: t)

/-- The form of an escape in hexadecimal with its digits, in front of the rest of a text. -/
structure HexForm (text ds rest : List Char) : Prop where
  digits : ∀ c ∈ ds, c.toLower ∈ hexDigits
  split : ∃ x ∈ ['x', 'X'], text = x :: (ds ++ ';' :: rest)

/-- What is read for such a text: the character whose code its digits denote, which is accepted in front of
the rest, or an error if there is none or something else than a semicolon follows the digits. -/
structure HexRead {α : Type} (k : Delimited) (text : List Char)
    (accept : Char → List Char → Except LexError α) (result : Except LexError α) : Prop where
  character : ∀ ds rest c, HexForm text ds rest → c.toNat = hexValue ds → result = accept c rest
  unencodable : ∀ ds rest, HexForm text ds rest → Unencodable (hexValue ds) →
    result = .error (.invalidCodepoint (min (hexValue ds) Delimited.maxCode))
  broken : ∀ ds rest, text.tail = ds ++ rest → (∀ c ∈ ds, c.toLower ∈ hexDigits) →
    (∀ c ∈ rest.head?, c ≠ ';' ∧ c.toLower ∉ hexDigits) →
    result = .error (if hexValue ds ≤ Delimited.maxCode then k.malformed
      else .invalidCodepoint Delimited.maxCode)

section
variable {text ds rest rest' : List Char} {x : Char}

theorem not_hexDigit_semicolon : ';'.toLower ∉ hexDigits := by decide

theorem HexForm.not_bare (form : HexForm text ds rest) (nonempty : ds ≠ []) : ¬ HexForm text [] rest' := by
  intro bare
  obtain ⟨x, _, text⟩ := form.split
  obtain ⟨x', _, text'⟩ := bare.split
  obtain ⟨d, ds, rfl⟩ := List.exists_cons_of_ne_nil nonempty
  obtain ⟨-, same⟩ := List.cons.inj (text.symm.trans text')
  obtain ⟨rfl, -⟩ := List.cons.inj same
  exact not_hexDigit_semicolon (form.digits _ List.mem_cons_self)

/-- A text that starts with `x` has the form of an escape, or its digits end without a semicolon. -/
theorem hexForm_or_broken (hex : x ∈ ['x', 'X']) (t : List Char) :
    (∃ ds rest, HexForm (x :: t) ds rest) ∨
    ∃ ds rest, t = ds ++ rest ∧ (∀ c ∈ ds, c.toLower ∈ hexDigits) ∧
      ∀ c ∈ rest.head?, c ≠ ';' ∧ c.toLower ∉ hexDigits := by
  induction t with
  | nil => exact .inr ⟨[], [], rfl, by simp, by simp⟩
  | cons c t ih =>
      by_cases semicolon : c = ';'
      · subst semicolon
        exact .inl ⟨[], t, by simp, x, hex, rfl⟩
      by_cases digit : c.toLower ∈ hexDigits
      · rcases ih with ⟨ds, rest, digits, x', hex', split⟩ | ⟨ds, rest, rfl, digits, ending⟩
        · obtain ⟨rfl, rfl⟩ := List.cons.inj split
          exact .inl ⟨c :: ds, rest, List.forall_mem_cons.2 ⟨digit, digits⟩, x, hex, rfl⟩
        · exact .inr ⟨c :: ds, rest, rfl, List.forall_mem_cons.2 ⟨digit, digits⟩, ending⟩
      · exact .inr ⟨[], c :: t, rfl, by simp, by simp [semicolon, digit]⟩

variable {α β : Type} {k : Delimited} {accept : Char → List Char → Except LexError α}
  {accept' : Char → List Char → Except LexError β} {result : Except LexError α}
  {result' : Except LexError β}

theorem HexRead.lift (read : HexRead k text accept result)
    (accepted : ∀ c rest, result = accept c rest → result' = accept' c rest)
    (failed : ∀ e, result = .error e → result' = .error e) : HexRead k text accept' result' where
  character ds rest c form code := accepted c rest (read.character ds rest c form code)
  unencodable ds rest form none := failed _ (read.unencodable ds rest form none)
  broken ds rest split digits ending := failed _ (read.broken ds rest split digits ending)

end

/-! ## Reading an escape -/

namespace Delimited

variable {k : Delimited} {text ds rest : List Char} {code used : Nat} {x : Char}

theorem charOfCode_of_unencodable (none : Unencodable code) :
    charOfCode code = .error (.invalidCodepoint code) := by
  rw [charOfCode, if_neg (unencodable_iff.1 none)]

/-- Digits are added to the code that was read before them, unless the sum is too large. -/
theorem hexEscape_append (digits : ∀ c ∈ ds, c.toLower ∈ hexDigits) (small : code ≤ maxCode) :
    k.hexEscape code used (ds ++ rest) =
      if 16 ^ ds.length * code + hexValue ds ≤ maxCode then
        k.hexEscape (16 ^ ds.length * code + hexValue ds) (used + ds.length) rest
      else .error (.invalidCodepoint maxCode) := by
  induction ds generalizing code used with
  | nil =>
      have same : 16 ^ ([] : List Char).length * code + hexValue [] = code := by simp [hexValue]
      rw [same, if_pos small]
      rfl
  | cons c ds ih =>
      obtain ⟨digit, digits⟩ := List.forall_mem_cons.1 digits
      have notEnd : c ≠ ';' := by
        rintro rfl
        exact not_hexDigit_semicolon digit
      have value : hexDigit? c = some (hexDigits.idxOf c.toLower) := by rw [hexDigit?_eq, if_pos digit]
      have total : 16 ^ (c :: ds).length * code + hexValue (c :: ds) =
          16 ^ ds.length * (16 * code + hexDigits.idxOf c.toLower) + hexValue ds := by
        rw [hexValue_cons, List.length_cons, Nat.pow_succ, Nat.mul_assoc, ← Nat.add_assoc, ← Nat.mul_add]
      rw [total, List.cons_append, hexEscape, if_neg notEnd, value]
      dsimp only
      split
      · rename_i small
        rw [ih digits small, List.length_cons, Nat.add_right_comm, Nat.add_assoc]
      · rename_i large
        -- The digits that follow only make the code larger.
        have beyond : 16 * code + hexDigits.idxOf c.toLower ≤
            16 ^ ds.length * (16 * code + hexDigits.idxOf c.toLower) :=
          Nat.le_mul_of_pos_left _ (Nat.pow_pos (by decide))
        rw [if_neg (by omega)]

theorem hexEscape_digits (digits : ∀ c ∈ ds, c.toLower ∈ hexDigits) (rest : List Char) :
    k.hexEscape 0 1 (ds ++ rest) =
      if hexValue ds ≤ maxCode then k.hexEscape (hexValue ds) (1 + ds.length) rest
      else .error (.invalidCodepoint maxCode) := by
  have read : k.hexEscape 0 1 (ds ++ rest) = _ := hexEscape_append digits (Nat.zero_le maxCode)
  simpa using read

theorem hexEscape_broken (ending : ∀ c ∈ rest.head?, c ≠ ';' ∧ c.toLower ∉ hexDigits) :
    k.hexEscape code used rest = .error k.malformed := by
  cases rest with
  | nil => rfl
  | cons c rest =>
      obtain ⟨notEnd, noDigit⟩ := ending c rfl
      rw [hexEscape, if_neg notEnd, hexDigit?_eq, if_neg noDigit]

/-- Reads one escape after its backslash: the character it stands for, if any, and the text behind it. -/
def takeEscape (k : Delimited) (text : List Char) : Except LexError (Option Char × List Char) :=
  (k.escape text).map fun (character, used) => (character, text.drop used)

theorem takeEscape_hex (hex : x ∈ ['x', 'X']) (t : List Char) :
    k.takeEscape (x :: t) = (k.hexEscape 0 1 t).map fun (c, used) => (some c, (x :: t).drop used) := by
  have isHex : (x = 'x' || x = 'X') = true := by simpa using hex
  rw [takeEscape, escape, if_pos isHex]
  cases k.hexEscape 0 1 t <;> rfl

theorem takeEscape_hexRead (hex : x ∈ ['x', 'X']) (t : List Char) :
    HexRead k (x :: t) (fun c rest => .ok (some c, rest)) (k.takeEscape (x :: t)) := by
  have form {ds rest : List Char} (form : HexForm (x :: t) ds rest) :
      k.hexEscape 0 1 t = if hexValue ds ≤ maxCode then
        (charOfCode (hexValue ds)).map fun c => (c, 1 + ds.length + 1)
      else .error (.invalidCodepoint maxCode) := by
    obtain ⟨x', -, split⟩ := form.split
    rw [(List.cons.inj split).2, hexEscape_digits form.digits]
    rfl
  constructor
  · intro ds rest c isForm code
    have behind : (x :: t).drop (1 + ds.length + 1) = rest := by
      obtain ⟨x', -, split⟩ := isForm.split
      rw [split, Nat.add_comm 1, Nat.add_assoc, List.drop_succ_cons]
      simp
    have small := toNat_le_maxCode c
    rw [takeEscape_hex hex, form isForm, ← code, if_pos small, charOfCode_toNat]
    simp only [Except.map, behind]
  · intro ds rest isForm none
    rw [takeEscape_hex hex, form isForm, charOfCode_of_unencodable none]
    split
    · rename_i small
      rw [Nat.min_eq_left small]
      rfl
    · rename_i large
      rw [Nat.min_eq_right (by omega)]
      rfl
  · intro ds rest split digits ending
    rw [List.tail_cons] at split
    rw [takeEscape_hex hex, split, hexEscape_digits digits, hexEscape_broken ending]
    split <;> rfl

/-! ## Decoding -/

theorem decodeFrom_drop (n : Nat) (cs : List Char) : k.decodeFrom n cs = k.decodeFrom 0 (cs.drop n) := by
  induction cs generalizing n with
  | nil => cases n <;> rfl
  | cons c cs ih =>
      cases n with
      | zero => rfl
      | succ n => exact ih n

theorem decodeFrom_backslash (backslashNotClose : '\\' ≠ k.close) (text : List Char) :
    k.decodeFrom 0 ('\\' :: text) =
      match k.takeEscape text with
      | .error e => .error e
      | .ok (character, rest) => (k.decodeFrom 0 rest).map (character.toList ++ ·) := by
  rw [decodeFrom, if_neg backslashNotClose, if_pos rfl, takeEscape]
  cases k.escape text with
  | error e => rfl
  | ok result =>
      obtain ⟨character, used⟩ := result
      exact congrArg (Except.map (character.toList ++ ·)) (decodeFrom_drop used text)

/-- The places that decoding comes to: what is decoded there, and the text from there on. -/
inductive Reaches (k : Delimited) (body : List Char) : List Char → List Char → Prop
  | start : Reaches k body [] body
  | plain {out : List Char} {c : Char} {rest : List Char} : Reaches k body out (c :: rest) →
    c ≠ k.close → c ≠ '\\' → Reaches k body (out ++ [c]) rest
  | escape {out text : List Char} {character : Option Char} {rest : List Char} :
    Reaches k body out ('\\' :: text) → k.takeEscape text = .ok (character, rest) →
    Reaches k body (out ++ character.toList) rest

theorem map_map {α β γ : Type} (f : α → β) (g : β → γ) (x : Except LexError α) :
    (x.map f).map g = x.map (g ∘ f) := by
  cases x <;> rfl

theorem Reaches.decodeFrom {body out rest : List Char} (backslashNotClose : '\\' ≠ k.close)
    (reaches : k.Reaches body out rest) : k.decodeFrom 0 body = (k.decodeFrom 0 rest).map (out ++ ·) := by
  induction reaches with
  | start => cases k.decodeFrom 0 body <;> rfl
  | @plain out c rest _ inside ordinary ih =>
      have step : k.decodeFrom 0 (c :: rest) = (k.decodeFrom 0 rest).map (c :: ·) := by
        rw [Delimited.decodeFrom, if_neg inside, if_neg ordinary]
      rw [ih, step, map_map]
      congr 1
      funext more
      simp
  | @escape out text character rest _ taken ih =>
      rw [ih, decodeFrom_backslash backslashNotClose, taken, map_map]
      congr 1
      funext more
      simp

/-- How decoding ends: at the closing delimiter, or with the error of an escape that it comes to. -/
inductive Ends (k : Delimited) (body : List Char) : Except LexError (List Char) → Prop
  | close {out rest : List Char} : k.Reaches body out rest → (∀ c ∈ rest.head?, c = k.close) →
    Ends k body (.ok out)
  | error {out text : List Char} {e : LexError} : k.Reaches body out ('\\' :: text) →
    k.takeEscape text = .error e → Ends k body (.error e)

theorem length_le_of_takeEscape {text rest : List Char} {character : Option Char}
    (taken : k.takeEscape text = .ok (character, rest)) : rest.length ≤ text.length := by
  unfold takeEscape at taken
  cases escaped : k.escape text with
  | error e =>
      rw [escaped] at taken
      cases taken
  | ok result =>
      rw [escaped] at taken
      cases taken
      rw [List.length_drop]
      omega

theorem Reaches.ends {body out rest : List Char} (reaches : k.Reaches body out rest) :
    ∃ result, k.Ends body result := by
  -- Every step leaves a shorter text.
  induction size : rest.length using Nat.strongRecOn generalizing out rest with
  | ind size ih =>
      subst size
      cases rest with
      | nil => exact ⟨_, .close reaches (by simp)⟩
      | cons c rest =>
          by_cases closes : c = k.close
          · exact ⟨_, .close reaches (by simp [closes])⟩
          by_cases backslash : c = '\\'
          · subst backslash
            cases taken : k.takeEscape rest with
            | error e => exact ⟨_, .error reaches taken⟩
            | ok result =>
                obtain ⟨character, after⟩ := result
                have shorter := length_le_of_takeEscape taken
                exact ih after.length (by simp; omega) (.escape reaches taken) rfl
          · exact ih rest.length (by simp) (.plain reaches closes backslash) rfl

theorem Ends.decodeFrom_eq {body : List Char} {result : Except LexError (List Char)}
    (backslashNotClose : '\\' ≠ k.close) (ends : k.Ends body result) : k.decodeFrom 0 body = result := by
  cases ends with
  | @close out rest reaches closed =>
      have stop : k.decodeFrom 0 rest = .ok [] := by
        cases rest with
        | nil => rfl
        | cons c rest => rw [Delimited.decodeFrom, if_pos (closed c rfl)]
      rw [reaches.decodeFrom backslashNotClose, stop]
      simp [Except.map]
  | error reaches failed =>
      rw [reaches.decodeFrom backslashNotClose, decodeFrom_backslash backslashNotClose, failed]
      rfl

theorem ends_decodeFrom (backslashNotClose : '\\' ≠ k.close) (body : List Char) :
    k.Ends body (k.decodeFrom 0 body) := by
  have atStart : k.Reaches body [] body := .start
  obtain ⟨result, ends⟩ := atStart.ends
  rwa [ends.decodeFrom_eq backslashNotClose]

end Delimited

end StoreScheme
