import Mathlib.Data.Bool.AllAny
import Mathlib.Data.List.Basic
import Mathlib.Data.List.Induction
import Mathlib.Data.Nat.Digits.Defs
import StoreScheme.Proofs.Number.Decimal
import StoreScheme.Proofs.Text.Regex
import StoreScheme.Token.Rule

/-!
# Texts of numbers

What a rule for numbers matches is made of a sign, digits, a point and an exponent, or is the name of an
infinity or NaN.  From these parts its value can be told without the reader.

* `placeValue`, `integerValue`: the number that digits denote
* `SignText`, `ExponentText`, `RealText`: the parts of a real
* `RealText.read?`: the real that the parts denote
* `Regex.matches_cat`: the parts of a concatenation
* `Rule.realText_of_matches`, `Rule.namedReal_of_matches`: texts of the rules for reals
-/

namespace StoreScheme

/-! ## Digits -/

/-- The number that digits denote, each by its place. -/
def placeValue (ds : List Char) : Nat := Nat.ofDigits 10 (ds.reverse.map Decimal.digitValue)

/-- The number that digits denote with or without a sign. -/
def integerValue : List Char → Int
  | '-' :: ds => -placeValue ds
  | '+' :: ds => placeValue ds
  | ds => placeValue ds

structure DigitText (ds : List Char) : Prop where
  nonempty : ds ≠ []
  digits : ∀ c ∈ ds, c.isDigit = true

theorem ofDigits_eq_placeValue (ds : List Char) : Decimal.ofDigits ds = placeValue ds := by
  induction ds using List.reverseRecOn with
  | nil => rfl
  | append_singleton ds c ih =>
      have front : Decimal.ofDigits (ds ++ [c]) = 10 * Decimal.ofDigits ds + Decimal.digitValue c := by
        simp [Decimal.ofDigits]
      have place : placeValue (ds ++ [c]) = Decimal.digitValue c + 10 * placeValue ds := by
        simp [placeValue, Nat.ofDigits_cons]
      rw [front, place, ih, Nat.add_comm]

theorem signed_takeSign (t : List Char) :
    Binary64.signed (Decimal.takeSign t).1 (Decimal.ofDigits (Decimal.takeSign t).2) = integerValue t := by
  unfold Decimal.takeSign integerValue
  split <;> simp [Binary64.signed, ofDigits_eq_placeValue]

/-! ## Parts of reals -/

/-- A sign, which may be left out. -/
inductive SignText : Bool → List Char → Prop
  | absent : SignText false []
  | plus : SignText false ['+']
  | minus : SignText true ['-']

/-- An exponent, which may be left out. -/
inductive ExponentText : Int → List Char → Prop
  | absent : ExponentText 0 []
  | present {e : Char} {negative : Bool} {sign ds : List Char} : e ∈ ['e', 'E'] → SignText negative sign →
    DigitText ds → ExponentText (Binary64.signed negative (placeValue ds)) (e :: (sign ++ ds))

/-- A real: digits with a point among them, or without a point, and an exponent. -/
inductive RealText : Bool → Decimal → List Char → Prop
  | point {negative : Bool} {sign whole fraction rest : List Char} {e : Int} : SignText negative sign →
    DigitText (whole ++ fraction) → ExponentText e rest →
    RealText negative ⟨placeValue (whole ++ fraction), e - fraction.length⟩
      (sign ++ (whole ++ '.' :: (fraction ++ rest)))
  | whole {negative : Bool} {sign whole rest : List Char} {e : Int} : SignText negative sign →
    DigitText whole → ExponentText e rest →
    RealText negative ⟨placeValue whole, e⟩ (sign ++ (whole ++ rest))

section
variable {negative : Bool} {sign ds rest t : List Char} {e : Int} {d : Decimal}

theorem SignText.takeSign (text : SignText negative sign) (unsigned : ∀ c ∈ rest.head?, c ∉ ['+', '-']) :
    Decimal.takeSign (sign ++ rest) = (negative, rest) := by
  cases text with
  | plus | minus => rfl
  | absent =>
      cases rest with
      | nil => rfl
      | cons c rest =>
          have other := unsigned c rfl
          simp only [List.mem_cons, List.not_mem_nil, or_false, not_or] at other
          simp [Decimal.takeSign, other]

theorem unsigned_of_isDigit {c : Char} (digit : c.isDigit = true) : c ∉ ['+', '-'] := by
  rw [List.mem_pair]
  rintro (rfl | rfl)
  · exact absurd digit (by decide)
  · exact absurd digit (by decide)

theorem unsigned_digits (digits : ∀ c ∈ ds, c.isDigit = true) (unsigned : ∀ c ∈ rest.head?, c ∉ ['+', '-']) :
    ∀ c ∈ (ds ++ rest).head?, c ∉ ['+', '-'] := by
  cases ds with
  | nil => exact unsigned
  | cons c ds =>
      rintro _ ⟨⟩
      exact unsigned_of_isDigit (digits c List.mem_cons_self)

theorem ExponentText.head (text : ExponentText e rest) :
    ∀ c ∈ rest.head?, c.isDigit = false ∧ c ≠ '.' ∧ c ∉ ['+', '-'] := by
  cases text with
  | absent => nofun
  | present mark _ _ =>
      rintro _ ⟨⟩
      revert mark
      rw [List.mem_pair]
      rintro (rfl | rfl)
      · decide
      · decide

theorem ExponentText.read? (text : ExponentText e rest) : Decimal.readExponent? rest = some e := by
  cases text with
  | absent => rfl
  | @present c negative sign ds mark signed digits =>
      have parts : Decimal.takeSign (sign ++ ds) = (negative, ds) := by
        have unsigned : ∀ c ∈ (ds ++ []).head?, c ∉ ['+', '-'] := unsigned_digits digits.digits nofun
        rw [List.append_nil] at unsigned
        exact signed.takeSign unsigned
      have marked : c = 'e' ∨ c = 'E' := List.mem_pair.1 mark
      have all : ds.all Char.isDigit = true := List.all_eq_true.2 digits.digits
      simp [Decimal.readExponent?, parts, marked, all, digits.nonempty, ofDigits_eq_placeValue]

theorem readUnsigned?_whole {whole : List Char} (digits : DigitText whole) (exponent : ExponentText e rest) :
    Decimal.readUnsigned? (whole ++ rest) = some ⟨placeValue whole, e⟩ := by
  obtain ⟨front, back⟩ := Decimal.span_isDigit digits.digits fun c first => (exponent.head c first).1
  have several : whole.isEmpty = false := by simpa using digits.nonempty
  have read := exponent.read?
  cases exponent with
  | absent =>
      rw [List.append_nil] at front back ⊢
      simp [Decimal.readUnsigned?, front, back, several, read, ofDigits_eq_placeValue]
  | present mark _ _ =>
      rcases List.mem_pair.1 mark with rfl | rfl
      · simp [Decimal.readUnsigned?, front, back, several, read, ofDigits_eq_placeValue]
      · simp [Decimal.readUnsigned?, front, back, several, read, ofDigits_eq_placeValue]

theorem RealText.read? (text : RealText negative d t) :
    Decimal.read? t = some (d.toBinary64 negative) := by
  cases text with
  | @point _ whole fraction rest _ sign digits exponent =>
      obtain ⟨whole', fraction'⟩ := List.forall_mem_append.1 digits.digits
      have unsigned : ∀ c ∈ (whole ++ '.' :: (fraction ++ rest)).head?, c ∉ ['+', '-'] :=
        unsigned_digits whole' (by simp)
      have read := Decimal.readUnsigned?_point whole' fraction' digits.nonempty
        (fun c first => (exponent.head c first).1) exponent.read?
      simp only [Decimal.read?, sign.takeSign unsigned, read, ofDigits_eq_placeValue, Option.map_some]
  | whole sign digits exponent =>
      have unsigned := unsigned_digits digits.digits fun c first => (exponent.head c first).2.2
      simp only [Decimal.read?, sign.takeSign unsigned, readUnsigned?_whole digits exponent, Option.map_some]

end

/-! ## Texts of the rules -/

theorem Regex.contains_of_matches_star {k : CharClass} {w : List Char}
    (matched : Matches (.star (.chars k)) w) : ∀ c ∈ w, k.contains c = true := by
  induction w with
  | nil => exact List.forall_mem_nil _
  | cons c w ih =>
      obtain ⟨u, v, first, rest, rfl⟩ := matches_star_cons.1 matched
      obtain ⟨contains, rfl⟩ := matches_chars_cons.1 first
      exact List.forall_mem_cons.2 ⟨contains, ih rest⟩

/-- A concatenation is made of one text for each expression. -/
theorem Regex.matches_cat {rs : List Regex} {w : List Char} :
    Matches (.cat rs) w ↔ ∃ ws, List.Forall₂ Matches rs ws ∧ w = ws.flatten := by
  induction rs generalizing w with
  | nil =>
      constructor
      · intro matched
        exact ⟨[], .nil, matches_epsilon.1 matched⟩
      · rintro ⟨ws, ⟨⟩, rfl⟩
        exact .epsilon
  | cons r rs ih =>
      constructor
      · intro matched
        obtain ⟨u, v, first, rest, rfl⟩ := matches_seq.1 matched
        obtain ⟨ws, others, rfl⟩ := ih.1 rest
        exact ⟨u :: ws, .cons first others, rfl⟩
      · rintro ⟨ws, _ | ⟨first, others⟩, rfl⟩
        exact .seq first (ih.2 ⟨_, others, rfl⟩)

namespace Rule

variable {r s : Rule} {t : List Char}

theorem isDigit_of_contains {c : Char} (contains : digit.contains c = true) : c.isDigit = true := by
  have range : '0' ≤ c ∧ c ≤ '9' := by simpa [digit, CharClass.range, CharClass.contains] using contains
  rw [Char.isDigit_iff_toNat]
  exact range

theorem digitText_of_matches (matched : digits.Matches t) : DigitText t := by
  obtain ⟨u, v, first, rest, rfl⟩ := Regex.matches_seq.1 matched
  obtain ⟨c, contains, rfl⟩ := Regex.matches_chars.1 first
  refine ⟨List.cons_ne_nil c v, List.forall_mem_cons.2 ⟨isDigit_of_contains contains, ?_⟩⟩
  intro d member
  exact isDigit_of_contains (Regex.contains_of_matches_star rest d member)

theorem sign_of_matches (matched : signs.Matches t) : t = ['+'] ∨ t = ['-'] := by
  obtain ⟨c, contains, rfl⟩ := Regex.matches_chars.1 matched
  simpa using contains

theorem signText_of_matches (matched : (Regex.optional signs).Matches t) : ∃ negative, SignText negative t := by
  rcases Regex.matches_alt.1 matched with sign | absent
  · rcases sign_of_matches sign with rfl | rfl
    · exact ⟨_, .plus⟩
    · exact ⟨_, .minus⟩
  · rw [Regex.matches_epsilon.1 absent]
    exact ⟨_, .absent⟩

theorem exponentText_of_matches (matched : exponent.Matches t) : ∃ e, ExponentText e t := by
  obtain ⟨ws, _ | ⟨mark, _ | ⟨signed, _ | ⟨digits, _ | _⟩⟩⟩, rfl⟩ := Regex.matches_cat.1 matched
  obtain ⟨c, contains, rfl⟩ := Regex.matches_chars.1 mark
  obtain ⟨negative, signed⟩ := signText_of_matches signed
  have text := ExponentText.present (e := c) (by simpa using contains) signed (digitText_of_matches digits)
  exact ⟨_, by simpa using text⟩

theorem exponentText_of_matches_optional (matched : (Regex.optional exponent).Matches t) :
    ∃ e, ExponentText e t := by
  rcases Regex.matches_alt.1 matched with present | absent
  · exact exponentText_of_matches present
  · rw [Regex.matches_epsilon.1 absent]
    exact ⟨_, .absent⟩

/-- The rules for reals that are written in decimal. -/
def decimals : List Rule := [pointReal, fractionReal, exponentReal]

theorem realText_of_matches (decimal : r ∈ decimals) (matched : r.pattern.Matches t) :
    ∃ negative d, RealText negative d t := by
  simp only [decimals, List.mem_cons, List.not_mem_nil, or_false] at decimal
  rcases decimal with rfl | rfl | rfl
  · obtain ⟨ws, _ | ⟨signed, _ | ⟨whole, _ | ⟨point, _ | ⟨fraction, _ | ⟨ending, _ | _⟩⟩⟩⟩⟩, rfl⟩ :=
      Regex.matches_cat.1 matched
    obtain ⟨negative, signed⟩ := signText_of_matches signed
    obtain ⟨e, ending⟩ := exponentText_of_matches_optional ending
    have whole := digitText_of_matches whole
    have fraction := Regex.contains_of_matches_star fraction
    have digits := List.forall_mem_append.2 ⟨whole.digits, fun c member => isDigit_of_contains (fraction c member)⟩
    have text := RealText.point signed ⟨List.append_ne_nil_of_left_ne_nil whole.nonempty _, digits⟩ ending
    rw [Regex.matches_text_iff.1 point]
    exact ⟨negative, _, by simpa using text⟩
  · obtain ⟨ws, _ | ⟨signed, _ | ⟨point, _ | ⟨fraction, _ | ⟨ending, _ | _⟩⟩⟩⟩, rfl⟩ :=
      Regex.matches_cat.1 matched
    obtain ⟨negative, signed⟩ := signText_of_matches signed
    obtain ⟨e, ending⟩ := exponentText_of_matches_optional ending
    have text := @RealText.point _ _ [] _ _ _ signed (digitText_of_matches fraction) ending
    rw [Regex.matches_text_iff.1 point]
    exact ⟨negative, _, by simpa using text⟩
  · obtain ⟨ws, _ | ⟨signed, _ | ⟨whole, _ | ⟨ending, _ | _⟩⟩⟩, rfl⟩ := Regex.matches_cat.1 matched
    obtain ⟨negative, signed⟩ := signText_of_matches signed
    obtain ⟨e, ending⟩ := exponentText_of_matches ending
    have text := RealText.whole signed (digitText_of_matches whole) ending
    exact ⟨negative, _, by simpa using text⟩

/-! ## Infinities and NaN -/

/-- The reals that have no digits, by their names in small letters. -/
def namedReals : List (String × Binary64) :=
  [("+inf.0", .infinity false), ("-inf.0", .infinity true), ("+nan.0", .nan), ("-nan.0", .nan)]

theorem map_toLower_of_caseless {cs : List Char}
    (cased : ∀ c ∈ cs, ∀ d, (caseless c).contains d = true → d.toLower = c)
    (matched : Regex.Matches (.cat (cs.map fun c => .chars (caseless c))) t) : t.map Char.toLower = cs := by
  induction cs generalizing t with
  | nil => rw [Regex.matches_epsilon.1 matched]; rfl
  | cons c cs ih =>
      obtain ⟨u, v, first, rest, rfl⟩ := Regex.matches_seq.1 matched
      obtain ⟨d, contains, rfl⟩ := Regex.matches_chars.1 first
      obtain ⟨here, others⟩ := List.forall_mem_cons.1 cased
      rw [List.singleton_append, List.map_cons, here d contains, ih others rest]

theorem toLower_of_caseless : ∀ c ∈ "infa".toList, ∀ d, (caseless c).contains d = true → d.toLower = c := by
  intro c member d contains
  have either : ∀ c ∈ "infa".toList, caseless c = .ofString (String.ofList [c.toLower, c.toUpper]) :=
    List.all_iff_forall_prop.1 (by decide)
  have small : ∀ c ∈ "infa".toList, c.toLower.toLower = c ∧ c.toUpper.toLower = c :=
    List.all_iff_forall_prop.1 (by decide)
  rw [either c member, CharClass.contains_ofString, String.toList_ofList, List.mem_pair] at contains
  rcases contains with rfl | rfl
  · exact (small c member).1
  · exact (small c member).2

theorem namedReal_of_matches (matched : specialReal.pattern.Matches t) :
    ∃ x, (String.ofList (t.map Char.toLower), x) ∈ namedReals := by
  obtain ⟨ws, _ | ⟨signed, _ | ⟨name, _ | ⟨zero, _ | _⟩⟩⟩, rfl⟩ := Regex.matches_cat.1 matched
  have small : ∀ cs : List Char, (∀ c ∈ cs, c ∈ "infa".toList) → ∀ {u},
      Regex.Matches (.cat (cs.map fun c => .chars (caseless c))) u → u.map Char.toLower = cs :=
    fun _ letters => map_toLower_of_caseless fun c member => toLower_of_caseless c (letters c member)
  rw [Regex.matches_text_iff.1 zero]
  rcases Regex.matches_alt.1 name with infinite | undefined
  · have name := small "inf".toList (List.all_iff_forall_prop.1 (by decide)) infinite
    rcases sign_of_matches signed with rfl | rfl
    · exact ⟨.infinity false, by simp [name, namedReals]⟩
    · exact ⟨.infinity true, by simp [name, namedReals]⟩
  · have name := small "nan".toList (List.all_iff_forall_prop.1 (by decide)) undefined
    rcases sign_of_matches signed with rfl | rfl
    · exact ⟨.nan, by simp [name, namedReals]⟩
    · exact ⟨.nan, by simp [name, namedReals]⟩

theorem readSpecialReal_of_mem {x : Binary64} (named : (String.ofList (t.map Char.toLower), x) ∈ namedReals) :
    readSpecialReal t = .ok (.number (.real x)) := by
  unfold readSpecialReal
  generalize String.ofList (t.map Char.toLower) = text at named
  simp only [namedReals, List.mem_cons, List.not_mem_nil, or_false, Prod.mk.injEq] at named
  rcases named with ⟨rfl, rfl⟩ | ⟨rfl, rfl⟩ | ⟨rfl, rfl⟩ | ⟨rfl, rfl⟩ <;> rfl

end Rule

end StoreScheme
