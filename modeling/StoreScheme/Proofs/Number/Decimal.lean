import Mathlib.Algebra.Group.Nat.Defs
import StoreScheme.Number.Basic

/-!
# Written reals

A finite real reads back from its written form.  The fewest digits are chosen among decimals that
read back, so what is left to show is that the magnitude written out in full does, and that putting
the point in its place changes nothing.

* `Binary64.round_units`: a magnitude is the nearest one to itself
* `Decimal.shortest_toBinary64`: the fewest digits read back
* `Decimal.Written`, `Decimal.written_positional`: the digits on both sides of the point
* `Decimal.Written.read?`: the real that these are read as
-/

namespace StoreScheme

/-! ## Rounding -/

namespace Binary64

variable {k den : Nat}

theorem roundQuotient_mul (positive : 0 < k) (num den : Nat) :
    roundQuotient (num * k) (den * k) = roundQuotient num den := by
  have below : 2 * (num % den * k) < den * k ↔ 2 * (num % den) < den := by
    rw [← Nat.mul_assoc]
    exact Nat.mul_lt_mul_right positive
  have above : den * k < 2 * (num % den * k) ↔ den < 2 * (num % den) := by
    rw [← Nat.mul_assoc]
    exact Nat.mul_lt_mul_right positive
  simp only [roundQuotient, Nat.mul_div_mul_right _ _ positive, Nat.mul_mod_mul_right, below, above]

theorem round_mul (positive : 0 < k) (negative : Bool) (num den : Nat) :
    round negative (num * k) (den * k) = round negative num den := by
  have shifted : ∀ shift, (den * k) <<< shift = den <<< shift * k := by
    intro shift
    rw [Nat.shiftLeft_eq, Nat.shiftLeft_eq, Nat.mul_right_comm]
  simp only [round, Nat.mul_div_mul_right _ _ positive, shifted, roundQuotient_mul positive]

theorem roundQuotient_exact (positive : 0 < den) (m : Nat) : roundQuotient (m * den) den = m := by
  simp [roundQuotient, positive, Nat.mul_div_cancel m positive]

theorem round_exact {shift m : Nat} (negative : Bool) (scale : Nat.log2 (m <<< shift) - 52 = shift)
    (finite : shift * binade + m < finiteCount) :
    round negative (m <<< shift) 1 = .finite negative ⟨shift * binade + m, finite⟩ := by
  have positive : 0 < 1 <<< shift := by
    rw [Nat.one_shiftLeft]
    exact Nat.two_pow_pos shift
  have quotient : roundQuotient (m <<< shift) (1 <<< shift) = m := by
    rw [Nat.shiftLeft_eq m, ← Nat.one_shiftLeft]
    exact roundQuotient_exact positive m
  simp only [round, Nat.div_one, scale, quotient, finite, dite_true]

theorem log2_shiftLeft {m : Nat} (shift : Nat) (least : binade ≤ m) (less : m < 2 * binade) :
    Nat.log2 (m <<< shift) = 52 + shift := by
  have power : binade = 2 ^ 52 := rfl
  rw [power] at least less
  have nonzero : m <<< shift ≠ 0 := by
    simp only [ne_eq, Nat.shiftLeft_eq_zero_iff]
    omega
  rw [Nat.log2_eq_iff nonzero, Nat.shiftLeft_eq]
  constructor
  · rw [Nat.pow_add]
    exact Nat.mul_le_mul_right _ least
  · have double : 2 ^ (52 + shift + 1) = 2 * 2 ^ 52 * 2 ^ shift := by
      rw [Nat.pow_succ, Nat.pow_add, Nat.mul_comm _ 2, Nat.mul_assoc]
    rw [double]
    exact Nat.mul_lt_mul_of_pos_right less (Nat.two_pow_pos shift)

theorem units_small {position : Nat} (small : position < 2 * binade) :
    units position = position <<< 0 := by
  simp [units, small]

theorem units_large {position : Nat} (large : 2 * binade ≤ position) :
    ∃ shift m, binade ≤ m ∧ m < 2 * binade ∧ shift * binade + m = position ∧
      units position = m <<< shift := by
  have least : 2 ≤ position / binade := (Nat.le_div_iff_mul_le (by decide)).2 large
  have less := Nat.mod_lt position (show 0 < binade by decide)
  have split := Nat.div_add_mod' position binade
  refine ⟨position / binade - 1, binade + position % binade, Nat.le_add_right _ _, by omega, ?_, ?_⟩
  · have above : binade ≤ position / binade * binade := Nat.le_mul_of_pos_left _ (by omega)
    rw [Nat.sub_mul]
    omega
  · rw [units, if_neg (Nat.not_lt.2 large)]

theorem round_units (negative : Bool) (position : Fin finiteCount) :
    round negative (units position) 1 = .finite negative position := by
  obtain ⟨position, finite⟩ := position
  by_cases small : position < 2 * binade
  · have scale : Nat.log2 (position <<< 0) - 52 = 0 := by
      rcases Nat.eq_zero_or_pos position with rfl | positive
      · rfl
      · have bound := (Nat.log2_lt (k := 53) (Nat.ne_of_gt positive)).2 small
        rw [Nat.shiftLeft_zero]
        omega
    rw [units_small small, round_exact negative scale (by simpa using finite)]
    simp
  · obtain ⟨shift, m, least, less, rfl, large⟩ := units_large (Nat.not_lt.1 small)
    have scale : Nat.log2 (m <<< shift) - 52 = shift := by
      rw [log2_shiftLeft shift least less]
      omega
    rw [large, round_exact negative scale finite]

/-- The same magnitude with a given sign. -/
def withSign (negative : Bool) : Binary64 → Binary64
  | .nan => .nan
  | .infinity _ => .infinity negative
  | .finite _ position => .finite negative position

theorem round_sign (negative : Bool) (num den : Nat) :
    round negative num den = (round false num den).withSign negative := by
  simp only [round]
  split <;> rfl

end Binary64

namespace Decimal

open Binary64

variable {d : Decimal} {position : Fin finiteCount}

/-! ## The fewest digits -/

theorem toBinary64_sign (negative : Bool) (d : Decimal) :
    d.toBinary64 negative = (d.toBinary64 false).withSign negative := by
  unfold toBinary64
  split
  · rfl
  · split
    · rfl
    · split
      · rfl
      · split
        · exact round_sign negative _ _
        · exact round_sign negative _ _

theorem readsBack_iff : d.readsBack position = true ↔ ∃ s, d.toBinary64 false = .finite s position := by
  unfold readsBack
  constructor
  · intro found
    split at found
    · rename_i s k read
      have same : k = position := Fin.ext (by simpa using found)
      exact ⟨s, by rw [read, same]⟩
    · cases found
  · intro ⟨s, read⟩
    rw [read]
    exact beq_self_eq_true position.val

theorem toBinary64_of_readsBack (negative : Bool) (found : d.readsBack position = true) :
    d.toBinary64 negative = .finite negative position := by
  obtain ⟨s, read⟩ := readsBack_iff.1 found
  rw [toBinary64_sign, read]
  rfl

theorem reads_of_choose? {reads : Decimal → Bool} {below above : Decimal} {up : Bool}
    (found : choose? reads below above up = some d) : reads d = true := by
  unfold choose? at found
  split at found
  · split at found
    · cases found
      assumption
    · cases found
      assumption
  · cases found
    assumption
  · cases found
    assumption
  · cases found

theorem readsBack_of_withDigits? {position count : Nat} (found : withDigits? position count = some d) :
    d.readsBack position = true :=
  reads_of_choose? found

theorem units_ne_zero (positive : 0 < position.val) : units position ≠ 0 := by
  intro zero
  by_cases small : position.val < 2 * binade
  · rw [units_small small, Nat.shiftLeft_zero] at zero
    exact Nat.ne_of_gt positive zero
  · obtain ⟨shift, m, least, _, _, large⟩ := units_large (Nat.not_lt.1 small)
    rw [large, Nat.shiftLeft_eq_zero_iff] at zero
    rw [zero] at least
    exact absurd least (by decide)

theorem le_log2_mul_fives {m : Nat} (nonzero : m ≠ 0) (n : Nat) : 2 * n ≤ Nat.log2 (m * Nat.pow 5 n) := by
  have fives : Nat.pow 5 n ≠ 0 := Nat.ne_of_gt (Nat.pow_pos (by decide))
  rw [Nat.le_log2 (Nat.mul_ne_zero nonzero fives)]
  calc 2 ^ (2 * n) = (2 ^ 2) ^ n := Nat.pow_mul 2 2 n
    _ ≤ 5 ^ n := Nat.pow_le_pow_left (by decide) n
    _ ≤ m * Nat.pow 5 n := Nat.le_mul_of_pos_left _ (Nat.pos_of_ne_zero nonzero)

theorem powerOfTen_pos (n : Nat) : 0 < powerOfTen n := Nat.pow_pos (by decide)

theorem fives_mul_twos (m n : Nat) : m * Nat.pow 5 n * 1 <<< n = m * powerOfTen n := by
  rw [Nat.one_shiftLeft, Nat.mul_assoc]
  exact congrArg (m * ·) (Nat.mul_pow 5 2 n).symm

theorem toBinary64_eq_round (negative : Bool) (nonzero : d.digits ≠ 0) (small : d.exponent ≤ 400)
    (large : -1080 ≤ (d.digits.log2 : Int) + 1 + 3 * d.exponent) :
    d.toBinary64 negative =
      if 0 ≤ d.exponent then
        round negative (d.digits * powerOfTen d.exponent.toNat * unitsPerOne) 1
      else round negative (d.digits * unitsPerOne) (powerOfTen (-d.exponent).toNat) := by
  rw [toBinary64, if_neg nonzero, if_neg (Int.not_lt.2 small), if_neg (Int.not_lt.2 large)]

theorem exact_toBinary64 (negative : Bool) (positive : 0 < position.val) :
    (exact position).toBinary64 negative = .finite negative position := by
  have log : 2 * 1074 ≤ Nat.log2 (exact position).digits := by
    rw [exact]
    generalize 1074 = n
    exact le_log2_mul_fives (units_ne_zero positive) n
  have nonzero : (exact position).digits ≠ 0 := by
    intro zero
    rw [zero] at log
    exact absurd log (by decide)
  have exponent : (exact position).exponent = -1074 := rfl
  have whole : (exact position).digits * unitsPerOne = units position * powerOfTen 1074 := by
    rw [exact, unitsPerOne]
    generalize 1074 = n
    exact fives_mul_twos _ n
  have tens : powerOfTen (- -1074 : Int).toNat = 1 * powerOfTen 1074 := by
    rw [Nat.one_mul, Int.neg_neg]
    exact congrArg powerOfTen (Int.toNat_natCast 1074)
  rw [toBinary64_eq_round negative nonzero (by rw [exponent]; decide) (by rw [exponent]; omega),
    exponent, if_neg (by decide), whole, tens, round_mul (powerOfTen_pos 1074)]
  exact round_units negative position

theorem shortest_toBinary64 (negative : Bool) (position : Fin finiteCount) :
    (shortest position).toBinary64 negative = .finite negative position := by
  unfold shortest
  split
  · rename_i isZero
    have same : position = ⟨0, by decide⟩ := Fin.ext isZero
    rw [same]
    rfl
  · rename_i notZero
    cases found : (List.range 17).findSome? fun n => withDigits? position (n + 1) with
    | none => exact exact_toBinary64 negative (Nat.pos_of_ne_zero notZero)
    | some d =>
        obtain ⟨count, _, digits⟩ := List.exists_of_findSome?_eq_some found
        exact toBinary64_of_readsBack negative (readsBack_of_withDigits? digits)

theorem digits_eq_zero_or_le {s : Bool} (finite : d.toBinary64 false = .finite s position) :
    d.digits = 0 ∨ d.exponent ≤ 400 := by
  unfold toBinary64 at finite
  split at finite
  · exact .inl ‹_›
  · split at finite
    · cases finite
    · exact .inr (Int.not_lt.1 ‹_›)

/-! ## Reading digits -/

variable {cs whole fraction : List Char}

theorem ofDigits_eq (cs : List Char) : ofDigits cs = Nat.ofDigitChars 10 cs 0 := rfl

theorem ofDigits_toDigits (n : Nat) : ofDigits (Nat.toDigits 10 n) = n := Nat.ofDigitChars_ten_toDigits

theorem ofDigits_zeros (n : Nat) (cs : List Char) : ofDigits (List.replicate n '0' ++ cs) = ofDigits cs := by
  rw [ofDigits_eq, Nat.ofDigitChars_append, Nat.ofDigitChars_replicate_zero, Nat.mul_zero, ofDigits_eq]

theorem ofDigits_append_zeros (cs : List Char) (n : Nat) :
    ofDigits (cs ++ List.replicate n '0') = ofDigits cs * 10 ^ n := by
  rw [ofDigits_eq, Nat.ofDigitChars_append, Nat.ofDigitChars_replicate_zero, Nat.mul_comm, ofDigits_eq]

theorem isDigit_toDigits (n : Nat) : ∀ c ∈ Nat.toDigits 10 n, c.isDigit = true :=
  fun _ => Nat.isDigit_of_mem_toDigits (by decide) (by decide)

theorem isDigit_zeros (n : Nat) : ∀ c ∈ List.replicate n '0', c.isDigit = true := by
  intro c member
  rw [List.eq_of_mem_replicate member]
  rfl

theorem span_isDigit {rest : List Char} (digits : ∀ c ∈ cs, c.isDigit = true)
    (stops : ∀ c ∈ rest.head?, c.isDigit = false) :
    (cs ++ rest).takeWhile Char.isDigit = cs ∧ (cs ++ rest).dropWhile Char.isDigit = rest := by
  rw [List.takeWhile_append_of_pos digits, List.dropWhile_append_of_pos digits]
  cases rest with
  | nil => simp
  | cons c rest => simp [stops c rfl]

theorem readUnsigned?_point {rest : List Char} {e : Int} (digits : ∀ c ∈ whole, c.isDigit = true)
    (digits' : ∀ c ∈ fraction, c.isDigit = true) (nonempty : whole ++ fraction ≠ [])
    (stops : ∀ c ∈ rest.head?, c.isDigit = false) (read : readExponent? rest = some e) :
    readUnsigned? (whole ++ '.' :: (fraction ++ rest)) =
      some ⟨ofDigits (whole ++ fraction), e - fraction.length⟩ := by
  have point : ∀ c ∈ ('.' :: (fraction ++ rest)).head?, c.isDigit = false := by simp
  obtain ⟨front, back⟩ := span_isDigit digits point
  obtain ⟨front', back'⟩ := span_isDigit digits' stops
  have several : (whole.isEmpty && fraction.isEmpty) = false := by simpa using nonempty
  simp only [readUnsigned?, front, back, front', back', several, read]
  rfl

theorem takeSign_isDigit (digits : ∀ c ∈ cs, c.isDigit = true) (nonempty : cs ≠ []) (rest : List Char) :
    takeSign (cs ++ rest) = (false, cs ++ rest) := by
  cases cs with
  | nil => exact absurd rfl nonempty
  | cons c cs =>
      have digit := digits c List.mem_cons_self
      unfold takeSign
      split
      · rename_i same
        cases same
        cases digit
      · rename_i same
        cases same
        cases digit
      · rfl

/-! ## The point -/

/-- The digits on both sides of the point in the written form of a decimal. -/
structure Written (d : Decimal) (whole fraction : List Char) : Prop where
  digits : ∀ c ∈ whole, c.isDigit = true
  digits' : ∀ c ∈ fraction, c.isDigit = true
  nonempty : whole ≠ []
  text : d.positional.toList = whole ++ '.' :: fraction
  value : ∀ negative, toBinary64 negative ⟨ofDigits (whole ++ fraction), -(fraction.length : Int)⟩ =
    d.toBinary64 negative

theorem toBinary64_whole (negative : Bool) {m : Nat} {exponent : Int} (isWhole : 0 ≤ exponent)
    (small : m = 0 ∨ exponent ≤ 400) :
    toBinary64 negative ⟨m * 10 ^ (exponent.toNat + 1), -1⟩ = toBinary64 negative ⟨m, exponent⟩ := by
  by_cases zero : m = 0
  · simp [toBinary64, zero]
  · have nonzero : m * 10 ^ (exponent.toNat + 1) ≠ 0 := Nat.mul_ne_zero zero (by simp)
    have num : m * 10 ^ (exponent.toNat + 1) * unitsPerOne =
        m * powerOfTen exponent.toNat * unitsPerOne * 10 := by
      rw [Nat.pow_succ, ← Nat.mul_assoc, Nat.mul_right_comm]
      rfl
    have den : powerOfTen (- -1 : Int).toNat = 1 * 10 := rfl
    rw [toBinary64_eq_round negative nonzero (show (-1 : Int) ≤ 400 by decide) (by dsimp only; omega),
      toBinary64_eq_round negative zero (small.resolve_left zero) (by dsimp only; omega)]
    dsimp only
    rw [if_neg (by decide), if_pos isWhole, num, den]
    exact round_mul (by decide) negative _ 1

theorem written_positional (small : d.digits = 0 ∨ d.exponent ≤ 400) :
    ∃ whole fraction, d.Written whole fraction := by
  obtain ⟨ds, same⟩ : ∃ ds, Nat.toDigits 10 d.digits = ds := ⟨_, rfl⟩
  have digits : ∀ c ∈ ds, c.isDigit = true := same ▸ isDigit_toDigits d.digits
  have value : ofDigits ds = d.digits := same ▸ ofDigits_toDigits d.digits
  have nonempty : ds ≠ [] := same ▸ Nat.toDigits_ne_nil
  by_cases isWhole : 0 ≤ d.exponent
  · refine ⟨ds ++ List.replicate d.exponent.toNat '0', ['0'],
      List.forall_mem_append.2 ⟨digits, isDigit_zeros _⟩, by simp, by simp [nonempty], ?_, ?_⟩
    · simp [positional, same, isWhole, digitText, zeros]
    · intro negative
      rw [List.append_assoc, ← List.replicate_succ', ofDigits_append_zeros, value]
      exact toBinary64_whole negative isWhole small
  · have places : -((-d.exponent).toNat : Int) = d.exponent := by omega
    by_cases inside : (-d.exponent).toNat < ds.length
    · have length := Nat.sub_sub_self (Nat.le_of_lt inside)
      refine ⟨ds.take (ds.length - (-d.exponent).toNat), ds.drop (ds.length - (-d.exponent).toNat),
        fun c member => digits c (List.mem_of_mem_take member),
        fun c member => digits c (List.mem_of_mem_drop member), ?_, ?_, ?_⟩
      · rw [← List.length_pos_iff, List.length_take]
        omega
      · simp [positional, same, isWhole, inside, List.splitAt_eq]
      · intro negative
        rw [List.take_append_drop, value, List.length_drop, length, places]
    · have length := Nat.sub_add_cancel (Nat.not_lt.1 inside)
      refine ⟨['0'], List.replicate ((-d.exponent).toNat - ds.length) '0' ++ ds, by simp,
        List.forall_mem_append.2 ⟨isDigit_zeros _, digits⟩, by simp, ?_, ?_⟩
      · simp [positional, same, isWhole, inside, zeros]
      · intro negative
        rw [← List.append_assoc, List.singleton_append, ← List.replicate_succ, ofDigits_zeros, value,
          List.length_append, List.length_replicate, length, places]

theorem written_shortest (position : Fin finiteCount) :
    ∃ whole fraction, (shortest position).Written whole fraction :=
  written_positional (digits_eq_zero_or_le (shortest_toBinary64 false position))

theorem Written.read? (written : d.Written whole fraction) (negative : Bool) :
    Decimal.read? ((Number.signText negative).toList ++ (whole ++ '.' :: fraction)) =
      some (d.toBinary64 negative) := by
  have unsigned : readUnsigned? (whole ++ '.' :: (fraction ++ [])) =
      some ⟨ofDigits (whole ++ fraction), 0 - fraction.length⟩ :=
    readUnsigned?_point written.digits written.digits'
      (List.append_ne_nil_of_left_ne_nil written.nonempty fraction) nofun rfl
  rw [List.append_nil, Int.zero_sub] at unsigned
  cases negative with
  | false =>
      have sign := takeSign_isDigit written.digits written.nonempty ('.' :: fraction)
      simp [Decimal.read?, Number.signText, sign, unsigned, written.value]
  | true => simp [Decimal.read?, Number.signText, takeSign, unsigned, written.value]

end Decimal

end StoreScheme
