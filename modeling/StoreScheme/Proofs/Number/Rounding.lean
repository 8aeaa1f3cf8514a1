import Mathlib.Data.Nat.Log
import StoreScheme.Proofs.Number.Decimal

/-!
# Rounding keeps the order

A larger magnitude is never rounded to a smaller position: with the same distance between neighbours the
quotients are in order, and where the distance grows the larger one stands in a later binade.  So integers
become reals in the same order, and up to `2 ^ 53` no two of them become the same.

* `Binary64.roundQuotient_mono`: rounding at one distance
* `Binary64.roundedPosition_mono`: rounding at the distance of each magnitude
* `Binary64.ofInt_mono`, `Binary64.ofInt_eq_iff`: integers as reals
-/

namespace StoreScheme.Binary64

/-! ## Quotients -/

theorem roundQuotient_bounds (num den : Nat) :
    num / den ≤ roundQuotient num den ∧ roundQuotient num den ≤ num / den + 1 := by
  unfold roundQuotient
  dsimp only
  split_ifs <;> omega

theorem roundQuotient_mono {m n : Nat} (le : m ≤ n) (den : Nat) : roundQuotient m den ≤ roundQuotient n den := by
  by_cases same : m / den = n / den
  · have rest : m % den ≤ n % den := by
      have first := Nat.div_add_mod m den
      have second := Nat.div_add_mod n den
      rw [same] at first
      omega
    unfold roundQuotient
    dsimp only
    rw [same]
    split_ifs <;> omega
  · have less : m / den < n / den := Nat.lt_of_le_of_ne (Nat.div_le_div_right le) same
    have upper := (roundQuotient_bounds m den).2
    have lower := (roundQuotient_bounds n den).1
    omega

/-! ## Positions -/

/-- How many times the distance between neighbours has doubled at a magnitude. -/
def doublings (magnitude : Nat) : Nat := Nat.log2 magnitude - 52

/-- The position nearest to a magnitude. -/
def roundedPosition (magnitude : Nat) : Nat :=
  doublings magnitude * binade + roundQuotient magnitude (1 <<< doublings magnitude)

theorem orderKey_round (negative : Bool) (magnitude : Nat) :
    (round negative magnitude 1).orderKey =
      some (signed negative (min (roundedPosition magnitude) finiteCount)) := by
  have position : Nat.log2 (magnitude / 1) - 52 = doublings magnitude := by rw [Nat.div_one, doublings]
  unfold round
  simp only [position]
  split
  · rename_i finite
    rw [orderKey, roundedPosition, Nat.min_eq_left (Nat.le_of_lt finite)]
  · rename_i infinite
    rw [orderKey, roundedPosition, Nat.min_eq_right (Nat.not_lt.1 infinite)]

theorem doublings_mono {m n : Nat} (le : m ≤ n) : doublings m ≤ doublings n := by
  unfold doublings
  rw [Nat.log2_eq_log_two, Nat.log2_eq_log_two]
  exact Nat.sub_le_sub_right (Nat.log_mono_right le) 52

theorem roundedPosition_le (magnitude : Nat) :
    roundedPosition magnitude ≤ (doublings magnitude + 2) * binade := by
  have below : magnitude < 2 * binade * 2 ^ doublings magnitude := by
    calc magnitude < 2 ^ (Nat.log2 magnitude + 1) := Nat.lt_log2_self
      _ ≤ 2 ^ (53 + doublings magnitude) := Nat.pow_le_pow_right (by decide) (by unfold doublings; omega)
      _ = 2 * binade * 2 ^ doublings magnitude := Nat.pow_add 2 53 _
  have quotient : magnitude / 1 <<< doublings magnitude < 2 * binade := by
    rw [Nat.one_shiftLeft]
    exact (Nat.div_lt_iff_lt_mul (Nat.two_pow_pos _)).2 below
  have rounded := (roundQuotient_bounds magnitude (1 <<< doublings magnitude)).2
  rw [roundedPosition, Nat.add_mul]
  omega

theorem le_roundedPosition {magnitude : Nat} (doubled : 0 < doublings magnitude) :
    (doublings magnitude + 1) * binade ≤ roundedPosition magnitude := by
  have nonzero : magnitude ≠ 0 := by
    rintro rfl
    exact absurd doubled (by decide)
  have above : binade * 2 ^ doublings magnitude ≤ magnitude := by
    calc binade * 2 ^ doublings magnitude = 2 ^ (52 + doublings magnitude) := (Nat.pow_add 2 52 _).symm
      _ ≤ 2 ^ Nat.log2 magnitude := Nat.pow_le_pow_right (by decide) (by unfold doublings at *; omega)
      _ ≤ magnitude := Nat.log2_self_le nonzero
  have quotient : binade ≤ magnitude / 1 <<< doublings magnitude := by
    rw [Nat.one_shiftLeft]
    exact (Nat.le_div_iff_mul_le (Nat.two_pow_pos _)).2 above
  have rounded := (roundQuotient_bounds magnitude (1 <<< doublings magnitude)).1
  rw [roundedPosition, Nat.add_mul]
  omega

theorem roundedPosition_mono {m n : Nat} (le : m ≤ n) : roundedPosition m ≤ roundedPosition n := by
  obtain same | fewer := Nat.eq_or_lt_of_le (doublings_mono le)
  · rw [roundedPosition, roundedPosition, same]
    exact Nat.add_le_add_left (roundQuotient_mono le _) _
  · calc roundedPosition m ≤ (doublings m + 2) * binade := roundedPosition_le m
      _ ≤ (doublings n + 1) * binade := Nat.mul_le_mul_right _ (by omega)
      _ ≤ roundedPosition n := le_roundedPosition (by omega)

/-! ## Integers -/

/-- The position of an integer's magnitude, or that of infinity. -/
def integerPosition (n : Nat) : Nat := min (roundedPosition (n * unitsPerOne)) finiteCount

theorem orderKey_ofInt (n : Int) :
    (ofInt n).orderKey = some (signed (n < 0) (integerPosition n.natAbs)) :=
  orderKey_round _ _

theorem integerPosition_mono {m n : Nat} (le : m ≤ n) : integerPosition m ≤ integerPosition n := by
  have positions := roundedPosition_mono (Nat.mul_le_mul_right unitsPerOne le)
  unfold integerPosition
  omega

theorem ofInt_mono {a b key key' : Int} (le : a ≤ b) (first : (ofInt a).orderKey = some key)
    (second : (ofInt b).orderKey = some key') : key ≤ key' := by
  rw [orderKey_ofInt, Option.some.injEq] at first second
  subst first second
  by_cases below : b < 0
  · have positions : integerPosition b.natAbs ≤ integerPosition a.natAbs := integerPosition_mono (by omega)
    simp [signed, below, show a < 0 by omega, positions]
  · by_cases across : a < 0
    · simp only [signed, below, across, decide_true, decide_false, if_true, Bool.false_eq_true, if_false]
      omega
    · have positions : integerPosition a.natAbs ≤ integerPosition b.natAbs := integerPosition_mono (by omega)
      simp [signed, below, across, positions]

theorem roundedPosition_shiftLeft {m : Nat} (shift : Nat) (least : binade ≤ m) (less : m < 2 * binade) :
    roundedPosition (m <<< shift) = shift * binade + m := by
  have scale : doublings (m <<< shift) = shift := by
    rw [doublings, log2_shiftLeft shift least less, Nat.add_sub_cancel_left]
  have quotient : roundQuotient (m <<< shift) (1 <<< shift) = m := by
    rw [Nat.shiftLeft_eq m, ← Nat.one_shiftLeft]
    exact roundQuotient_exact (Nat.one_shiftLeft shift ▸ Nat.two_pow_pos shift) m
  rw [roundedPosition, scale, quotient]

theorem mul_one_shiftLeft (n a b : Nat) : n * 1 <<< (a + b) = (n * 2 ^ a) <<< b := by
  rw [Nat.one_shiftLeft, Nat.shiftLeft_eq, Nat.pow_add, Nat.mul_assoc]

/-- Up to `2 ^ 53` an integer has no more digits than are kept. -/
theorem exists_significand {n : Nat} (positive : 0 < n) (small : n ≤ 2 ^ 53) :
    ∃ shift m, shift ≤ 1075 ∧ binade ≤ m ∧ m < 2 * binade ∧ n * unitsPerOne = m <<< shift := by
  have power : binade = 2 ^ 52 := rfl
  obtain rfl | less := Nat.eq_or_lt_of_le small
  · refine ⟨1075, binade, Nat.le_refl _, Nat.le_refl _, by decide, ?_⟩
    exact (mul_one_shiftLeft (2 ^ 53) 0 1074).trans (Nat.shiftLeft_add binade 1 1074).symm
  · have length : Nat.log2 n ≤ 52 := Nat.lt_succ_iff.1 ((Nat.log2_lt (Nat.ne_of_gt positive)).2 less)
    have split : 2 ^ Nat.log2 n * 2 ^ (52 - Nat.log2 n) = 2 ^ 52 := by
      rw [← Nat.pow_add, Nat.add_sub_cancel' length]
    have exponent : 52 - Nat.log2 n + (1022 + Nat.log2 n) = 1074 := by omega
    refine ⟨1022 + Nat.log2 n, n * 2 ^ (52 - Nat.log2 n), by omega, ?_, ?_, ?_⟩
    · rw [power, ← split]
      exact Nat.mul_le_mul_right _ (Nat.log2_self_le (Nat.ne_of_gt positive))
    · rw [power, ← split, ← Nat.mul_assoc, ← Nat.pow_succ']
      exact Nat.mul_lt_mul_of_pos_right Nat.lt_log2_self (Nat.two_pow_pos _)
    · rw [unitsPerOne, ← exponent, mul_one_shiftLeft]

theorem integerPosition_eq {n : Nat} (positive : 0 < n) (small : n ≤ 2 ^ 53) :
    ∃ shift m, binade ≤ m ∧ m < 2 * binade ∧ n * unitsPerOne = m <<< shift ∧
      integerPosition n = shift * binade + m := by
  obtain ⟨shift, m, bound, least, less, value⟩ := exists_significand positive small
  refine ⟨shift, m, least, less, value, ?_⟩
  rw [integerPosition, value, roundedPosition_shiftLeft shift least less]
  refine Nat.min_eq_left ?_
  calc shift * binade + m ≤ 1075 * binade + 2 * binade :=
        Nat.add_le_add (Nat.mul_le_mul_right _ bound) (Nat.le_of_lt less)
    _ ≤ finiteCount := by decide

theorem unitsPerOne_pos : 0 < unitsPerOne := by
  rw [unitsPerOne]
  generalize 1074 = n
  exact Nat.one_shiftLeft n ▸ Nat.two_pow_pos n

theorem integerPosition_zero : integerPosition 0 = 0 := by
  rw [integerPosition, Nat.zero_mul]
  rfl

theorem integerPosition_injective {m n : Nat} (m_small : m ≤ 2 ^ 53) (n_small : n ≤ 2 ^ 53)
    (same : integerPosition m = integerPosition n) : m = n := by
  have zero := integerPosition_zero
  refine Nat.eq_of_mul_eq_mul_right unitsPerOne_pos ?_
  obtain rfl | m_positive := Nat.eq_zero_or_pos m
  · obtain rfl | n_positive := Nat.eq_zero_or_pos n
    · rfl
    · obtain ⟨shift, k, least, -, -, position⟩ := integerPosition_eq n_positive n_small
      unfold binade at least
      omega
  · obtain ⟨shift, k, least, less, value, position⟩ := integerPosition_eq m_positive m_small
    obtain rfl | n_positive := Nat.eq_zero_or_pos n
    · unfold binade at least
      omega
    · obtain ⟨shift', k', least', less', value', position'⟩ := integerPosition_eq n_positive n_small
      obtain ⟨rfl, rfl⟩ : shift = shift' ∧ k = k' := by
        unfold binade at least less least' less' position position'
        omega
      rw [value, value']

theorem ofInt_eq_iff {a b : Int} (a_small : a.natAbs ≤ 2 ^ 53) (b_small : b.natAbs ≤ 2 ^ 53) :
    (ofInt a).orderKey = (ofInt b).orderKey ↔ a = b := by
  refine ⟨fun same => ?_, fun same => same ▸ rfl⟩
  rw [orderKey_ofInt, orderKey_ofInt, Option.some.injEq] at same
  have magnitudes : a.natAbs = b.natAbs := by
    refine integerPosition_injective a_small b_small ?_
    unfold signed at same
    split_ifs at same <;> omega
  -- Two signs are told apart by any position but that of zero.
  have nonzero : b.natAbs ≠ 0 → integerPosition b.natAbs ≠ 0 := fun nonzero zero =>
    nonzero (integerPosition_injective b_small (Nat.zero_le _) (zero.trans integerPosition_zero.symm))
  rw [magnitudes] at same
  simp only [signed, decide_eq_true_eq] at same
  split_ifs at same <;> omega

end StoreScheme.Binary64
