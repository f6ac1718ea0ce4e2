import Mathlib.Data.Nat.Log
import Mathlib.Tactic.Linarith
import Mathlib.Tactic.Ring
import AdmissionGuest.Number.Double
/-!
How far rounding takes a quotient. A quotient that is not below one has a mantissa of fifty-three
bits, so that it moves by no more than a part in `2^53`; it has a double exactly if it stays below
the next power of two after the greatest one.
-/

namespace AdmissionGuest

namespace Binary64

theorem pow2_pos (n : Nat) : 0 < pow2 n := Nat.two_pow_pos n

theorem pow2_succ (n : Nat) : pow2 (n + 1) = 2 * pow2 n := Nat.pow_succ'

theorem pow2_add (m n : Nat) : pow2 (m + n) = pow2 m * pow2 n := Nat.pow_add 2 m n

theorem binadeSize_pos : 0 < binadeSize := pow2_pos 52

theorem denominator_pos : 0 < denominator := pow2_pos leastExponent

/-- Rounding moves a quotient by half a unit at most. -/
theorem roundQuotient_near (num : Nat) {den : Nat} (positive : 0 < den) :
    2 * num ≤ (2 * roundQuotient num den + 1) * den ∧
      2 * roundQuotient num den * den ≤ 2 * num + den := by
  have split : den * (num / den) + num % den = num := Nat.div_add_mod num den
  have left : num % den < den := Nat.mod_lt num positive
  unfold roundQuotient
  generalize num / den = whole at split
  generalize num % den = rest at split left
  subst split
  dsimp only
  split
  next up =>
    have half : den ≤ 2 * rest := by
      simp only [Bool.or_eq_true, Bool.and_eq_true, decide_eq_true_eq] at up
      omega
    constructor <;> linarith
  next down =>
    have half : 2 * rest ≤ den := by
      simp only [Bool.or_eq_true, decide_eq_true_eq, not_or] at down
      omega
    constructor <;> linarith

section Unit

variable {num den : Nat} (positive : 0 < den) (whole : den ≤ num)

include positive whole

/-- A quotient lies within a factor of two of the quotient of the powers of two below its parts. -/
theorem quotient_log2 :
    ∃ c, num.log2 = den.log2 + c ∧ den * pow2 c ≤ 2 * num ∧ num < den * (2 * pow2 c) := by
  obtain ⟨c, log⟩ : ∃ c, num.log2 = den.log2 + c := by
    rw [Nat.log2_eq_log_two, Nat.log2_eq_log_two]
    exact Nat.exists_eq_add_of_le (Nat.log_mono_right whole)
  have least : pow2 den.log2 * pow2 c ≤ num := by
    rw [← pow2_add, ← log]
    exact Nat.log2_self_le (by omega)
  have most : num < pow2 den.log2 * (2 * pow2 c) := by
    rw [← pow2_succ, ← pow2_add, ← Nat.add_assoc, ← log]
    exact Nat.lt_log2_self
  have least' : pow2 den.log2 ≤ den := Nat.log2_self_le (by omega)
  have most' : den < 2 * pow2 den.log2 := by
    rw [← pow2_succ]
    exact Nat.lt_log2_self
  refine ⟨c, log, ?_, most.trans_le (Nat.mul_le_mul_right _ least')⟩
  calc den * pow2 c ≤ 2 * pow2 den.log2 * pow2 c := Nat.mul_le_mul_right _ most'.le
    _ = 2 * (pow2 den.log2 * pow2 c) := Nat.mul_assoc ..
    _ ≤ 2 * num := Nat.mul_le_mul_left 2 least

/-- The unit of a quotient from one on leaves room for fifty-three bits, and for no more. -/
theorem unitOf_room :
    den * pow2 (unitOf num den) * binadeSize ≤ num * denominator ∧
      num * denominator < den * pow2 (unitOf num den) * (2 * binadeSize) := by
  obtain ⟨c, log, half, double⟩ := quotient_log2 positive whole
  -- The mantissas of the unit begin at the quotient of the powers of two, or at half of it.
  have upper {u : Nat} (unit : u + 52 = c + leastExponent) :
      pow2 u * binadeSize = pow2 c * denominator := by
    rw [binadeSize, denominator, ← pow2_add, ← pow2_add, unit]
  have lower {u : Nat} (unit : u + 52 + 1 = c + leastExponent) :
      2 * (pow2 u * binadeSize) = pow2 c * denominator := by
    rw [binadeSize, denominator, ← pow2_add, ← pow2_add, ← pow2_succ, unit]
  have scale := denominator_pos
  generalize denominator = D at upper lower scale ⊢
  rw [Nat.mul_assoc, Nat.mul_assoc, Nat.mul_left_comm _ 2, unitOf, log, pow2_add]
  split
  next below =>
    have less : num < den * pow2 c := by
      rw [Nat.mul_left_comm, Nat.mul_comm num] at below
      exact Nat.lt_of_mul_lt_mul_left below
    have unit := lower (u := den.log2 + c + leastExponent - (den.log2 + 52 + 1))
      (by simp only [leastExponent]; omega)
    refine ⟨Nat.le_of_mul_le_mul_left ?_ Nat.two_pos, ?_⟩
    · rw [Nat.mul_left_comm 2, unit, ← Nat.mul_assoc, ← Nat.mul_assoc]
      exact Nat.mul_le_mul_right D half
    · rw [unit, ← Nat.mul_assoc]
      exact Nat.mul_lt_mul_of_pos_right less scale
  next notBelow =>
    have more : den * pow2 c ≤ num := by
      rw [Nat.mul_left_comm, Nat.mul_comm num] at notBelow
      exact Nat.le_of_mul_le_mul_left (Nat.le_of_not_lt notBelow) (pow2_pos _)
    rw [upper (u := den.log2 + c + leastExponent - (den.log2 + 52))
      (by simp only [leastExponent]; omega)]
    refine ⟨?_, ?_⟩
    · rw [← Nat.mul_assoc]
      exact Nat.mul_le_mul_right D more
    · rw [← Nat.mul_assoc 2, ← Nat.mul_assoc]
      exact Nat.mul_lt_mul_of_pos_right double scale

end Unit

/-- The value of a mantissa that fills its unit; one that was rounded up to the next power of two
begins the next binade. -/
theorem numerator_rank {unit q : Nat} (least : binadeSize ≤ q) (most : q ≤ 2 * binadeSize) :
    numerator (unit * binadeSize + q) = q * pow2 unit := by
  have positive := binadeSize_pos
  rcases Nat.lt_or_eq_of_le most with inside | rfl
  · obtain ⟨offset, rfl⟩ := Nat.exists_eq_add_of_le least
    have small : offset < binadeSize := by omega
    have rank : unit * binadeSize + (binadeSize + offset) = binadeSize * (unit + 1) + offset := by
      rw [Nat.mul_succ, Nat.mul_comm, Nat.add_assoc]
    have binade : binade (binadeSize * (unit + 1) + offset) = unit := by
      rw [binade, Nat.mul_add_div positive, Nat.div_eq_of_lt small]
      rfl
    have mantissa : mantissa (binadeSize * (unit + 1) + offset) = binadeSize + offset := by
      rw [mantissa, if_neg (by rw [Nat.mul_succ]; omega), Nat.mul_add_mod, Nat.mod_eq_of_lt small,
        Nat.add_comm]
    rw [rank, numerator, binade, mantissa]
  · have rank : unit * binadeSize + 2 * binadeSize = binadeSize * (unit + 2) := by
      rw [← Nat.add_mul, Nat.mul_comm]
    have binade : binade (binadeSize * (unit + 2)) = unit + 1 := by
      rw [binade, Nat.mul_div_cancel_left _ positive]
      rfl
    have mantissa : mantissa (binadeSize * (unit + 2)) = binadeSize := by
      rw [mantissa, if_neg (by rw [Nat.mul_succ]; omega), Nat.mul_mod_right, Nat.zero_add]
    rw [rank, numerator, binade, mantissa, pow2_succ, Nat.mul_left_comm, Nat.mul_assoc]

/-- A quotient is rounded to a mantissa in a unit. -/
structure Rounds (num den unit q : Nat) : Prop where
  room : den * pow2 unit * binadeSize ≤ num * denominator
  full : num * denominator < den * pow2 unit * (2 * binadeSize)
  least : 2 * (num * denominator) ≤ (2 * q + 1) * (den * pow2 unit)
  most : 2 * q * (den * pow2 unit) ≤ 2 * (num * denominator) + den * pow2 unit

section Rounding

variable {num den unit q : Nat} (positive : 0 < den)

include positive

theorem Rounds.mantissa (rounds : Rounds num den unit q) :
    binadeSize ≤ q ∧ q ≤ 2 * binadeSize := by
  obtain ⟨room, full, least, most⟩ := rounds
  have some : 0 < den * pow2 unit := Nat.mul_pos positive (pow2_pos unit)
  generalize den * pow2 unit = step at *
  constructor
  · have below : 2 * binadeSize * step ≤ (2 * q + 1) * step := by linarith
    have := Nat.le_of_mul_le_mul_right below some
    omega
  · have above : 2 * q * step < (4 * binadeSize + 1) * step := by linarith
    have := Nat.lt_of_mul_lt_mul_right above
    omega

variable (whole : den ≤ num)

include whole

theorem ofQuotient_rounds :
    ∃ unit q, ofQuotient num den = unit * binadeSize + q ∧ Rounds num den unit q := by
  obtain ⟨room, full⟩ := unitOf_room positive whole
  have some : 0 < den * pow2 (unitOf num den) := Nat.mul_pos positive (pow2_pos _)
  obtain ⟨least, most⟩ := roundQuotient_near (num * denominator) some
  refine ⟨unitOf num den, _, ?_, room, full, least, most⟩
  rw [ofQuotient, if_neg (by omega)]

/-- Rounding moves a quotient by a part in `2^53` at most. -/
theorem numerator_near :
    numerator (ofQuotient num den) * den * (2 * binadeSize) ≤
        num * denominator * (2 * binadeSize + 1) ∧
      num * denominator * (2 * binadeSize - 1) ≤
        numerator (ofQuotient num den) * den * (2 * binadeSize) := by
  obtain ⟨unit, q, same, rounds⟩ := ofQuotient_rounds positive whole
  obtain ⟨least, most⟩ := rounds.mantissa positive
  rw [same, numerator_rank least most, Nat.mul_assoc q, Nat.mul_comm (pow2 unit)]
  obtain ⟨room, _, least, most⟩ := rounds
  generalize den * pow2 unit = step at *
  rw [Nat.mul_sub, Nat.mul_one, Nat.sub_le_iff_le_add]
  constructor <;> nlinarith

end Rounding

/-- The greatest double. -/
def greatest : Nat := (2 * binadeSize - 1) * pow2 971

theorem lt_of_pow2_lt {m n : Nat} (less : pow2 m < pow2 n) : m < n :=
  (Nat.pow_lt_pow_iff_right Nat.one_lt_two).mp less

section Range

variable {num den : Nat} (positive : 0 < den) (whole : den ≤ num)

include positive whole

theorem ofQuotient_lt_infinity (bound : num ≤ den * greatest) : ofQuotient num den < infinity := by
  obtain ⟨unit, q, same, rounds⟩ := ofQuotient_rounds positive whole
  obtain ⟨_, upTo⟩ := rounds.mantissa positive
  obtain ⟨room, _, _, most⟩ := rounds
  have limit : num * denominator ≤ (2 * binadeSize - 1) * (den * pow2 2045) := by
    calc num * denominator ≤ den * greatest * denominator := Nat.mul_le_mul_right _ bound
      _ = (2 * binadeSize - 1) * (den * (pow2 971 * denominator)) := by
        rw [greatest, Nat.mul_assoc, Nat.mul_assoc, Nat.mul_left_comm]
      _ = (2 * binadeSize - 1) * (den * pow2 2045) := by
        rw [denominator, ← pow2_add, show 971 + leastExponent = 2045 from rfl]
  have positive' := binadeSize_pos
  have unitBound : unit < 2046 := by
    refine lt_of_pow2_lt (Nat.lt_of_mul_lt_mul_left (a := den * binadeSize) ?_)
    calc den * binadeSize * pow2 unit = den * pow2 unit * binadeSize := Nat.mul_right_comm ..
      _ ≤ (2 * binadeSize - 1) * (den * pow2 2045) := room.trans limit
      _ < 2 * binadeSize * (den * pow2 2045) :=
        Nat.mul_lt_mul_of_pos_right (by omega) (Nat.mul_pos positive (pow2_pos _))
      _ = den * binadeSize * (2 * pow2 2045) := by
        rw [Nat.mul_comm 2, Nat.mul_assoc, Nat.mul_left_comm 2, ← Nat.mul_assoc,
          Nat.mul_comm binadeSize]
      _ = den * binadeSize * pow2 2046 := by rw [← pow2_succ]
  rw [same, infinity]
  rcases Nat.lt_or_eq_of_le (Nat.le_of_lt_succ unitBound) with below | rfl
  · have := Nat.mul_le_mul_right binadeSize (Nat.le_of_lt_succ below)
    omega
  · have step : 0 < den * pow2 2045 := Nat.mul_pos positive (pow2_pos _)
    have fits : 2 * q * (den * pow2 2045) ≤ (2 * (2 * binadeSize - 1) + 1) * (den * pow2 2045) := by
      generalize den * pow2 2045 = step at *
      linarith
    have := Nat.le_of_mul_le_mul_right fits step
    omega

theorem infinity_le_ofQuotient (bound : den * pow2 1024 ≤ num) : infinity ≤ ofQuotient num den := by
  obtain ⟨unit, q, same, rounds⟩ := ofQuotient_rounds positive whole
  obtain ⟨least, _⟩ := rounds.mantissa positive
  have unitBound : 2045 < unit := by
    refine lt_of_pow2_lt (Nat.lt_of_mul_lt_mul_left (a := den * (2 * binadeSize)) ?_)
    calc den * (2 * binadeSize) * pow2 2045 = den * pow2 1024 * denominator := by
          rw [binadeSize, denominator, ← pow2_succ, Nat.mul_assoc, Nat.mul_assoc, ← pow2_add,
            ← pow2_add, show 52 + 1 + 2045 = 1024 + leastExponent from rfl]
      _ ≤ num * denominator := Nat.mul_le_mul_right _ bound
      _ < den * pow2 unit * (2 * binadeSize) := rounds.full
      _ = den * (2 * binadeSize) * pow2 unit := Nat.mul_right_comm ..
  rw [same, infinity]
  have := Nat.mul_le_mul_right binadeSize (Nat.succ_le_of_lt unitBound)
  omega

end Range

/-! Decimals -/

theorem pow10_pos (k : Nat) : 0 < pow10 k := Nat.pow_pos (by decide)

theorem lt_of_pow10_lt {m n : Nat} (less : pow10 m < pow10 n) : m < n :=
  (Nat.pow_lt_pow_iff_right (show 1 < 10 by decide)).mp less

theorem two_le_pow10 {k : Nat} (power : 0 < k) : 2 ≤ pow10 k := by
  obtain ⟨k, rfl⟩ := Nat.exists_eq_add_one_of_ne_zero power.ne'
  have := pow10_pos k
  rw [pow10_succ]
  omega

section Whole

variable {n : Nat} (more : 2 ≤ n)

include more

theorem numerator_whole :
    numerator (ofQuotient n 1) * (2 * binadeSize) ≤ n * denominator * (2 * binadeSize + 1) ∧
      n * denominator * (2 * binadeSize - 1) ≤
        numerator (ofQuotient n 1) * (2 * binadeSize) := by
  have near := numerator_near Nat.one_pos (show 1 ≤ n by omega)
  rwa [Nat.mul_one] at near

theorem denominator_le_numerator : denominator ≤ numerator (ofQuotient n 1) := by
  have positive := binadeSize_pos
  have enough : 2 * binadeSize ≤ n * (2 * binadeSize - 1) :=
    (show 2 * binadeSize ≤ 2 * (2 * binadeSize - 1) by omega).trans (Nat.mul_le_mul_right _ more)
  refine Nat.le_of_mul_le_mul_right (c := 2 * binadeSize) ?_ (by omega)
  calc denominator * (2 * binadeSize) ≤ denominator * (n * (2 * binadeSize - 1)) :=
        Nat.mul_le_mul_left _ enough
    _ = n * denominator * (2 * binadeSize - 1) := by rw [Nat.mul_left_comm, Nat.mul_assoc]
    _ ≤ numerator (ofQuotient n 1) * (2 * binadeSize) := (numerator_whole more).2

theorem ofQuotient_pos : 0 < ofQuotient n 1 := by
  obtain ⟨unit, q, same, rounds⟩ := ofQuotient_rounds Nat.one_pos (show 1 ≤ n by omega)
  have := (rounds.mantissa Nat.one_pos).1
  have := binadeSize_pos
  omega

end Whole

section Product

variable {v k : Nat} (more : 2 ≤ v) (power : 0 < k)

include more power

theorem scaled_whole :
    denominator * denominator ≤ numerator (ofQuotient v 1) * numerator (powerOfTen k) :=
  Nat.mul_le_mul (denominator_le_numerator more) (denominator_le_numerator (two_le_pow10 power))

/-- A significand that is scaled by a power of ten stays close to the product. -/
theorem scaled_near :
    numerator (ofQuotient v 1) * numerator (powerOfTen k) * (2 * binadeSize) ^ 2 ≤
        denominator * denominator * (v * pow10 k * (2 * binadeSize + 1) ^ 2) ∧
      denominator * denominator * (v * pow10 k * (2 * binadeSize - 1) ^ 2) ≤
        numerator (ofQuotient v 1) * numerator (powerOfTen k) * (2 * binadeSize) ^ 2 := by
  obtain ⟨upper, lower⟩ := numerator_whole more
  obtain ⟨upper', lower'⟩ := numerator_whole (two_le_pow10 power)
  change numerator (powerOfTen k) * _ ≤ _ at upper'
  change _ ≤ numerator (powerOfTen k) * _ at lower'
  generalize numerator (ofQuotient v 1) = a at *
  generalize numerator (powerOfTen k) = b at *
  generalize denominator = D at *
  generalize 2 * binadeSize + 1 = above at *
  generalize 2 * binadeSize - 1 = below at *
  generalize 2 * binadeSize = size at *
  constructor
  · calc a * b * size ^ 2 = a * size * (b * size) := by ring
      _ ≤ v * D * above * (pow10 k * D * above) := Nat.mul_le_mul upper upper'
      _ = D * D * (v * pow10 k * above ^ 2) := by ring
  · calc D * D * (v * pow10 k * below ^ 2) = v * D * below * (pow10 k * D * below) := by ring
      _ ≤ a * size * (b * size) := Nat.mul_le_mul lower lower'
      _ = a * b * size ^ 2 := by ring

omit more power in
theorem ofDecimal_scaled :
    ofDecimal v k =
      if ofQuotient v 1 = 0 then some 0
      else if greatestPower < k then none
      else if mul (ofQuotient v 1) (powerOfTen k) < infinity then
        some (mul (ofQuotient v 1) (powerOfTen k))
      else none := rfl

/-- A scaled significand is held as long as it stays below the greatest double by two roundings. -/
theorem ofDecimal_held (inside : k ≤ greatestPower)
    (bound : v * pow10 k * (2 * binadeSize + 1) ^ 2 ≤ greatest * (2 * binadeSize) ^ 2) :
    ∃ rank, ofDecimal v k = some rank := by
  have positive : 0 < denominator * denominator := Nat.mul_pos denominator_pos denominator_pos
  have size : 0 < (2 * binadeSize) ^ 2 := Nat.pow_pos (Nat.mul_pos Nat.two_pos binadeSize_pos)
  have near := (scaled_near more power).1.trans (Nat.mul_le_mul_left _ bound)
  rw [← Nat.mul_assoc] at near
  have fits := ofQuotient_lt_infinity positive (scaled_whole more power)
    (Nat.le_of_mul_le_mul_right near size)
  refine ⟨mul (ofQuotient v 1) (powerOfTen k), ?_⟩
  rw [ofDecimal_scaled, if_neg (ofQuotient_pos more).ne', if_neg (Nat.not_lt.mpr inside), mul,
    if_pos fits]

theorem ofDecimal_beyond
    (bound : pow2 1024 * (2 * binadeSize) ^ 2 ≤ v * pow10 k * (2 * binadeSize - 1) ^ 2) :
    ofDecimal v k = none := by
  have positive : 0 < denominator * denominator := Nat.mul_pos denominator_pos denominator_pos
  have size : 0 < (2 * binadeSize) ^ 2 := Nat.pow_pos (Nat.mul_pos Nat.two_pos binadeSize_pos)
  have near := (Nat.mul_le_mul_left _ bound).trans (scaled_near more power).2
  rw [← Nat.mul_assoc] at near
  have above := infinity_le_ofQuotient positive (scaled_whole more power)
    (Nat.le_of_mul_le_mul_right near size)
  rw [ofDecimal_scaled, if_neg (ofQuotient_pos more).ne', mul, if_neg (Nat.not_lt.mpr above),
    ite_self]

end Product

end Binary64

end AdmissionGuest
