import AdmissionGuest.Proofs.Json.Spelling.Uniform
import AdmissionGuest.Proofs.Json.Spelling.Words
import AdmissionGuest.Proofs.Number.Double
/-!
Integers of any size in documents. The digits of an integer are read as that integer if it has
sixty-four bits, and as a double otherwise; they are out of range if the double would be. The
greatest double is `1.7976931348623157e308`.
-/

namespace AdmissionGuest

open Ascii

namespace Scan

section Significand

variable (negative : Bool) {n : Nat}

theorem plainNumber_double {s : Significand} (dropped : s.dropped ≠ 0) (m : Int) :
    plainNumber negative s ≠ some (.int m) := by
  rw [plainNumber, if_neg dropped]
  cases Binary64.ofDecimal s.value s.dropped <;> rintro ⟨⟩

/-- A number that has all its digits is held. -/
theorem plainNumber_whole {s : Significand} (whole : s.dropped = 0) :
    ∃ x, plainNumber negative s = some x := by
  rw [plainNumber, if_pos whole]
  split
  · exact ⟨_, rfl⟩
  · split <;> exact ⟨_, rfl⟩

theorem dropped_iff : (significandOf n).dropped ≠ 0 ↔ significandLimit ≤ n := by
  constructor
  · exact fun dropped => ((holds_significandOf n).full dropped).1
  · intro full whole
    obtain ⟨_, most, below, _⟩ := holds_significandOf n
    rw [whole, Binary64.pow10_zero, Nat.mul_one] at most
    omega

/-- A significand that is full, and the power of ten that it is scaled by. -/
structure Scaled (n v k : Nat) : Prop where
  least : v * Binary64.pow10 k ≤ n
  most : n < (v + 1) * Binary64.pow10 k
  full : Binary64.pow10 18 ≤ v
  power : 0 < k

theorem scaled_significandOf (dropped : (significandOf n).dropped ≠ 0) :
    Scaled n (significandOf n).value (significandOf n).dropped := by
  obtain ⟨least, most, _, full⟩ := holds_significandOf n
  have full := (full dropped).2
  refine ⟨least, most, ?_, Nat.pos_of_ne_zero dropped⟩
  have limit : 10 * Binary64.pow10 18 + 9 ≤ significandLimit := by decide +kernel
  omega

end Significand

end Scan

/-! Where doubles end -/

namespace Scan.Scaled

open Binary64

variable {n v k : Nat} (scaled : Scaled n v k)

include scaled

theorem two_le : 2 ≤ v :=
  (two_le_pow10 (show 0 < 18 by decide)).trans scaled.full

theorem held (bound : n ≤ 1797693134862315 * pow10 293) : ∃ rank, ofDecimal v k = some rank := by
  have inside : pow10 k < pow10 309 := by
    calc pow10 k ≤ v * pow10 k :=
          Nat.le_mul_of_pos_left _ ((pow10_pos 18).trans_le scaled.full)
      _ ≤ 1797693134862315 * pow10 293 := scaled.least.trans bound
      _ < pow10 309 := by decide +kernel
  have edge : 1797693134862315 * pow10 293 * (2 * binadeSize + 1) ^ 2 ≤
      greatest * (2 * binadeSize) ^ 2 := by decide +kernel
  have below := Nat.mul_le_mul_right ((2 * binadeSize + 1) ^ 2) (scaled.least.trans bound)
  exact ofDecimal_held scaled.two_le scaled.power (Nat.le_of_lt_succ (lt_of_pow10_lt inside))
    (below.trans edge)

/-- What the dropped digits were worth is less than the significand can tell. -/
theorem most_scaled : n * pow10 18 ≤ (pow10 18 + 1) * (v * pow10 k) := by
  calc n * pow10 18 ≤ (v + 1) * pow10 k * pow10 18 := Nat.mul_le_mul_right _ scaled.most.le
    _ = (v * pow10 18 + pow10 18) * pow10 k := by ring
    _ ≤ (v * pow10 18 + v) * pow10 k :=
      Nat.mul_le_mul_right _ (Nat.add_le_add_left scaled.full _)
    _ = (pow10 18 + 1) * (v * pow10 k) := by ring

theorem beyond (bound : 1797693134862317 * pow10 293 ≤ n) : ofDecimal v k = none := by
  refine ofDecimal_beyond scaled.two_le scaled.power ?_
  have edge : (pow10 18 + 1) * (pow2 1024 * (2 * binadeSize) ^ 2) ≤
      1797693134862317 * pow10 293 * pow10 18 * (2 * binadeSize - 1) ^ 2 := by decide +kernel
  have most := scaled.most_scaled
  generalize 1797693134862317 * pow10 293 = least at bound edge
  generalize pow2 1024 * (2 * binadeSize) ^ 2 = limit at edge ⊢
  generalize (2 * binadeSize - 1) ^ 2 = size at edge ⊢
  generalize pow10 18 = room at edge most
  refine Nat.le_of_mul_le_mul_left ?_ room.succ_pos
  calc (room + 1) * limit ≤ least * room * size := edge
    _ ≤ n * room * size := Nat.mul_le_mul_right _ (Nat.mul_le_mul_right _ bound)
    _ ≤ (room + 1) * (v * pow10 k) * size := Nat.mul_le_mul_right _ most
    _ = (room + 1) * (v * pow10 k * size) := Nat.mul_assoc ..

end Scan.Scaled

/-! Integers that have no place among the integers of a document -/

namespace Scan

variable (n : Int)

theorem numberOfDigits_natAbs :
    ∃ negative, numberOfDigits n = plainNumber negative (significandOf n.natAbs) := by
  cases n with
  | ofNat n => exact ⟨false, rfl⟩
  | negSucc n => exact ⟨true, rfl⟩

variable {n}

theorem numberOfDigits_outside (outside : ¬ (Number.int n).Whole) (m : Int) :
    numberOfDigits n ≠ some (.int m) := by
  cases n with
  | ofNat n =>
    have full : significandLimit ≤ n := by
      refine Nat.le_of_not_lt fun fits => outside ?_
      simp only [significandLimit] at fits
      change _ ≤ (n : Int) ∧ (n : Int) < _
      omega
    exact plainNumber_double false (dropped_iff.mpr full) m
  | negSucc n =>
    have full : ¬ n + 1 ≤ leastMagnitude := by
      refine fun fits => outside ⟨?_, by omega⟩
      simp only [leastMagnitude] at fits
      rw [Int.negSucc_eq]
      omega
    by_cases fits : n + 1 < significandLimit
    · rw [numberOfDigits, significandOf_of_fits fits]
      simp only [plainNumber, Bool.not_true, Bool.false_eq_true, if_false, if_true]
      rw [if_neg fun within => full within.2]
      rintro ⟨⟩
    · exact plainNumber_double true (dropped_iff.mpr (Nat.le_of_not_lt fits)) m

/-- Integers that are not greater than every double are held, if only as doubles. -/
theorem numberOfDigits_held (bound : n.natAbs ≤ 1797693134862315 * Binary64.pow10 293) :
    ∃ x, numberOfDigits n = some x := by
  obtain ⟨negative, same⟩ := numberOfDigits_natAbs n
  rw [same]
  by_cases whole : (significandOf n.natAbs).dropped = 0
  · exact plainNumber_whole negative whole
  · obtain ⟨rank, held⟩ := (scaled_significandOf whole).held bound
    refine ⟨.double ⟨negative, rank⟩, ?_⟩
    rw [plainNumber, if_neg whole, held]
    rfl

theorem numberOfDigits_beyond (bound : 1797693134862317 * Binary64.pow10 293 ≤ n.natAbs) :
    numberOfDigits n = none := by
  obtain ⟨negative, same⟩ := numberOfDigits_natAbs n
  have full : significandLimit ≤ n.natAbs := by
    refine Nat.le_trans ?_ bound
    decide +kernel
  have dropped := dropped_iff.mpr full
  rw [same, plainNumber, if_neg dropped, (scaled_significandOf dropped).beyond bound]
  rfl

end Scan

namespace Spelling

open Scan

/-! Every integer has a numeral -/

theorem exists_integral (n : Nat) : ∃ i : Integral, i.bytes = word (Nat.toDigits 10 n) := by
  rcases Nat.eq_zero_or_pos n with rfl | positive
  · exact ⟨.zero, rfl⟩
  · cases digits : Nat.toDigits 10 n with
    | nil => exact absurd digits Nat.toDigits_ne_nil
    | cons c cs =>
      have all := isDigit_toDigits n
      rw [digits] at all
      obtain ⟨d, first⟩ := exists_digit (isDigit_word (all c List.mem_cons_self))
      obtain ⟨ds, later⟩ := exists_digits (word cs)
      have left := (span_digits (fun x here => all x (List.mem_cons_of_mem _ here)) .nil).2
      rw [List.append_nil] at left
      rw [left, List.append_nil] at later
      have nonzero : d ≠ 0 := by
        rintro rfl
        exact head_toDigits positive digits first.symm
      refine ⟨.digits (d.pred nonzero) ds, ?_⟩
      rw [Integral.bytes, Fin.succ_pred, first, ← later]
      rfl

/-- A numeral whose text is the decimal digits of an integer, after a minus if it is negative. -/
def Numeral.Writes (numeral : Numeral) (n : Int) : Prop := numeral.bytes = (Number.int n).write

theorem exists_writes (n : Int) : ∃ numeral : Numeral, numeral.Writes n := by
  cases n with
  | ofNat n =>
    obtain ⟨integral, written⟩ := exists_integral n
    refine ⟨{ integral }, ?_⟩
    change [] ++ (integral.bytes ++ ([] ++ [])) = word (Nat.toDigits 10 n)
    rw [List.append_nil, List.append_nil, List.nil_append, written]
  | negSucc n =>
    obtain ⟨integral, written⟩ := exists_integral (n + 1)
    refine ⟨{ negative := true, integral }, ?_⟩
    change [minus] ++ (integral.bytes ++ ([] ++ [])) = minus :: word (Nat.toDigits 10 (n + 1))
    rw [List.append_nil, List.append_nil, written]
    rfl

theorem number_ne_null {numeral : Numeral} : Spelling.number numeral ≠ .null := nofun

/-! What the numeral of an integer is read as -/

section Writes

variable {numeral : Numeral} {n : Int} (writes : numeral.Writes n)

include writes

theorem numberOf_iff {x : Number} : numberOf numeral = .ok x ↔ numberOfDigits n = some x := by
  have follows := number_follows numeral .nil
  rw [writes] at follows
  change Follows (Scan.number (writeInt n ++ [])) _ [] at follows
  rw [number_digits n .nil] at follows
  rw [← and_iff_left (a := numberOf numeral = .ok x) (rfl : ([] : Bytes) = []), ← follows.ok_iff]
  cases numberOfDigits n with
  | none => exact ⟨nofun, nofun⟩
  | some y =>
    constructor
    · rintro ⟨⟩
      rfl
    · rintro ⟨⟩
      rfl

theorem numberOf_of_whole (whole : (Number.int n).Whole) : numberOf numeral = .ok (.int n) :=
  (numberOf_iff writes).mpr (numberOfDigits_of_whole whole)

/-- What is read as an integer is the integer that was written. -/
theorem numberOf_int {m : Int} (read : numberOf numeral = .ok (.int m)) : m = n := by
  have digits := (numberOf_iff writes).mp read
  by_cases whole : (Number.int n).Whole
  · rw [numberOfDigits_of_whole whole] at digits
    cases digits
    rfl
  · exact absurd digits (numberOfDigits_outside whole m)

/-- The numeral is held, as an integer or as a double, up to the range of a double. -/
theorem numberOf_held (bound : n.natAbs ≤ 1797693134862315 * Binary64.pow10 293) :
    ∃ x, numberOf numeral = .ok x := by
  obtain ⟨x, digits⟩ := numberOfDigits_held bound
  exact ⟨x, (numberOf_iff writes).mpr digits⟩

theorem numberOf_beyond (bound : 1797693134862317 * Binary64.pow10 293 ≤ n.natAbs) (x : Number) :
    numberOf numeral ≠ .ok x := by
  intro read
  have digits := (numberOf_iff writes).mp read
  rw [numberOfDigits_beyond bound] at digits
  exact nomatch digits

end Writes

end Spelling

end AdmissionGuest
