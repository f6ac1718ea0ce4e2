import AdmissionGuest.Json.Scan
import AdmissionGuest.Json.Write
/-!
An integer is read back from its decimal digits, provided it is one that a document can hold and no
character follows that would go on with the numeral. Of any other integer the digits are read as
well, as far as a significand holds them.
-/

namespace AdmissionGuest

open Ascii Binary64

/-- An integer between the limits of what is read as an integer. -/
def Number.Whole : Number → Prop
  | .int n => -0x8000000000000000 ≤ n ∧ n < 0x10000000000000000
  | .double _ => False

namespace Scan

/-- Nothing that follows goes on with a numeral. -/
def Stops (rest : Bytes) : Prop :=
  ∀ b ∈ rest.head?, isDigit b = false ∧ b ≠ point ∧ isExponentMark b = false

theorem Stops.nil : Stops [] := by
  intro b mem
  contradiction

theorem Stops.cons {b : UInt8} {rest : Bytes} (digit : isDigit b = false) (dot : b ≠ point)
    (mark : isExponentMark b = false) : Stops (b :: rest) := by
  intro c mem
  obtain rfl := Option.mem_some_iff.mp mem
  exact ⟨digit, dot, mark⟩

theorem toNat_of_isDigit {c : Char} (h : c.isDigit) : 48 ≤ c.toNat ∧ c.toNat ≤ 57 := by
  simp only [Char.isDigit, Bool.and_eq_true, decide_eq_true_eq, UInt32.le_iff_toNat_le] at h
  exact h

theorem toNat_word {c : Char} (h : c.isDigit) : (UInt8.ofNat c.toNat).toNat = c.toNat := by
  have bounds := toNat_of_isDigit h
  simp only [UInt8.toNat_ofNat']
  omega

theorem isDigit_word {c : Char} (h : c.isDigit) : isDigit (UInt8.ofNat c.toNat) = true := by
  have bounds := toNat_of_isDigit h
  simp only [isDigit, Bool.and_eq_true, decide_eq_true_eq, UInt8.le_iff_toNat_le, toNat_word h]
  exact bounds

theorem digit_word {c : Char} (h : c.isDigit) : digit (UInt8.ofNat c.toNat) = c.toNat - 48 := by
  rw [digit, toNat_word h]
  rfl

theorem span_digits {ds : List Char} {rest : Bytes} (digits : ∀ d ∈ ds, d.isDigit)
    (stops : Stops rest) :
    (word ds ++ rest).takeWhile isDigit = word ds ∧ (word ds ++ rest).dropWhile isDigit = rest := by
  have all : ∀ b ∈ word ds, isDigit b = true := by
    intro b mem
    obtain ⟨d, hd, rfl⟩ := List.mem_map.mp mem
    exact isDigit_word (digits d hd)
  rw [List.takeWhile_append_of_pos all, List.dropWhile_append_of_pos all]
  cases rest with
  | nil => simp
  | cons b rest =>
    have stop := (stops b rfl).1
    simp [stop]

/-- What a significand holds of a number whose digits were appended to it one after the other: the
number up to the digits that were dropped, and as many digits as there is room for. -/
structure Holds (s : Significand) (n : Nat) : Prop where
  least : s.value * pow10 s.dropped ≤ n
  most : n < (s.value + 1) * pow10 s.dropped
  below : s.value < significandLimit
  full : s.dropped ≠ 0 → significandLimit ≤ n ∧ significandLimit ≤ s.value * 10 + 9

theorem Holds.zero : Holds ⟨0, 0⟩ 0 where
  least := Nat.le_refl _
  most := Nat.one_pos
  below := by decide
  full := nofun

theorem Holds.push {s : Significand} {n : Nat} {b : UInt8} (holds : Holds s n)
    (small : digit b ≤ 9) : Holds (s.push b) (10 * n + digit b) := by
  obtain ⟨least, most, below, full⟩ := holds
  rw [Significand.push]
  split
  next room =>
    obtain ⟨none, fits⟩ := room
    rw [none, pow10_zero] at least most
    refine ⟨?_, ?_, fits, nofun⟩
    · dsimp only
      rw [pow10_zero]
      omega
    · dsimp only
      rw [pow10_zero]
      omega
  next noRoom =>
    refine ⟨?_, ?_, below, fun _ => ?_⟩
    · rw [pow10_succ, Nat.mul_left_comm]
      dsimp only
      omega
    · rw [pow10_succ, Nat.mul_left_comm]
      dsimp only
      omega
    · by_cases none : s.dropped = 0
      · rw [none, pow10_zero] at least most
        have full : ¬ s.value * 10 + digit b < significandLimit := fun fits => noRoom ⟨none, fits⟩
        dsimp only
        omega
      · have before := full none
        dsimp only
        omega

theorem holds_foldl {ds : List Char} (digits : ∀ d ∈ ds, d.isDigit) {s : Significand} {n : Nat}
    (holds : Holds s n) :
    Holds ((word ds).foldl Significand.push s) (Nat.ofDigitChars 10 ds n) := by
  induction ds generalizing s n with
  | nil => simpa [word] using holds
  | cons d ds ih =>
    have first := digits d List.mem_cons_self
    have bounds := toNat_of_isDigit first
    have small : digit (UInt8.ofNat d.toNat) ≤ 9 := by
      rw [digit_word first]
      omega
    have pushed := holds.push small
    rw [digit_word first] at pushed
    rw [Nat.ofDigitChars_cons]
    exact ih (fun x hx => digits x (List.mem_cons_of_mem _ hx)) pushed

/-- What a significand holds of a number. -/
def significandOf (n : Nat) : Significand :=
  (word (Nat.toDigits 10 n)).foldl Significand.push ⟨0, 0⟩

theorem isDigit_toDigits (n : Nat) : ∀ d ∈ Nat.toDigits 10 n, d.isDigit :=
  fun _ mem => Nat.isDigit_of_mem_toDigits (by decide) (by decide) mem

theorem holds_significandOf (n : Nat) : Holds (significandOf n) n := by
  have holds := holds_foldl (isDigit_toDigits n) Holds.zero
  rwa [Nat.ofDigitChars_ten_toDigits] at holds

/-- No digit is dropped as long as the number fits. -/
theorem significandOf_of_fits {n : Nat} (fits : n < significandLimit) :
    significandOf n = ⟨n, 0⟩ := by
  obtain ⟨least, most, _, full⟩ := holds_significandOf n
  have none : (significandOf n).dropped = 0 :=
    Decidable.byContradiction fun some => Nat.not_lt.mpr (full some).1 fits
  cases found : significandOf n with
  | mk value dropped =>
    rw [found] at least most none
    dsimp only at none
    subst none
    rw [pow10_zero, Nat.mul_one] at least most
    have same : value = n := Nat.le_antisymm least (Nat.le_of_lt_succ most)
    rw [same]

/-- The digits of a positive number do not begin with zero. -/
theorem head_toDigits {n : Nat} (positive : 0 < n) {d : Char} {ds : List Char}
    (digits : Nat.toDigits 10 n = d :: ds) : UInt8.ofNat d.toNat ≠ zero := by
  induction n using Nat.strongRecOn generalizing d ds with
  | _ n ih =>
    by_cases small : n < 10
    · rw [Nat.toDigits_of_lt_base small] at digits
      obtain ⟨rfl, _⟩ := List.cons.inj digits
      have least : ∀ m < 10, 0 < m → UInt8.ofNat m.digitChar.toNat ≠ zero := by decide
      exact least n small positive
    · rw [Nat.toDigits_of_base_le (by decide) (by omega)] at digits
      cases front : Nat.toDigits 10 (n / 10) with
      | nil => exact absurd front Nat.toDigits_ne_nil
      | cons e es =>
        rw [front] at digits
        obtain ⟨rfl, _⟩ := List.cons.inj digits
        exact ih (n / 10) (by omega) (by omega) front

theorem afterWhole_stops (negative : Bool) (whole : Significand) {rest : Bytes}
    (stops : Stops rest) :
    afterWhole negative whole rest = endNumber (plainNumber negative whole) rest := by
  cases rest with
  | nil => rfl
  | cons b rest =>
    obtain ⟨_, dot, mark⟩ := stops b rfl
    simp only [afterWhole, if_neg dot, mark]
    rfl

/-- A numeral without a sign is read as the significand that holds its digits. -/
theorem unsignedNumber_toDigits (negative : Bool) (n : Nat) {rest : Bytes} (stops : Stops rest) :
    unsignedNumber negative (word (Nat.toDigits 10 n) ++ rest) =
      endNumber (plainNumber negative (significandOf n)) rest := by
  rcases Nat.eq_zero_or_pos n with rfl | positive
  · have after := afterWhole_stops negative ⟨0, 0⟩ stops
    cases rest with
    | nil => exact after
    | cons b rest =>
      have stop := (stops b rfl).1
      change (if isDigit b then _ else _) = _
      rw [stop]
      exact after
  · have whole : significandOf n = (word (Nat.toDigits 10 n)).foldl Significand.push ⟨0, 0⟩ := rfl
    cases digits : Nat.toDigits 10 n with
    | nil => exact absurd digits Nat.toDigits_ne_nil
    | cons d ds =>
      have all := isDigit_toDigits n
      rw [digits] at all whole
      obtain ⟨taken, left⟩ := span_digits (fun x hx => all x (List.mem_cons_of_mem d hx)) stops
      change (if UInt8.ofNat d.toNat = zero then _ else
        if isDigit (UInt8.ofNat d.toNat) then
          afterWhole negative
            ((UInt8.ofNat d.toNat :: (word ds ++ rest).takeWhile isDigit).foldl
              Significand.push ⟨0, 0⟩)
            ((word ds ++ rest).dropWhile isDigit)
        else _) = _
      rw [if_neg (head_toDigits positive digits), isDigit_word (all d List.mem_cons_self),
        if_pos rfl, taken, left,
        show UInt8.ofNat d.toNat :: word ds = word (d :: ds) from rfl, ← whole,
        afterWhole_stops negative _ stops]

/-- The digits of a natural number begin with a digit. -/
theorem word_toDigits (n : Nat) :
    ∃ b bs, word (Nat.toDigits 10 n) = b :: bs ∧ isDigit b = true := by
  cases digits : Nat.toDigits 10 n with
  | nil => exact absurd digits Nat.toDigits_ne_nil
  | cons d ds =>
    have first := isDigit_toDigits n d (by rw [digits]; exact List.mem_cons_self)
    exact ⟨_, _, rfl, isDigit_word first⟩

/-- The first byte of a numeral. -/
def Leads (b : UInt8) : Prop := b = minus ∨ isDigit b = true

theorem Leads.visible {b : UInt8} (leads : Leads b) : isBlank b = false ∧ b ≠ closeList := by
  rcases leads with rfl | digit
  · exact ⟨rfl, by decide⟩
  · simp only [isBlank, Bool.or_eq_false_iff, beq_eq_false_iff_ne]
    refine ⟨⟨⟨⟨?_, ?_⟩, ?_⟩, ?_⟩, ?_⟩ <;> (rintro rfl; exact absurd digit (by decide))

theorem Leads.notWord {b : UInt8} (leads : Leads b) : b ≠ letterN ∧ b ≠ letterT ∧ b ≠ letterF := by
  rcases leads with rfl | digit
  · decide
  · refine ⟨?_, ?_, ?_⟩ <;> (rintro rfl; exact absurd digit (by decide))

theorem leads_write {n : Number} (whole : n.Whole) : ∃ b bs, n.write = b :: bs ∧ Leads b := by
  match n, whole with
  | .int (.ofNat n), _ =>
    obtain ⟨b, bs, digits, digit⟩ := word_toDigits n
    exact ⟨b, bs, digits, .inr digit⟩
  | .int (.negSucc n), _ => exact ⟨minus, _, rfl, .inl rfl⟩

/-- The number that the decimal digits of an integer stand for. -/
def numberOfDigits : Int → Option Number
  | .ofNat n => plainNumber false (significandOf n)
  | .negSucc n => plainNumber true (significandOf (n + 1))

/-- The digits of an integer are read as one number, wherever they end. -/
theorem number_digits (n : Int) {rest : Bytes} (stops : Stops rest) :
    Scan.number (writeInt n ++ rest) = endNumber (numberOfDigits n) rest := by
  cases n with
  | ofNat n =>
    have read := unsignedNumber_toDigits false n stops
    obtain ⟨b, bs, digits, digit⟩ := word_toDigits n
    have unsigned : b ≠ minus := by
      rintro rfl
      exact absurd digit (by decide)
    change Scan.number (word (Nat.toDigits 10 n) ++ rest) = _
    rw [digits, List.cons_append] at read ⊢
    rw [Scan.number]
    · exact read
    · intro more same
      exact unsigned (List.cons.inj same).1
  | negSucc n => exact unsignedNumber_toDigits true (n + 1) stops

theorem numberOfDigits_of_whole {n : Int} (whole : (Number.int n).Whole) :
    numberOfDigits n = some (.int n) := by
  obtain ⟨above, below⟩ := whole
  cases n with
  | ofNat n =>
    have fits : n < significandLimit := by
      change (n : Int) < _ at below
      simp only [significandLimit]
      omega
    rw [numberOfDigits, significandOf_of_fits fits]
    rfl
  | negSucc n =>
    have least : n + 1 ≤ leastMagnitude := by
      rw [Int.negSucc_eq] at above
      simp only [leastMagnitude]
      omega
    have fits : n + 1 < significandLimit := by
      simp only [leastMagnitude] at least
      simp only [significandLimit]
      omega
    rw [numberOfDigits, significandOf_of_fits fits]
    simp only [plainNumber, Bool.not_true, Bool.false_eq_true, if_false, if_true,
      if_pos (show 0 < n + 1 ∧ n + 1 ≤ leastMagnitude from ⟨Nat.succ_pos n, least⟩)]
    rfl

/-- Every integer that a document can hold is read back from its numeral. -/
theorem number_write {n : Number} {rest : Bytes} (whole : n.Whole) (stops : Stops rest) :
    Scan.number (n.write ++ rest) = .ok (n, rest) := by
  match n, whole with
  | .int n, whole =>
    change Scan.number (writeInt n ++ rest) = _
    rw [number_digits n stops, numberOfDigits_of_whole whole]
    rfl

end Scan

end AdmissionGuest
