import AdmissionGuest.Proofs.Json.Spelling.Basic
import AdmissionGuest.Proofs.Shape.Reading.Parts
/-!
Every spelled numeral is skipped to its end, and what it is read as does not depend on what follows
it. Some numerals are out of range; they are skipped all the same.
-/

namespace AdmissionGuest

open Ascii Scan

namespace Spelling

/-- What follows does not go on with digits. -/
def NoDigit (rest : Bytes) : Prop := ∀ b ∈ rest.head?, isDigit b = false

variable {rest : Bytes}

theorem noDigit_of_stops (stops : Stops rest) : NoDigit rest :=
  fun b here => (stops b here).1

theorem NoDigit.cons {b : UInt8} (other : isDigit b = false) : NoDigit (b :: rest) := by
  intro c here
  rwa [← Option.mem_some_iff.mp here]

theorem isDigit_digit (d : Fin 10) : isDigit (digit d) = true := by
  revert d
  decide

theorem digit_succ_ne_zero (d : Fin 9) : digit d.succ ≠ zero := by
  revert d
  decide

theorem all_digits (ds : List (Fin 10)) : ∀ b ∈ ds.map digit, isDigit b = true := by
  intro b here
  obtain ⟨d, _, rfl⟩ := List.mem_map.mp here
  exact isDigit_digit d

theorem dropWhile_noDigit (none : NoDigit rest) : rest.dropWhile isDigit = rest := by
  cases rest with
  | nil => rfl
  | cons b rest => exact List.dropWhile_cons_of_neg (by simp [none b rfl])

theorem takeWhile_noDigit (none : NoDigit rest) : rest.takeWhile isDigit = [] := by
  cases rest with
  | nil => rfl
  | cons b rest => exact List.takeWhile_cons_of_neg (by simp [none b rfl])

theorem dropWhile_digits (ds : List (Fin 10)) (none : NoDigit rest) :
    (ds.map digit ++ rest).dropWhile isDigit = rest := by
  rw [List.dropWhile_append_of_pos (all_digits ds), dropWhile_noDigit none]

theorem takeWhile_digits (ds : List (Fin 10)) (none : NoDigit rest) :
    (ds.map digit ++ rest).takeWhile isDigit = ds.map digit := by
  rw [List.takeWhile_append_of_pos (all_digits ds), takeWhile_noDigit none, List.append_nil]

theorem Exponent.isExponentMark_mark (e : Exponent) : isExponentMark e.mark = true := by
  unfold mark
  split <;> rfl

theorem Exponent.mark_ne_point (e : Exponent) : e.mark ≠ point := by
  unfold mark
  split <;> decide

theorem noDigit_scale (n : Numeral) (stops : Stops rest) : NoDigit (n.scale ++ rest) := by
  unfold Numeral.scale
  cases n.exponent with
  | none => exact noDigit_of_stops stops
  | some e =>
    apply NoDigit.cons
    unfold Exponent.mark
    split <;> rfl

theorem noDigit_fraction (n : Numeral) (stops : Stops rest) : NoDigit (n.fraction ++ rest) := by
  unfold Numeral.fraction
  cases n.decimals with
  | none => exact noDigit_scale n stops
  | some ds => exact .cons rfl

/-! Skipping -/

theorem skip_exponentDigits (ds : Digits) (stops : Stops rest) :
    Skip.exponentDigits (ds.bytes ++ rest) = .ok rest := by
  change (if isDigit (digit ds.first) then
    Except.ok ((ds.more.map digit ++ rest).dropWhile isDigit) else _) = _
  rw [if_pos (isDigit_digit _), dropWhile_digits _ (noDigit_of_stops stops)]

theorem skip_exponent (e : Exponent) (stops : Stops rest) :
    Skip.exponent (e.tail ++ rest) = .ok rest := by
  obtain ⟨capital, sign, digits⟩ := e
  have skipped := skip_exponentDigits digits stops
  have first := isDigit_digit digits.first
  cases sign with
  | some sign => cases sign <;> exact skipped
  | none =>
    change Skip.exponent (digits.bytes ++ rest) = _
    rw [Skip.exponent]
    · exact skipped
    · rintro tail same
      rw [(List.cons.inj same).1] at first
      exact absurd first (by decide)
    · rintro tail same
      rw [(List.cons.inj same).1] at first
      exact absurd first (by decide)

theorem skip_scale (n : Numeral) (stops : Stops rest) :
    Skip.optionalExponent (n.scale ++ rest) = .ok rest := by
  unfold Numeral.scale
  cases n.exponent with
  | some e =>
    change (if isExponentMark e.mark then Skip.exponent (e.tail ++ rest) else _) = _
    rw [if_pos e.isExponentMark_mark, skip_exponent e stops]
  | none =>
    cases rest with
    | nil => rfl
    | cons b rest =>
      have plain := (stops b rfl).2.2
      change (if isExponentMark b then _ else Except.ok (b :: rest)) = _
      rw [plain]
      rfl

theorem skip_fraction (n : Numeral) (stops : Stops rest) :
    Skip.afterWhole (n.fraction ++ rest) = .ok rest := by
  have scale := skip_scale n stops
  unfold Numeral.fraction
  cases n.decimals with
  | some ds =>
    rw [List.append_assoc]
    change (if isDigit (digit ds.first) then
      Skip.optionalExponent
        ((digit ds.first :: (ds.more.map digit ++ (n.scale ++ rest))).dropWhile isDigit)
      else _) = _
    rw [if_pos (isDigit_digit _), List.dropWhile_cons_of_pos (isDigit_digit _),
      dropWhile_digits _ (noDigit_scale n stops), scale]
  | none =>
    change Skip.afterWhole (n.scale ++ rest) = _
    rw [Skip.afterWhole]
    · exact scale
    · intro tail same
      revert same
      unfold Numeral.scale
      cases n.exponent with
      | some e => exact fun same => e.mark_ne_point (List.cons.inj same).1
      | none =>
        rintro rfl
        exact (stops point rfl).2.1 rfl

theorem skip_unsigned (n : Numeral) (stops : Stops rest) :
    Skip.unsignedNumber (n.unsigned ++ rest) = .ok rest := by
  have fraction := skip_fraction n stops
  have none := noDigit_fraction n stops
  rw [Numeral.unsigned, List.append_assoc]
  generalize n.fraction ++ rest = more at fraction none
  cases n.integral with
  | zero =>
    cases more with
    | nil =>
      cases fraction
      rfl
    | cons b more =>
      change (if isDigit b then _ else Skip.afterWhole (b :: more)) = _
      rw [none b rfl]
      exact fraction
  | digits first ds =>
    change (if digit first.succ = zero then _ else if isDigit (digit first.succ) then
      Skip.afterWhole ((ds.map digit ++ more).dropWhile isDigit) else _) = _
    rw [if_neg (digit_succ_ne_zero first), if_pos (isDigit_digit _), dropWhile_digits ds none,
      fraction]

/-! Reading -/

/-- What is read does not depend on what follows. -/
def ReadsAlike {α : Type} (reader : Reader α) (bytes : Bytes) : Prop :=
  ∃ result : Except Cause α, ∀ rest, Stops rest → Follows (reader (bytes ++ rest)) result rest

theorem endNumber_follows (number : Option Number) (rest : Bytes) :
    Follows (endNumber number rest) (number.elim (.error .numberOutOfRange) .ok) rest := by
  cases number with
  | none => exact .failed
  | some n => exact .done

variable (negative below : Bool) (significand : Nat) (scale : Int) (whole : Significand)

/-- Where the digits of an exponent are given up does not depend on what follows them. -/
theorem exponentDigits_fst (ds : List (Fin 10)) (n : Nat) (none : NoDigit rest) :
    (exponentDigits n (ds.map digit ++ rest)).1 = (exponentDigits n (ds.map digit)).1 := by
  induction ds generalizing n with
  | nil =>
    cases rest with
    | nil => rfl
    | cons b rest => simp [exponentDigits, none b rfl]
  | cons d ds ih =>
    simp only [List.map_cons, List.cons_append, exponentDigits, isDigit_digit, if_true]
    split
    · rfl
    · exact ih _

theorem exponentValue_alike (ds : Digits) :
    ReadsAlike (exponentValue negative significand scale below) ds.bytes := by
  let value := (exponentDigits (Ascii.digit (digit ds.first)) (ds.more.map digit)).1
  refine ⟨if value ≤ exponentLimit then
      (scaledNumber negative significand
        (scale + if below then -(value : Int) else value)).elim (.error .numberOutOfRange) .ok
    else if significand ≠ 0 ∧ !below then .error .numberOutOfRange
    else .ok (.double ⟨negative, 0⟩), ?_⟩
  intro rest stops
  have none := noDigit_of_stops stops
  have same := exponentDigits_fst ds.more (Ascii.digit (digit ds.first)) none
  cases read : exponentDigits (Ascii.digit (digit ds.first)) (ds.more.map digit ++ rest) with
  | mk m left =>
    rw [read] at same
    obtain ⟨short, long⟩ := Skip.dropWhile_exponentDigits read
    rw [dropWhile_digits _ none] at short long
    simp only [Digits.bytes, List.cons_append, exponentValue, isDigit_digit, if_true, read]
    rw [show m = value from same] at short ⊢
    split
    next small =>
      rw [short small]
      exact endNumber_follows _ rest
    next =>
      split
      next => exact .failed
      next =>
        rw [long]
        exact .done

theorem exponent_alike (e : Exponent) :
    ReadsAlike (exponent negative significand scale) e.tail := by
  obtain ⟨capital, sign, digits⟩ := e
  cases sign with
  | some sign => cases sign <;> exact exponentValue_alike _ _ _ _ digits
  | none =>
    obtain ⟨result, reads⟩ := exponentValue_alike negative false significand scale digits
    refine ⟨result, ?_⟩
    intro rest stops
    have first := isDigit_digit digits.first
    change Follows (exponent negative significand scale (digits.bytes ++ rest)) result rest
    rw [exponent]
    · exact reads rest stops
    · rintro tail same
      rw [(List.cons.inj same).1] at first
      exact absurd first (by decide)
    · rintro tail same
      rw [(List.cons.inj same).1] at first
      exact absurd first (by decide)

theorem decimals_alike (ds : Digits) (n : Numeral) :
    ReadsAlike (decimals negative whole) (ds.bytes ++ n.scale) := by
  let s := (ds.bytes.foldl Significand.push ⟨whole.value, 0⟩)
  let scale : Int := whole.dropped - (ds.bytes.length - s.dropped : Nat)
  have digits : ds.bytes = (ds.first :: ds.more).map digit := rfl
  have run (rest : Bytes) (stops : Stops rest) :
      decimals negative whole (ds.bytes ++ n.scale ++ rest) =
        match n.scale ++ rest with
        | b :: after =>
          if isExponentMark b then exponent negative s.value scale after
          else endNumber (scaledNumber negative s.value scale) (b :: after)
        | [] => endNumber (scaledNumber negative s.value scale) [] := by
    have none := noDigit_scale n stops
    rw [List.append_assoc, decimals, digits, takeWhile_digits _ none, dropWhile_digits _ none]
    generalize n.scale ++ rest = more
    cases more <;> rfl
  cases given : n.exponent with
  | some e =>
    have written : n.scale = e.mark :: e.tail := by
      rw [Numeral.scale, given]
      rfl
    obtain ⟨result, reads⟩ := exponent_alike negative s.value scale e
    refine ⟨result, ?_⟩
    intro rest stops
    rw [run rest stops, written, List.cons_append]
    dsimp only
    rw [if_pos e.isExponentMark_mark]
    exact reads rest stops
  | none =>
    have written : n.scale = [] := by
      rw [Numeral.scale, given]
      rfl
    refine ⟨(scaledNumber negative s.value scale).elim (.error .numberOutOfRange) .ok, ?_⟩
    intro rest stops
    rw [run rest stops, written, List.nil_append]
    cases rest with
    | nil => exact endNumber_follows _ []
    | cons b rest =>
      dsimp only
      rw [if_neg (by simp [(stops b rfl).2.2])]
      exact endNumber_follows _ _

theorem afterWhole_alike (n : Numeral) : ReadsAlike (afterWhole negative whole) n.fraction := by
  cases decimals : n.decimals with
  | some ds =>
    obtain ⟨result, reads⟩ := decimals_alike negative whole ds n
    refine ⟨result, ?_⟩
    intro rest stops
    rw [Numeral.fraction, decimals]
    exact reads rest stops
  | none =>
    have written : n.fraction = n.scale := by
      rw [Numeral.fraction, decimals]
      rfl
    rw [written]
    cases given : n.exponent with
    | some e =>
      obtain ⟨result, reads⟩ := exponent_alike negative whole.value whole.dropped e
      refine ⟨result, ?_⟩
      intro rest stops
      rw [Numeral.scale, given]
      change Follows (if e.mark = point then _ else if isExponentMark e.mark then
        exponent negative whole.value whole.dropped (e.tail ++ rest) else _) result rest
      rw [if_neg e.mark_ne_point, if_pos e.isExponentMark_mark]
      exact reads rest stops
    | none =>
      refine ⟨(plainNumber negative whole).elim (.error .numberOutOfRange) .ok, ?_⟩
      intro rest stops
      rw [Numeral.scale, given]
      change Follows (afterWhole negative whole rest) _ rest
      rw [afterWhole_stops negative whole stops]
      exact endNumber_follows _ rest

theorem unsignedNumber_alike (n : Numeral) : ReadsAlike (unsignedNumber negative) n.unsigned := by
  rw [Numeral.unsigned]
  cases n.integral with
  | zero =>
    obtain ⟨result, reads⟩ := afterWhole_alike negative ⟨0, 0⟩ n
    refine ⟨result, ?_⟩
    intro rest stops
    have after := reads rest stops
    have none := noDigit_fraction n stops
    rw [List.append_assoc]
    generalize n.fraction ++ rest = more at after none
    cases more with
    | nil => exact after
    | cons b more =>
      change Follows (if isDigit b then _ else afterWhole negative ⟨0, 0⟩ (b :: more)) _ _
      rw [if_neg (by simp [none b rfl])]
      exact after
  | digits first ds =>
    let whole := (digit first.succ :: ds.map digit).foldl Significand.push ⟨0, 0⟩
    obtain ⟨result, reads⟩ := afterWhole_alike negative whole n
    refine ⟨result, ?_⟩
    intro rest stops
    have after := reads rest stops
    have none := noDigit_fraction n stops
    rw [List.append_assoc]
    generalize n.fraction ++ rest = more at after none
    change Follows (if digit first.succ = zero then _ else if isDigit (digit first.succ) then
      afterWhole negative
        ((digit first.succ :: (ds.map digit ++ more).takeWhile isDigit).foldl
          Significand.push ⟨0, 0⟩)
        ((ds.map digit ++ more).dropWhile isDigit) else _) _ _
    rw [if_neg (digit_succ_ne_zero first), if_pos (isDigit_digit _), takeWhile_digits ds none,
      dropWhile_digits ds none]
    exact after

/-- A numeral begins with its sign or with a digit. -/
theorem Numeral.leads (n : Numeral) : ∃ b tail, n.bytes = b :: tail ∧ Leads b := by
  obtain ⟨negative, integral, decimals, exponent⟩ := n
  cases negative with
  | true => exact ⟨_, _, rfl, .inl rfl⟩
  | false =>
    cases integral with
    | zero => exact ⟨_, _, rfl, .inr rfl⟩
    | digits first more => exact ⟨_, _, rfl, .inr (isDigit_digit _)⟩

theorem number_alike (n : Numeral) : ReadsAlike Scan.number n.bytes := by
  obtain ⟨negative, integral, decimals, exponent⟩ := n
  cases negative with
  | true => exact unsignedNumber_alike true ⟨true, integral, decimals, exponent⟩
  | false =>
    let n : Numeral := ⟨false, integral, decimals, exponent⟩
    obtain ⟨result, reads⟩ := unsignedNumber_alike false n
    refine ⟨result, ?_⟩
    intro rest stops
    have first : ∃ b tail, n.unsigned = b :: tail ∧ isDigit b = true := by
      cases integral with
      | zero => exact ⟨_, _, rfl, rfl⟩
      | digits first more => exact ⟨_, _, rfl, isDigit_digit _⟩
    obtain ⟨b, tail, written, digit⟩ := first
    change Follows (Scan.number (n.unsigned ++ rest)) result rest
    rw [Scan.number]
    · exact reads rest stops
    · intro more same
      rw [written] at same
      rw [(List.cons.inj same).1] at digit
      exact absurd digit (by decide)

end Spelling

end AdmissionGuest
