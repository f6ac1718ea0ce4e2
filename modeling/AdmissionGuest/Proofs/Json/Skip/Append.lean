import AdmissionGuest.Proofs.Json.Skip.Scalar
/-!
Skipping a word or a text does not depend on what comes after it. A numeral may go on where the
bytes end, so its end is certain only if something else follows.
-/

namespace AdmissionGuest.Skip

open Ascii Scan

variable {bytes rest more : Bytes}

theorem skipBlanks_append {b : UInt8} {tail : Bytes} (visible : skipBlanks bytes = b :: tail)
    (more : Bytes) : skipBlanks (bytes ++ more) = b :: (tail ++ more) := by
  unfold skipBlanks at visible ⊢
  rw [List.dropWhile_append, visible]
  rfl

theorem letters_append {word : List UInt8} (spelled : letters word bytes = .ok ((), rest))
    (more : Bytes) : letters word (bytes ++ more) = .ok ((), rest ++ more) := by
  induction word generalizing bytes with
  | nil =>
    cases spelled
    rfl
  | cons letter word ih =>
    cases bytes with
    | nil => cases spelled
    | cons b bytes =>
      simp only [letters] at spelled
      simp only [List.cons_append, letters]
      split at spelled
      next same =>
        rw [if_pos same]
        exact ih spelled
      next => cases spelled

/-! Texts -/

theorem hexEscape_append {n : Nat} (read : hexEscape bytes = .ok (n, rest)) (more : Bytes) :
    hexEscape (bytes ++ more) = .ok (n, rest ++ more) := by
  match bytes, read with
  | a :: b :: c :: d :: tail, read =>
    simp only [hexEscape] at read
    simp only [List.cons_append, hexEscape]
    split at read
    next known =>
      cases read
      rfl
    next => cases read

/-- More room does no harm: the text ends at its quote. -/
theorem textUpTo_append {limit limit' : Bytes} (skipped : textUpTo limit bytes = .ok rest)
    (room : limit.length ≤ limit'.length) (more : Bytes) :
    textUpTo limit' (bytes ++ more) = .ok (rest ++ more) := by
  induction limit generalizing bytes limit' with
  | nil => cases bytes <;> cases skipped
  | cons _ limit ih =>
    cases bytes with
    | nil => cases skipped
    | cons b tail =>
      cases limit' with
      | nil => exact absurd room (Nat.not_succ_le_zero _)
      | cons _ limit' =>
        have room := Nat.le_of_succ_le_succ room
        simp only [textUpTo] at skipped
        simp only [List.cons_append, textUpTo]
        split at skipped
        next closed =>
          cases skipped
          rw [if_pos closed]
        next notClosed =>
          rw [if_neg notClosed]
          split at skipped
          next escaped =>
            rw [if_pos escaped]
            cases tail with
            | nil => cases skipped
            | cons c after =>
              dsimp only at skipped
              simp only [List.cons_append]
              split at skipped
              next letter =>
                rw [if_pos letter]
                obtain ⟨⟨n, left⟩, hex, skipped⟩ := ok_of_bind skipped
                rw [hexEscape_append hex more]
                exact ih skipped room
              next notLetter =>
                rw [if_neg notLetter]
                split at skipped
                next known =>
                  rw [if_pos known]
                  exact ih skipped room
                next => cases skipped
          next notEscaped =>
            rw [if_neg notEscaped]
            split at skipped
            next => cases skipped
            next printing =>
              rw [if_neg printing]
              exact ih skipped room

theorem textBody_append (skipped : textBody bytes = .ok rest) (more : Bytes) :
    textBody (bytes ++ more) = .ok (rest ++ more) :=
  textUpTo_append skipped (by rw [List.length_append]; omega) more

/-! Numerals -/

section Numerals

variable (more)

theorem dropWhile_digits_append {bytes : Bytes} (ends : bytes.dropWhile isDigit ≠ []) :
    (bytes ++ more).dropWhile isDigit = bytes.dropWhile isDigit ++ more := by
  rw [List.dropWhile_append, if_neg (by rwa [List.isEmpty_iff])]

theorem exponentDigits_append (skipped : exponentDigits bytes = .ok rest) (ends : rest ≠ []) :
    exponentDigits (bytes ++ more) = .ok (rest ++ more) := by
  cases bytes with
  | nil => cases skipped
  | cons b tail =>
    simp only [exponentDigits] at skipped
    simp only [List.cons_append, exponentDigits]
    split at skipped
    next digit =>
      cases skipped
      rw [if_pos digit, dropWhile_digits_append more ends]
    next => cases skipped

theorem exponent_append (skipped : exponent bytes = .ok rest) (ends : rest ≠ []) :
    exponent (bytes ++ more) = .ok (rest ++ more) := by
  unfold exponent at skipped
  split at skipped
  next => exact exponentDigits_append more skipped ends
  next => exact exponentDigits_append more skipped ends
  next noPlus noMinus =>
    cases bytes with
    | nil => exact nomatch skipped
    | cons b tail =>
      rw [List.cons_append, exponent]
      · exact exponentDigits_append more skipped ends
      · intro left same
        exact noPlus _ (congrArg (· :: tail) (List.cons.inj same).1)
      · intro left same
        exact noMinus _ (congrArg (· :: tail) (List.cons.inj same).1)

theorem optionalExponent_append (skipped : optionalExponent bytes = .ok rest) (ends : rest ≠ []) :
    optionalExponent (bytes ++ more) = .ok (rest ++ more) := by
  cases bytes with
  | nil =>
    cases skipped
    exact absurd rfl ends
  | cons b tail =>
    simp only [optionalExponent] at skipped
    simp only [List.cons_append, optionalExponent]
    split at skipped
    next mark =>
      rw [if_pos mark]
      exact exponent_append more skipped ends
    next plain =>
      cases skipped
      rw [if_neg plain]
      rfl

theorem afterWhole_append (skipped : afterWhole bytes = .ok rest) (ends : rest ≠ []) :
    afterWhole (bytes ++ more) = .ok (rest ++ more) := by
  unfold afterWhole at skipped
  split at skipped
  next tail =>
    cases tail with
    | nil => exact nomatch skipped
    | cons b tail =>
      change (if isDigit b then optionalExponent ((b :: tail).dropWhile isDigit) else _) = _ at skipped
      change (if isDigit b then optionalExponent ((b :: tail ++ more).dropWhile isDigit) else _) = _
      split at skipped
      next digit =>
        have ends' : (b :: tail).dropWhile isDigit ≠ [] := by
          intro none
          rw [none] at skipped
          cases skipped
          exact ends rfl
        rw [if_pos digit, dropWhile_digits_append more ends']
        exact optionalExponent_append more skipped ends
      next => exact nomatch skipped
  next other =>
    cases bytes with
    | nil =>
      cases skipped
      exact absurd rfl ends
    | cons b tail =>
      rw [List.cons_append, afterWhole]
      · exact optionalExponent_append more skipped ends
      · intro left same
        exact other _ (congrArg (· :: tail) (List.cons.inj same).1)

/-- A numeral ends where something else follows. -/
theorem unsignedNumber_append (skipped : unsignedNumber bytes = .ok rest) (ends : rest ≠ []) :
    unsignedNumber (bytes ++ more) = .ok (rest ++ more) := by
  cases bytes with
  | nil => cases skipped
  | cons b tail =>
    simp only [unsignedNumber] at skipped
    simp only [List.cons_append, unsignedNumber]
    split at skipped
    next leading =>
      rw [if_pos leading]
      cases tail with
      | nil =>
        cases skipped
        exact absurd rfl ends
      | cons d tail =>
        dsimp only at skipped
        simp only [List.cons_append]
        split at skipped
        next => cases skipped
        next other =>
          rw [if_neg other]
          exact afterWhole_append more skipped ends
    next notLeading =>
      rw [if_neg notLeading]
      split at skipped
      next digit =>
        have ends' : tail.dropWhile isDigit ≠ [] := by
          intro none
          rw [none] at skipped
          cases skipped
          exact ends rfl
        rw [if_pos digit, dropWhile_digits_append more ends']
        exact afterWhole_append more skipped ends
      next => cases skipped

end Numerals

end AdmissionGuest.Skip
