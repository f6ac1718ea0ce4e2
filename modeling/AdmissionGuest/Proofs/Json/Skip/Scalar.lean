import AdmissionGuest.Json.Skip
import AdmissionGuest.Proofs.Json.Read
/-!
Skipping a word, a numeral or a text stops where reading it stops. That it also takes at least one
byte bounds the number of steps that skipping needs.
-/

namespace AdmissionGuest.Skip

open Ascii Scan

/-! Numerals -/

theorem rest_of_endNumber {number : Option Number} {n : Number} {rest left : Bytes}
    (done : endNumber number rest = .ok (n, left)) : left = rest := by
  cases number with
  | none => exact nomatch done
  | some m =>
    cases done
    rfl

theorem dropWhile_exponentDigits {n m : Nat} {bytes rest : Bytes}
    (read : Scan.exponentDigits n bytes = (m, rest)) :
    (m ≤ exponentLimit → rest = bytes.dropWhile isDigit) ∧
      rest.dropWhile isDigit = bytes.dropWhile isDigit := by
  induction bytes generalizing n with
  | nil =>
    cases read
    exact ⟨fun _ => rfl, rfl⟩
  | cons b bytes ih =>
    simp only [Scan.exponentDigits] at read
    by_cases digit : isDigit b = true
    · rw [if_pos digit] at read
      rw [List.dropWhile_cons_of_pos digit]
      split at read
      next large =>
        cases read
        exact ⟨fun small => absurd small (Nat.not_le.mpr large), rfl⟩
      next => exact ih read
    · rw [if_neg digit] at read
      cases read
      rw [List.dropWhile_cons_of_neg digit]
      exact ⟨fun _ => rfl, rfl⟩

variable {negative below : Bool} {significand : Nat} {scale : Int} {whole : Significand}
  {n : Number} {bytes rest : Bytes}

theorem exponentDigits_of_value
    (read : exponentValue negative significand scale below bytes = .ok (n, rest)) :
    exponentDigits bytes = .ok rest := by
  cases bytes with
  | nil => cases read
  | cons b tail =>
    simp only [exponentValue] at read
    split at read
    next digit =>
      cases digits : Scan.exponentDigits (Ascii.digit b) tail with
      | mk m left =>
        obtain ⟨short, long⟩ := dropWhile_exponentDigits digits
        simp only [digits] at read
        simp only [exponentDigits, if_pos digit]
        split at read
        next small => rw [rest_of_endNumber read, short small]
        next =>
          split at read
          next => cases read
          next =>
            cases read
            rw [long]
    next => cases read

theorem exponent_of_scan (read : Scan.exponent negative significand scale bytes = .ok (n, rest)) :
    exponent bytes = .ok rest := by
  unfold Scan.exponent at read
  split at read
  next => exact exponentDigits_of_value read
  next => exact exponentDigits_of_value read
  next noPlus noMinus =>
    rw [exponent]
    · exact exponentDigits_of_value read
    · exact noPlus
    · exact noMinus

theorem optionalExponent_of_mark {b : UInt8} {tail : Bytes} {number : Option Number}
    (read : (if isExponentMark b then Scan.exponent negative significand scale tail
      else endNumber number (b :: tail)) = .ok (n, rest)) :
    optionalExponent (b :: tail) = .ok rest := by
  simp only [optionalExponent]
  split at read
  next mark =>
    rw [if_pos mark]
    exact exponent_of_scan read
  next plain =>
    rw [if_neg plain, rest_of_endNumber read]

theorem afterWhole_of_decimals (read : decimals negative whole bytes = .ok (n, rest)) :
    afterWhole (point :: bytes) = .ok rest := by
  cases bytes with
  | nil => exact nomatch read
  | cons b tail =>
    by_cases digit : isDigit b = true
    · simp only [decimals, List.takeWhile_cons_of_pos digit, List.isEmpty_cons,
        Bool.false_eq_true, if_false] at read
      change (if isDigit b then optionalExponent ((b :: tail).dropWhile isDigit) else _) = _
      rw [if_pos digit]
      cases left : (b :: tail).dropWhile isDigit with
      | nil =>
        rw [left] at read
        rw [rest_of_endNumber read]
        rfl
      | cons c after =>
        rw [left] at read
        exact optionalExponent_of_mark read
    · simp only [decimals, List.takeWhile_cons_of_neg digit, List.dropWhile_cons_of_neg digit,
        List.isEmpty_nil, if_true] at read
      exact nomatch read

theorem afterWhole_of_scan (read : Scan.afterWhole negative whole bytes = .ok (n, rest)) :
    afterWhole bytes = .ok rest := by
  cases bytes with
  | nil =>
    rw [rest_of_endNumber read]
    rfl
  | cons b tail =>
    simp only [Scan.afterWhole] at read
    split at read
    next dot =>
      subst dot
      exact afterWhole_of_decimals read
    next other =>
      rw [afterWhole]
      · exact optionalExponent_of_mark read
      · intro more same
        exact other (List.cons.inj same).1

theorem unsignedNumber_of_scan (read : Scan.unsignedNumber negative bytes = .ok (n, rest)) :
    unsignedNumber bytes = .ok rest := by
  cases bytes with
  | nil => cases read
  | cons b tail =>
    simp only [Scan.unsignedNumber] at read
    simp only [unsignedNumber]
    by_cases leading : b = zero
    · rw [if_pos leading] at read ⊢
      cases tail with
      | nil =>
        rw [rest_of_endNumber read]
      | cons d tail =>
        dsimp only at read ⊢
        split at read
        next => cases read
        next other =>
          rw [if_neg other]
          exact afterWhole_of_scan read
    · rw [if_neg leading] at read ⊢
      split at read
      next digit =>
        rw [if_pos digit]
        exact afterWhole_of_scan read
      next => cases read


/-! Texts -/

theorem length_hexEscape {n : Nat} {bytes rest : Bytes} (read : hexEscape bytes = .ok (n, rest)) :
    bytes.length = rest.length + 4 := by
  match bytes, read with
  | a :: b :: c :: d :: tail, read =>
    simp only [hexEscape] at read
    split at read
    next =>
      cases read
      rfl
    next => cases read

theorem textUpTo_hexEscape {x : UInt8} {n : Nat} {limit bytes rest : Bytes}
    (read : hexEscape bytes = .ok (n, rest)) :
    textUpTo (x :: limit) (backslash :: letterU :: bytes) = textUpTo limit rest := by
  change (hexEscape bytes >>= fun r => textUpTo limit r.2) = _
  rw [read]
  rfl

/-- A pair of surrogates is one escape for a reader, and two for skipping. -/
theorem textUpTo_codeEscape {c : Char} {x : UInt8} {limit bytes rest : Bytes}
    (read : codeEscape bytes = .ok (c, rest)) (enough : bytes.length ≤ limit.length) :
    ∃ left, rest.length ≤ left.length ∧
      textUpTo (x :: limit) (backslash :: letterU :: bytes) = textUpTo left rest := by
  obtain ⟨⟨n, middle⟩, hex, read⟩ := ok_of_bind read
  have shorter := length_hexEscape hex
  dsimp only at read
  split at read
  next => exact nomatch read
  next =>
    split at read
    next =>
      match middle, read with
      | backslash :: letterU :: more, read =>
        obtain ⟨⟨low, last⟩, pair, read⟩ := ok_of_bind (show hexEscape more >>= _ = _ from read)
        have shortest := length_hexEscape pair
        dsimp only at read
        split at read
        next =>
          obtain ⟨_, rfl⟩ := Prod.mk.inj (Except.ok.inj read)
          cases limit with
          | nil => simp only [shorter, List.length_cons, List.length_nil] at enough; omega
          | cons y limit =>
            refine ⟨limit, ?_, ?_⟩
            · simp only [List.length_cons] at shorter enough
              omega
            · rw [textUpTo_hexEscape hex, textUpTo_hexEscape pair]
        next => exact nomatch read
    next =>
      obtain ⟨_, rfl⟩ := Prod.mk.inj (Except.ok.inj read)
      exact ⟨limit, by omega, textUpTo_hexEscape hex⟩

theorem textUpTo_escape {first : Bytes} {x : UInt8} {limit bytes rest : Bytes}
    (read : escape bytes = .ok (first, rest)) (enough : bytes.length ≤ limit.length) :
    ∃ left, rest.length ≤ left.length ∧
      textUpTo (x :: limit) (backslash :: bytes) = textUpTo left rest := by
  cases bytes with
  | nil => exact nomatch read
  | cons c after =>
    have room : after.length ≤ limit.length := Nat.le_of_succ_le enough
    simp only [escape] at read
    have single : c = quote ∨ c = backslash ∨ c = slash ∨ c = letterB ∨ c = letterF ∨
        c = letterN ∨ c = letterR ∨ c = letterT →
        textUpTo (x :: limit) (backslash :: c :: after) = textUpTo limit after := by
      intro simple
      have other : c ≠ letterU := by
        rintro rfl
        rcases simple with h | h | h | h | h | h | h | h <;> exact absurd h (by decide)
      change (if c = letterU then _ else if _ then _ else _) = _
      rw [if_neg other, if_pos simple]
    by_cases letter : c = letterU
    · subst letter
      obtain ⟨⟨d, _⟩, code, read⟩ := ok_of_bind (show codeEscape after >>= _ = _ from read)
      cases read
      exact textUpTo_codeEscape code room
    · split at read
      next simple =>
        cases read
        have known := single (by rcases simple with same | same | same <;> simp [same])
        exact ⟨limit, room, known⟩
      iterate 5
        split at read
        next simple =>
          cases read
          exact ⟨limit, room, single (by simp [simple])⟩
      exact nomatch read

theorem textUpTo_of_textBytes {bound bytes body rest : Bytes}
    (read : textBytes bound bytes = .ok (body, rest)) {limit : Bytes}
    (enough : bytes.length ≤ limit.length) : textUpTo limit bytes = .ok rest := by
  induction bound generalizing bytes body limit with
  | nil =>
    cases bytes with
    | nil => cases read
    | cons b tail => cases read
  | cons _ bound ih =>
    cases bytes with
    | nil => cases read
    | cons b tail =>
      cases limit with
      | nil => exact absurd enough (by simp)
      | cons x limit =>
        have room : tail.length ≤ limit.length := Nat.le_of_succ_le_succ enough
        simp only [textBytes] at read
        by_cases closed : b = quote
        · subst closed
          cases read
          rfl
        rw [if_neg closed] at read
        by_cases escaped : b = backslash
        · subst escaped
          obtain ⟨⟨first, after⟩, code, read⟩ := ok_of_bind (show escape tail >>= _ = _ from read)
          obtain ⟨⟨more, _⟩, later, read⟩ := ok_of_bind read
          cases read
          obtain ⟨left, enough, same⟩ := textUpTo_escape (x := x) code room
          rw [same]
          exact ih later enough
        rw [if_neg escaped] at read
        simp only [textUpTo, if_neg closed, if_neg escaped]
        split at read
        next => cases read
        next printing =>
          obtain ⟨⟨more, _⟩, later, read⟩ := ok_of_bind read
          cases read
          rw [if_neg printing]
          exact ih later room

theorem textBody_of_scan {bytes rest : Bytes} {s : String}
    (read : Scan.textBody bytes = .ok (s, rest)) : textBody bytes = .ok rest := by
  obtain ⟨⟨body, left⟩, inside, read⟩ := ok_of_bind read
  dsimp only at read
  split at read
  next =>
    cases read
    exact textUpTo_of_textBytes inside (Nat.le_refl _)
  next => exact nomatch read

/-! Lengths -/

variable {bytes rest : Bytes}

theorem length_letters {word : Bytes} (read : letters word bytes = .ok ((), rest)) :
    rest.length ≤ bytes.length := by
  induction word generalizing bytes with
  | nil =>
    cases read
    exact Nat.le_refl _
  | cons letter word ih =>
    cases bytes with
    | nil => exact nomatch read
    | cons b bytes =>
      simp only [letters] at read
      split at read
      next => exact Nat.le_succ_of_le (ih read)
      next => exact nomatch read

theorem length_dropWhile_le (bytes : Bytes) : (bytes.dropWhile isDigit).length ≤ bytes.length :=
  (List.dropWhile_sublist _).length_le

theorem length_exponentDigits (skipped : exponentDigits bytes = .ok rest) :
    rest.length < bytes.length := by
  cases bytes with
  | nil => exact nomatch skipped
  | cons b tail =>
    simp only [exponentDigits] at skipped
    split at skipped
    next =>
      cases skipped
      exact Nat.lt_succ_of_le (length_dropWhile_le tail)
    next => exact nomatch skipped

theorem length_exponent (skipped : exponent bytes = .ok rest) : rest.length < bytes.length := by
  unfold exponent at skipped
  split at skipped
  next => exact Nat.lt_succ_of_lt (length_exponentDigits skipped)
  next => exact Nat.lt_succ_of_lt (length_exponentDigits skipped)
  next => exact length_exponentDigits skipped

theorem length_optionalExponent (skipped : optionalExponent bytes = .ok rest) :
    rest.length ≤ bytes.length := by
  cases bytes with
  | nil =>
    cases skipped
    exact Nat.le_refl _
  | cons b tail =>
    simp only [optionalExponent] at skipped
    split at skipped
    next => exact Nat.le_succ_of_le (length_exponent skipped).le
    next =>
      cases skipped
      exact Nat.le_refl _

theorem length_afterWhole (skipped : afterWhole bytes = .ok rest) : rest.length ≤ bytes.length := by
  unfold afterWhole at skipped
  split at skipped
  next =>
    split at skipped
    next => exact nomatch skipped
    next =>
      split at skipped
      next =>
        exact Nat.le_succ_of_le ((length_optionalExponent skipped).trans (length_dropWhile_le _))
      next => exact nomatch skipped
  next => exact length_optionalExponent skipped

theorem length_unsignedNumber (skipped : unsignedNumber bytes = .ok rest) :
    rest.length < bytes.length := by
  cases bytes with
  | nil => exact nomatch skipped
  | cons b tail =>
    simp only [unsignedNumber] at skipped
    split at skipped
    next =>
      split at skipped
      next =>
        split at skipped
        next => exact nomatch skipped
        next => exact Nat.lt_succ_of_le (length_afterWhole skipped)
      next =>
        cases skipped
        exact Nat.one_pos
    next =>
      split at skipped
      next =>
        exact Nat.lt_succ_of_le ((length_afterWhole skipped).trans (length_dropWhile_le tail))
      next => exact nomatch skipped

theorem length_textUpTo {limit : Bytes} (skipped : textUpTo limit bytes = .ok rest) :
    rest.length < bytes.length := by
  induction limit generalizing bytes with
  | nil => cases bytes <;> exact nomatch skipped
  | cons x limit ih =>
    cases bytes with
    | nil => exact nomatch skipped
    | cons b tail =>
      simp only [textUpTo] at skipped
      split at skipped
      next =>
        cases skipped
        exact Nat.lt_succ_self _
      split at skipped
      next =>
        cases tail with
        | nil => exact nomatch skipped
        | cons c after =>
          have deeper : ∀ {left : Bytes}, left.length ≤ after.length →
              textUpTo limit left = .ok rest → rest.length < (b :: c :: after).length := by
            intro left shorter skipped
            have := ih skipped
            simp only [List.length_cons]
            omega
          dsimp only at skipped
          split at skipped
          next =>
            obtain ⟨⟨_, left⟩, hex, skipped⟩ := ok_of_bind skipped
            have shorter := length_hexEscape hex
            exact deeper (Nat.le.intro shorter.symm) skipped
          split at skipped
          next => exact deeper (Nat.le_refl _) skipped
          next => exact nomatch skipped
      split at skipped
      next => exact nomatch skipped
      next => exact Nat.lt_succ_of_lt (ih skipped)

end AdmissionGuest.Skip
