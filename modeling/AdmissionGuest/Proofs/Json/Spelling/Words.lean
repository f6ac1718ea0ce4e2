import AdmissionGuest.Proofs.Json.Spelling.Text
/-!
What is skipped is spelled: blanks, numerals and texts. Skipping does not look into the characters of
a text, so it must be known that the bytes are those of characters.
-/

namespace AdmissionGuest

open Ascii Scan Utf8

namespace Spelling

variable {bytes rest : Bytes} {b : UInt8}

/-! Words -/

theorem exists_blank (blank : isBlank b = true) : ∃ k : Blank, k.byte = b := by
  simp only [isBlank, Bool.or_eq_true, beq_iff_eq] at blank
  rcases blank with ((rfl | rfl) | rfl) | rfl
  · exact ⟨.space, rfl⟩
  · exact ⟨.tab, rfl⟩
  · exact ⟨.lineFeed, rfl⟩
  · exact ⟨.carriageReturn, rfl⟩

theorem exists_blanks {visible : Bytes} (shown : skipBlanks bytes = visible) :
    ∃ bs, bytes = blanks bs ++ visible := by
  subst shown
  induction bytes with
  | nil => exact ⟨[], rfl⟩
  | cons b bytes ih =>
    by_cases blank : isBlank b = true
    · obtain ⟨k, rfl⟩ := exists_blank blank
      obtain ⟨bs, same⟩ := ih
      rw [skipBlanks, List.dropWhile_cons_of_pos blank]
      exact ⟨k :: bs, congrArg (k.byte :: ·) same⟩
    · rw [skipBlanks_cons (by simpa using blank)]
      exact ⟨[], rfl⟩

theorem ascii_blanks (bs : List Blank) : ∀ b ∈ blanks bs, b < 0x80 := by
  intro b here
  obtain ⟨k, _, rfl⟩ := List.mem_map.mp here
  cases k <;> decide

theorem exists_visible {visible : Bytes} (shown : skipBlanks bytes = visible)
    (formed : WellFormed bytes) :
    ∃ bs, bytes = blanks bs ++ visible ∧ WellFormed visible := by
  obtain ⟨bs, rfl⟩ := exists_blanks shown
  exact ⟨bs, rfl, formed.drop (ascii_blanks bs)⟩

theorem exists_digit (known : isDigit b = true) : ∃ d, digit d = b := by
  simp only [isDigit, Bool.and_eq_true, decide_eq_true_eq, UInt8.le_iff_toNat_le] at known
  obtain ⟨least, most⟩ := known
  change 0x30 ≤ _ at least
  change _ ≤ 0x39 at most
  refine ⟨⟨b.toNat - 0x30, by omega⟩, ?_⟩
  rw [digit, Nat.add_sub_cancel' least, UInt8.ofNat_toNat]

theorem exists_digits (bytes : Bytes) :
    ∃ ds : List (Fin 10), bytes = ds.map digit ++ bytes.dropWhile isDigit := by
  induction bytes with
  | nil => exact ⟨[], rfl⟩
  | cons b bytes ih =>
    by_cases known : isDigit b = true
    · obtain ⟨d, rfl⟩ := exists_digit known
      obtain ⟨ds, same⟩ := ih
      refine ⟨d :: ds, ?_⟩
      rw [List.dropWhile_cons_of_pos known]
      exact congrArg (digit d :: ·) same
    · rw [List.dropWhile_cons_of_neg known]
      exact ⟨[], rfl⟩

/-! Numerals -/

theorem exists_exponentDigits (skipped : Skip.exponentDigits bytes = .ok rest) :
    ∃ ds : Digits, bytes = ds.bytes ++ rest := by
  cases bytes with
  | nil => cases skipped
  | cons b tail =>
    rw [Skip.exponentDigits] at skipped
    split at skipped
    next known =>
      cases skipped
      obtain ⟨d, rfl⟩ := exists_digit known
      obtain ⟨ds, same⟩ := exists_digits tail
      exact ⟨⟨d, ds⟩, congrArg (digit d :: ·) same⟩
    next => cases skipped

theorem exists_exponent (skipped : Skip.exponent bytes = .ok rest) (capital : Bool) :
    ∃ e : Exponent, e.capital = capital ∧ bytes = e.tail ++ rest := by
  unfold Skip.exponent at skipped
  split at skipped
  next tail =>
    obtain ⟨ds, rfl⟩ := exists_exponentDigits skipped
    exact ⟨⟨capital, some .plus, ds⟩, rfl, rfl⟩
  next tail =>
    obtain ⟨ds, rfl⟩ := exists_exponentDigits skipped
    exact ⟨⟨capital, some .minus, ds⟩, rfl, rfl⟩
  next =>
    obtain ⟨ds, rfl⟩ := exists_exponentDigits skipped
    exact ⟨⟨capital, none, ds⟩, rfl, rfl⟩

theorem exists_scale (skipped : Skip.optionalExponent bytes = .ok rest) :
    ∃ e : Option Exponent, bytes = e.elim [] Exponent.bytes ++ rest := by
  cases bytes with
  | nil =>
    cases skipped
    exact ⟨none, rfl⟩
  | cons b tail =>
    rw [Skip.optionalExponent] at skipped
    split at skipped
    next mark =>
      obtain ⟨e, capital, rfl⟩ := exists_exponent skipped (b == 0x45)
      refine ⟨some e, congrArg (· :: _) ?_⟩
      simp only [isExponentMark, Bool.or_eq_true, beq_iff_eq] at mark
      rw [Exponent.mark, capital]
      rcases mark with rfl | rfl <;> rfl
    next =>
      cases skipped
      exact ⟨none, rfl⟩

/-- The fraction of a numeral does not depend on what comes before it. -/
theorem exists_fraction (skipped : Skip.afterWhole bytes = .ok rest) (negative : Bool)
    (integral : Integral) :
    ∃ n : Numeral, n.negative = negative ∧ n.integral = integral ∧ bytes = n.fraction ++ rest := by
  unfold Skip.afterWhole at skipped
  split at skipped
  next tail =>
    cases tail with
    | nil => cases skipped
    | cons b tail =>
      change (if isDigit b then Skip.optionalExponent ((b :: tail).dropWhile isDigit) else _) = _
        at skipped
      split at skipped
      next known =>
        obtain ⟨d, rfl⟩ := exists_digit known
        rw [List.dropWhile_cons_of_pos known] at skipped
        obtain ⟨ds, same⟩ := exists_digits tail
        obtain ⟨e, scale⟩ := exists_scale skipped
        refine ⟨⟨negative, integral, some ⟨d, ds⟩, e⟩, rfl, rfl, ?_⟩
        rw [scale] at same
        rw [same, Numeral.fraction, List.append_assoc]
        rfl
      next => cases skipped
  next =>
    obtain ⟨e, rfl⟩ := exists_scale skipped
    exact ⟨⟨negative, integral, none, e⟩, rfl, rfl, rfl⟩

theorem exists_unsigned (skipped : Skip.unsignedNumber bytes = .ok rest) (negative : Bool) :
    ∃ n : Numeral, n.negative = negative ∧ bytes = n.unsigned ++ rest := by
  cases bytes with
  | nil => cases skipped
  | cons b tail =>
    have whole (integral : Integral) {middle : Bytes} (fraction : Skip.afterWhole middle = .ok rest)
        (written : b :: tail = integral.bytes ++ middle) :
        ∃ n : Numeral, n.negative = negative ∧ b :: tail = n.unsigned ++ rest := by
      obtain ⟨n, same, rfl, rfl⟩ := exists_fraction fraction negative integral
      exact ⟨n, same, by rw [written, Numeral.unsigned, List.append_assoc]⟩
    rw [Skip.unsignedNumber.eq_def] at skipped
    dsimp only at skipped
    split at skipped
    next leading =>
      subst leading
      cases tail with
      | nil => exact whole .zero (show Skip.afterWhole [] = .ok rest from skipped) rfl
      | cons d tail =>
        dsimp only at skipped
        split at skipped
        next => cases skipped
        next => exact whole .zero skipped rfl
    next notZero =>
      split at skipped
      next known =>
        obtain ⟨d, rfl⟩ := exists_digit known
        obtain ⟨ds, same⟩ := exists_digits tail
        have positive : d ≠ 0 := fun zero => notZero (zero ▸ rfl)
        refine whole (.digits (d.pred positive) ds) skipped ?_
        rw [Integral.bytes, Fin.succ_pred]
        exact congrArg (digit d :: ·) same
      next => cases skipped

theorem ascii_digit (d : Fin 10) : digit d < 0x80 := by
  revert d
  decide

theorem Digits.ascii (ds : Digits) : ∀ b ∈ ds.bytes, b < 0x80 := by
  intro b here
  obtain ⟨d, _, rfl⟩ := List.mem_map.mp
    (show b ∈ (ds.first :: ds.more).map digit from here)
  exact ascii_digit d

theorem Exponent.ascii (e : Exponent) : ∀ b ∈ e.bytes, b < 0x80 := by
  obtain ⟨capital, sign, digits⟩ := e
  refine List.forall_mem_cons.mpr ⟨?_, List.forall_mem_append.mpr ⟨?_, digits.ascii⟩⟩
  · cases capital with
    | true => exact (by decide : (0x45 : UInt8) < 0x80)
    | false => exact (by decide : (0x65 : UInt8) < 0x80)
  · cases sign with
    | none => exact nofun
    | some sign => cases sign <;> exact List.forall_mem_singleton.mpr (by decide)

theorem Numeral.ascii_unsigned (n : Numeral) : ∀ b ∈ n.unsigned, b < 0x80 := by
  obtain ⟨negative, integral, decimals, exponent⟩ := n
  refine List.forall_mem_append.mpr ⟨?_, List.forall_mem_append.mpr ⟨?_, ?_⟩⟩
  · cases integral with
    | zero => exact List.forall_mem_singleton.mpr (ascii_digit 0)
    | digits first more => exact Digits.ascii ⟨first.succ, more⟩
  · cases decimals with
    | none => exact nofun
    | some ds => exact List.forall_mem_cons.mpr ⟨by decide, ds.ascii⟩
  · cases exponent with
    | none => exact nofun
    | some e => exact e.ascii

/-! Texts -/

theorem exists_hexDigit {n : Nat} (known : hexDigit? b = some n) : ∃ h : HexDigit, h.byte = b := by
  have same {m : Nat} (value : m = b.toNat) : UInt8.ofNat m = b := value ▸ UInt8.ofNat_toNat
  have letter (offset : Nat) (range : offset ≤ b.toNat ∧ b.toNat ≤ offset + 5) :
      ∃ value : Fin 16, ¬ value < 10 ∧ offset + (value - 10) = b.toNat :=
    ⟨⟨b.toNat - offset + 10, by omega⟩, by rw [Fin.lt_def]; change ¬ _ < 10; dsimp only; omega,
      by dsimp only; omega⟩
  unfold hexDigit? at known
  dsimp only at known
  split at known
  next range =>
    refine ⟨⟨⟨b.toNat - 0x30, by omega⟩, false⟩, ?_⟩
    rw [HexDigit.byte, if_pos (by rw [Fin.lt_def]; change _ < 10; dsimp only; omega)]
    exact same (by dsimp only; omega)
  next =>
    split at known
    next range =>
      obtain ⟨value, above, sum⟩ := letter 0x41 range
      refine ⟨⟨value, true⟩, ?_⟩
      rw [HexDigit.byte, if_neg above, if_pos rfl]
      exact same sum
    next =>
      split at known
      next range =>
        obtain ⟨value, above, sum⟩ := letter 0x61 range
        refine ⟨⟨value, false⟩, ?_⟩
        rw [HexDigit.byte, if_neg above, if_neg Bool.false_ne_true]
        exact same sum
      next => cases known

theorem exists_codeUnit {n : Nat} (read : hexEscape bytes = .ok (n, rest)) :
    ∃ u : CodeUnit, bytes = u.bytes ++ rest := by
  match bytes with
  | a :: b :: c :: d :: tail =>
    rw [hexEscape] at read
    split at read
    next first second third fourth =>
      cases read
      obtain ⟨a, rfl⟩ := exists_hexDigit first
      obtain ⟨b, rfl⟩ := exists_hexDigit second
      obtain ⟨c, rfl⟩ := exists_hexDigit third
      obtain ⟨d, rfl⟩ := exists_hexDigit fourth
      exact ⟨⟨a, b, c, d⟩, rfl⟩
    next => cases read
  | [] | [_] | [_, _] | [_, _, _] => cases read

theorem HexDigit.ascii (h : HexDigit) : h.byte < 0x80 := by
  obtain ⟨value, capital⟩ := h
  revert value capital
  decide

theorem CodeUnit.ascii (u : CodeUnit) : ∀ b ∈ u.bytes, b < 0x80 := by
  refine List.forall_mem_cons.mpr ⟨u.first.ascii, List.forall_mem_cons.mpr ⟨u.second.ascii, ?_⟩⟩
  exact List.forall_mem_cons.mpr ⟨u.third.ascii, List.forall_mem_singleton.mpr u.fourth.ascii⟩

theorem exists_short (known : b = quote ∨ b = backslash ∨ b = slash ∨ b = letterB ∨ b = letterF ∨
    b = letterN ∨ b = letterR ∨ b = letterT) : ∃ s : Short, s.letter = b := by
  rcases known with rfl | rfl | rfl | rfl | rfl | rfl | rfl | rfl
  · exact ⟨.quote, rfl⟩
  · exact ⟨.backslash, rfl⟩
  · exact ⟨.slash, rfl⟩
  · exact ⟨.backspace, rfl⟩
  · exact ⟨.formFeed, rfl⟩
  · exact ⟨.lineFeed, rfl⟩
  · exact ⟨.carriageReturn, rfl⟩
  · exact ⟨.tab, rfl⟩

theorem Short.ascii (s : Short) : s.letter < 0x80 := by
  cases s <;> decide

/-- A character of which the first byte is none that means something else stands for itself. -/
theorem unescaped_of_plain {c : Char} {more : Bytes} (encoded : String.utf8EncodeChar c = b :: more)
    (plain : Plain b) : Unescaped c := by
  obtain ⟨notQuote, notEscape, printing⟩ := plain
  refine ⟨?_, ?_, fun control => ?_⟩
  · rintro rfl
    exact notQuote (List.cons.inj encoded).1.symm
  · rintro rfl
    exact notEscape (List.cons.inj encoded).1.symm
  · have small : c.val.toNat ≤ 0x7F := (Nat.le_of_lt control).trans (by decide)
    have alone : String.utf8EncodeChar c = [UInt8.ofNat c.toNat] := by
      rw [String.utf8EncodeChar]
      exact if_pos small
    obtain rfl := (List.cons.inj (alone.symm.trans encoded)).1
    refine printing (UInt8.lt_iff_toNat_lt.mpr ?_)
    rw [UInt8.toNat_ofNat', Nat.mod_eq_of_lt (control.trans (by decide))]
    exact control

theorem textUpTo_plains {part limit : Bytes} (selves : ∀ b ∈ part, Plain b)
    (skipped : Skip.textUpTo limit (part ++ bytes) = .ok rest) :
    Skip.textUpTo (limit.drop part.length) bytes = .ok rest := by
  induction part generalizing limit with
  | nil => exact skipped
  | cons b part ih =>
    obtain ⟨⟨notQuote, notEscape, printing⟩, others⟩ := List.forall_mem_cons.mp selves
    cases limit with
    | nil => cases skipped
    | cons _ limit =>
      simp only [List.cons_append, Skip.textUpTo, if_neg notQuote, if_neg notEscape,
        if_neg printing] at skipped
      exact ih others skipped

/-- A text that can be skipped is spelled with marks. The recursion is along the bound: a character
takes as much of it as it has bytes. -/
theorem exists_marks {limit : Bytes} (skipped : Skip.textUpTo limit bytes = .ok rest)
    (formed : WellFormed bytes) :
    ∃ ms, bytes = markBytes ms ++ quote :: rest ∧ WellFormed rest := by
  induction size : limit.length using Nat.strong_induction_on generalizing limit bytes with
  | _ size ih =>
  cases limit with
  | nil => cases bytes <;> cases skipped
  | cons _ limit =>
    rw [List.length_cons] at size
    cases bytes with
    | nil => cases skipped
    | cons b tail =>
      simp only [Skip.textUpTo] at skipped
      split at skipped
      next closed =>
        subst closed
        cases skipped
        exact ⟨[], rfl, formed.tail (by decide)⟩
      next notQuote =>
      split at skipped
      next escaped =>
        subst escaped
        have formed := formed.tail (by decide)
        cases tail with
        | nil => cases skipped
        | cons c after =>
          dsimp only at skipped
          split at skipped
          next letter =>
            subst letter
            obtain ⟨⟨n, left⟩, hex, later⟩ := ok_of_bind skipped
            obtain ⟨u, rfl⟩ := exists_codeUnit hex
            have others := (formed.tail (by decide)).drop u.ascii
            obtain ⟨ms, rfl, last⟩ := ih _ (by omega) later others rfl
            refine ⟨.code u :: ms, ?_, last⟩
            rw [markBytes_cons, List.append_assoc]
            rfl
          next =>
          split at skipped
          next known =>
            obtain ⟨s, rfl⟩ := exists_short known
            obtain ⟨ms, rfl, last⟩ := ih _ (by omega) skipped (formed.tail s.ascii) rfl
            exact ⟨.short s :: ms, rfl, last⟩
          next => cases skipped
      next notEscape =>
      split at skipped
      next => cases skipped
      next printing =>
        obtain ⟨c, more, left, encoded, rfl, others⟩ := formed.first
        have unescaped := unescaped_of_plain encoded ⟨notQuote, notEscape, printing⟩
        have selves : ∀ x ∈ more, Plain x := fun x here =>
          Mark.plain_bytes unescaped x (encoded ▸ List.mem_cons_of_mem b here)
        have later := textUpTo_plains selves skipped
        obtain ⟨ms, rfl, last⟩ := ih _ (by rw [List.length_drop]; omega) later others rfl
        refine ⟨.plain c unescaped :: ms, ?_, last⟩
        rw [markBytes_cons, List.append_assoc, Mark.bytes, encoded]
        rfl

end Spelling

end AdmissionGuest
