import AdmissionGuest.Proofs.Json.Spelling.Parts
/-!
Every spelled document is skipped to its end: however deep it is nested, whatever its texts stand
for and however large its numbers are.
-/

namespace AdmissionGuest

open Ascii Scan

namespace Spelling

open Skip

variable {frames : List Frame} {rest : Bytes}

theorem value_numeral (n : Numeral) (stops : Stops rest) :
    Skip.value frames (n.bytes ++ rest) = .ok (.ended frames, rest) := by
  have unsigned := skip_unsigned n stops
  obtain ⟨negative, integral, decimals, exponent⟩ := n
  cases negative with
  | true =>
    change (Skip.unsignedNumber
      (Numeral.unsigned ⟨true, integral, decimals, exponent⟩ ++ rest)).map _ = _
    rw [unsigned]
    rfl
  | false =>
    have first : ∃ b tail, Numeral.unsigned ⟨false, integral, decimals, exponent⟩ ++ rest =
        b :: tail ∧ isDigit b = true := by
      cases integral with
      | zero => exact ⟨_, _, rfl, rfl⟩
      | digits first more => exact ⟨_, _, rfl, isDigit_digit _⟩
    obtain ⟨b, tail, written, digit⟩ := first
    have leads : Leads b := .inr digit
    obtain ⟨notNull, notTrue, notFalse⟩ := leads.notWord
    have notMinus : b ≠ minus := by
      rintro rfl
      exact absurd digit (by decide)
    change Skip.value frames (Numeral.unsigned _ ++ rest) = _
    rw [written] at unsigned ⊢
    simp only [Skip.value, skipBlanks_cons leads.visible.1, if_neg notNull, if_neg notTrue,
      if_neg notFalse, if_neg notMinus, if_pos digit, unsigned]
    rfl

/-- The name of a member is skipped with the colon, whether or not it stands for a text. -/
theorem beforeValue_marks (bs colonBlanks : List Blank) (name : List Mark) (rest : Bytes) :
    beforeValue .object (blanks bs ++ quote :: (markBytes name ++ quote ::
      (blanks colonBlanks ++ colon :: rest))) = .ok rest := by
  have visible : skipBlanks (blanks bs ++ quote :: (markBytes name ++ quote ::
        (blanks colonBlanks ++ colon :: rest))) =
      quote :: (markBytes name ++ quote :: (blanks colonBlanks ++ colon :: rest)) :=
    skipBlanks_blanks bs _
  have separated : skipBlanks (blanks colonBlanks ++ colon :: rest) = colon :: rest :=
    skipBlanks_blanks colonBlanks _
  simp only [beforeValue, visible, if_true, skip_text, separated, bind, Except.bind]

theorem before_member (first : Bool) (bs : List Blank) (m : Member Spelling)
    (ms : List (Member Spelling)) (rest : Bytes) :
    Before .object first (blanks bs ++ (memberBytes first (m :: ms) ++ rest))
      (blanks m.afterColon ++ (m.value.bytes ++ (blanks m.after ++
        (memberBytes false ms ++ rest)))) := by
  rw [memberBytes_cons]
  cases first with
  | true =>
    have before := beforeValue_marks [] m.beforeColon m.name (blanks m.afterColon ++
      (m.value.bytes ++ (blanks m.after ++ (memberBytes false ms ++ rest))))
    refine .first ?_ (by decide) before
    rw [if_pos rfl, List.nil_append, skipBlanks_blanks, skipBlanks_blanks]
    rfl
  | false =>
    rw [if_neg Bool.false_ne_true, List.cons_append, List.nil_append]
    exact .comma (skipBlanks_blanks bs _) (beforeValue_marks _ _ _ _)

mutual

/-- The recursion is along the document; the frames around it are of no matter. -/
theorem skips_bytes (d : Spelling) (frames : List Frame) (bs : List Blank) {rest : Bytes}
    (stops : Stops rest) : Skips frames (blanks bs ++ (d.bytes ++ rest)) rest := by
  have begins := begins_blanks bs d rest
  match d with
  | .null => exact skips_word .null (skipBlanks_blanks bs _) rfl
  | .flag true => exact skips_word .yes (skipBlanks_blanks bs _) rfl
  | .flag false => exact skips_word .no (skipBlanks_blanks bs _) rfl
  | .number n =>
    obtain ⟨b, tail, written, _⟩ := n.leads
    refine skips_scalar (skipBlanks_bytes bs _ rest) (value_numeral n stops) ?_
    rw [bytes, written, List.length_append, List.length_cons]
    omega
  | .text ms =>
    generalize visible : skipBlanks _ = shown at begins
    cases begins with
    | text =>
      refine skips_scalar visible ?_ ?_
      · change ((Skip.textBody (markBytes ms ++ quote :: rest)).map _) = _
        rw [skip_text]
        rfl
      · rw [List.length_cons, List.length_append, List.length_cons]
        omega
  | .list inside xs =>
    generalize visible : skipBlanks _ = shown at begins
    cases begins with
    | list => exact items_leave xs frames true inside rest _ visible
  | .object inside ms =>
    generalize visible : skipBlanks _ = shown at begins
    cases begins with
    | object => exact members_leave ms frames true inside rest _ visible

theorem items_leave (xs : List (Item Spelling)) (frames : List Frame) (first : Bool)
    (bs : List Blank) (rest : Bytes) :
    Leaves .list frames first (blanks bs ++ (itemBytes first xs ++ closeList :: rest)) rest := by
  match xs with
  | [] => exact .close (skipBlanks_blanks bs _)
  | ⟨before, value, after⟩ :: xs =>
    have moved := nextItem_inv
      (nextItem_item first ⟨before, value, after⟩ xs bs (closeList :: rest))
    exact .item moved (value.skips_bytes (.list :: frames) [] (stops_items xs after rest))
      (items_leave xs frames false after rest)

theorem members_leave (ms : List (Member Spelling)) (frames : List Frame) (first : Bool)
    (bs : List Blank) (rest : Bytes) :
    Leaves .object frames first (blanks bs ++ (memberBytes first ms ++ closeObject :: rest))
      rest := by
  match ms with
  | [] => exact .close (skipBlanks_blanks bs _)
  | ⟨before, name, beforeColon, afterColon, value, after⟩ :: ms =>
    have here := before_member first bs ⟨before, name, beforeColon, afterColon, value, after⟩ ms
      (closeObject :: rest)
    exact .part here
      (value.skips_bytes (.object :: frames) afterColon (stops_members ms after rest))
      (members_leave ms frames false after rest)

end

theorem skip_bytes (d : Spelling) (bs : List Blank) (stops : Stops rest) :
    Json.skip (blanks bs ++ (d.bytes ++ rest)) = .ok ((), rest) :=
  Json.skip_of_skips (d.skips_bytes [] bs stops)

end Spelling

end AdmissionGuest
