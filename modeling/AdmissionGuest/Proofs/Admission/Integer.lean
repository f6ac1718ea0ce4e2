import AdmissionGuest.Proofs.Admission.Response
import AdmissionGuest.Proofs.Admission.Tolerance
import AdmissionGuest.Proofs.Shape.Integer
import AdmissionGuest.Proofs.Shape.Opaque
/-!
Integers in documents that are decoded: directly as values of their type, and as answers, of which
all is read before their kind is known. The code of a verdict is an integer of sixteen bits; with any
other integer the answer is no verdict on a request.
-/

namespace AdmissionGuest

open Shaped Spelling

section Documents

variable {α : Type} [Named α] [Shaped α] (proper : (shape α).Proper) {place : List Layer}
  {path : List Step} {width : Width} (leads : Shape.Leads (shape α) place path (.int width))
  {numeral : Numeral} {n : Int} (writes : numeral.Writes n) (before after : List Blank)

include proper leads writes

/-- The integer of a decoded document fits, and is the one that is written there again. -/
theorem decode_integer {a : α}
    (decoded : decode (document before (fill place (.number numeral)) after) = .ok a) :
    width.Fits n ∧ (json a).follow? path = some (.number (.int n)) :=
  (leads.opens proper _).integer number_ne_null (fun _ _ => Shape.read_int_iff writes)
    ((decode_document_iff before _ after a).mp decoded)

/-- Where anything can be decoded, every integer that fits can. -/
theorem integer_decodable {d : Spelling} {a : α} (there : d ≠ .null)
    (decoded : decode (document before (fill place d) after) = .ok a) (fits : width.Fits n) :
    ∃ b : α, decode (document before (fill place (.number numeral)) after) = .ok b := by
  obtain ⟨v, read⟩ := (leads.opens proper _).integer_makes number_ne_null
    (fun _ _ => Shape.read_int_iff writes) there
    ((decode_document_iff before _ after a).mp decoded) fits
  refine ⟨ofVal v, (decode_document_iff before _ after _).mpr ?_⟩
  rw [toVal_ofVal]
  exact read

end Documents

/-! Documents that are read as a whole first -/

/-- A document that was read decides what its text is read as. -/
theorem Shape.read_on_iff {s : Shape} {depth : Nat} {d : Spelling} {j : Json} (kept : Kept)
    (read : (Json.read depth).on d = .ok j) {v : s.Val} :
    (s.read depth).on d = .ok v ↔ s.view kept j = .ok v := by
  obtain ⟨left, read⟩ := Reader.on_ok_iff.mp read
  have follows := s.read_follows kept depth d.bytes left j read
  rw [Reader.on_ok_iff]
  constructor
  · rintro ⟨rest, here⟩
    exact (follows.ok_iff.mp here).1
  · intro viewed
    exact ⟨left, follows.ok_iff.mpr ⟨viewed, rfl⟩⟩

section Answers

variable (before : List Blank) (d : Spelling) (after : List Blank)

/-- An answer is decoded by the document that its text is read as. -/
theorem decode_answer_iff (p : PolicyResponse) :
    decode (document before d after) = .ok p ↔
      ∃ j, (Json.read Json.nestingLimit).on d = .ok j ∧ PolicyResponse.view j = .ok p := by
  have found := read_uniform Json.nestingLimit d before (blanks after) (stops_after after)
  have follows : Follows (OfDocument.read (document before d after))
      ((Json.read Json.nestingLimit).on d >>= PolicyResponse.view) (blanks after) := by
    refine found.bind fun j _ => ?_
    dsimp only
    cases PolicyResponse.view j with
    | ok p => exact .done
    | error cause => exact .failed
  rw [decode_iff_of_follows follows]
  constructor
  · exact ok_of_bind
  · rintro ⟨j, read, viewed⟩
    rw [read]
    exact viewed

/-- An answer is a verdict on a request if it is read and decodes as one. -/
theorem validation_iff (r : ValidationResponse) :
    decode (document before d after) = .ok (PolicyResponse.validation r) ↔
      (∃ j, (Json.read Json.nestingLimit).on d = .ok j) ∧
        decode (document before d after) = .ok r := by
  have first (j : Json) : PolicyResponse.view j = .ok (.validation r) ↔
      (shape ValidationResponse).view .inBuffer j = .ok (toVal r) := by
    rw [← view_ok_iff, PolicyResponse.view]
    cases (view .inBuffer j : Except Cause ValidationResponse) with
    | ok r' =>
      constructor
      · rintro ⟨⟩
        rfl
      · rintro ⟨⟩
        rfl
    | error cause =>
      cases (view .inBuffer j : Except Cause SettingsValidationResponse) <;> constructor <;> rintro ⟨⟩
  rw [decode_answer_iff, decode_document_iff]
  constructor
  · rintro ⟨j, read, viewed⟩
    exact ⟨⟨j, read⟩, (Shape.read_on_iff .inBuffer read).mpr ((first j).mp viewed)⟩
  · rintro ⟨⟨j, read⟩, decoded⟩
    exact ⟨j, read, (first j).mpr ((Shape.read_on_iff .inBuffer read).mp decoded)⟩

end Answers

section Code

variable {place : List Layer} {path : List Step} {width : Width}
  (leads : Shape.Leads (shape ValidationResponse) place path (.int width)) {numeral : Numeral}
  {n : Int} (writes : numeral.Writes n) (before after : List Blank)

include leads writes

theorem validation_integer {r : ValidationResponse}
    (decoded : decode (document before (fill place (.number numeral)) after) =
      .ok (PolicyResponse.validation r)) :
    width.Fits n ∧ (json r).follow? path = some (.number (.int n)) :=
  decode_integer (by decide) leads writes before after
    ((validation_iff before _ after r).mp decoded).2

/-- Where anything makes a verdict, every integer that fits makes one. -/
theorem integer_validation {d : Spelling} {r : ValidationResponse} (there : d ≠ .null)
    (decoded : decode (document before (fill place d) after) =
      .ok (PolicyResponse.validation r)) (fits : width.Fits n) :
    ∃ r, decode (document before (fill place (.number numeral)) after) =
      .ok (PolicyResponse.validation r) := by
  obtain ⟨⟨j, read⟩, direct⟩ := (validation_iff before _ after r).mp decoded
  have part (inner : Nat) : ∃ x, (Json.read inner).on (.number numeral) = .ok x :=
    ⟨_, read_number_iff.mpr ⟨_, numberOf_of_whole writes (Width.whole_of_fits fits), rfl⟩⟩
  obtain ⟨j', read'⟩ := part_replaced read part
  obtain ⟨r', direct'⟩ :=
    integer_decodable (by decide) leads writes before after there direct fits
  exact ⟨r', (validation_iff before _ after r').mpr ⟨⟨j', read'⟩, direct'⟩⟩

end Code

end AdmissionGuest
