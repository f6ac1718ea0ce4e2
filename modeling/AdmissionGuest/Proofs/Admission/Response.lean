import AdmissionGuest.Proofs.Document
/-!
A response that is written and read again is of the same kind and says the same. The one thing that
does not come back is a mutated object that is null.
-/

namespace AdmissionGuest

open Shaped

theorem Value.isNull_iff {v : Value} : v.json.isNull = true ↔ v = Value.null := by
  rw [Json.isNull_iff]
  constructor
  · intro null
    exact Value.ext null
  · rintro rfl
    rfl

namespace ValidationResponse

/-- The members of a verdict on a request: of the optional ones, those that are set. -/
def members (r : ValidationResponse) : List (String × Json) :=
  ("accepted", .flag r.accepted) ::
    ((r.message.map fun text => ("message", Json.text text)).toList ++
      (r.code.map fun code => ("code", Json.number (.int code.toNat))).toList ++
      (r.mutatedObject.map fun object => ("mutated_object", object.json)).toList ++
      (r.auditAnnotations.map fun facts =>
        ("audit_annotations", Json.object (facts.entries.map fun e => (e.1, .text e.2)))).toList ++
      (r.warnings.map fun warnings => ("warnings", Json.list (warnings.map .text))).toList)

/-- The verdict that arrives. -/
def returned (r : ValidationResponse) : ValidationResponse :=
  { r with mutatedObject := r.mutatedObject.filter fun object => !object.json.isNull }

variable {r : ValidationResponse}

theorem json_eq : Shaped.json r = .object r.members := by
  obtain ⟨accepted, message, code, object, facts, warnings⟩ := r
  cases message <;> cases code <;> cases object <;> cases facts <;> cases warnings <;> rfl

theorem settle_eq : (shape ValidationResponse).settle (toVal r) = toVal r.returned := by
  refine Prod.ext rfl (Prod.ext ?_ (Prod.ext ?_ (Prod.ext ?_ (Prod.ext ?_ (Prod.ext ?_ rfl)))))
  · exact Presence.settle_of_plain (p := .optional) (s := .text) rfl r.message
  · exact Presence.settle_of_plain (p := .optional) (s := .int .u16) rfl r.code
  · exact Option.map_id'
  · exact Presence.settle_of_plain (p := .optional) (s := .dict .text) rfl r.auditAnnotations
  · exact Presence.settle_of_plain (p := .optional) (s := .list .text) rfl r.warnings

theorem carries_of_object {P : Json → Prop}
    (carried : ∀ object, r.mutatedObject = some object → P object.json) :
    (shape ValidationResponse).Carries P (toVal r) := by
  refine ⟨?_, ?_, ?_, carried, ?_, ?_, trivial⟩
  all_goals exact fun x _ => Shape.carries_of_plain _ rfl x

theorem returned_eq_iff : r.returned = r ↔ r.mutatedObject ≠ some .null := by
  have object : r.returned = r ↔ r.returned.mutatedObject = r.mutatedObject := by
    constructor
    · exact congrArg mutatedObject
    · intro same
      change { r with mutatedObject := r.returned.mutatedObject } = r
      rw [same]
  rw [object, returned]
  cases r.mutatedObject with
  | none => simp
  | some v => simp [Option.filter, ← Value.isNull_iff]

theorem null_mem_members {name : String} :
    (name, Json.null) ∈ r.members ↔ name = "mutated_object" ∧ r.mutatedObject = some .null := by
  have object : (name, Json.null) ∈ r.members ↔
      ∃ v, r.mutatedObject = some v ∧ "mutated_object" = name ∧ v.json = .null := by
    simp [members]
  rw [object]
  constructor
  · rintro ⟨v, there, rfl, null⟩
    rw [there, Value.isNull_iff.mp (Json.isNull_iff.mpr null)]
    exact ⟨rfl, rfl⟩
  · rintro ⟨rfl, there⟩
    exact ⟨.null, there, rfl, rfl⟩

theorem view_members (kept : Kept) : Shaped.view kept (.object r.members) = .ok r.returned := by
  rw [← json_eq]
  exact view_shaped (by decide) settle_eq kept

end ValidationResponse

namespace SettingsValidationResponse

def members (r : SettingsValidationResponse) : List (String × Json) :=
  ("valid", .flag r.valid) :: (r.message.map fun text => ("message", Json.text text)).toList

variable {r : SettingsValidationResponse}

theorem json_eq : Shaped.json r = .object r.members := by
  obtain ⟨valid, message⟩ := r
  cases message <;> rfl

/-- A verdict on settings is no verdict on a request, which would say whether it is accepted. -/
theorem view_request_fails (r : SettingsValidationResponse) (kept : Kept)
    (v : ValidationResponse) :
    Shaped.view kept (.object r.members) ≠ .ok v := by
  intro viewed
  cases found : (shape ValidationResponse).view kept (.object r.members) with
  | error cause =>
    rw [Shaped.view, found] at viewed
    cases viewed
  | ok v =>
    obtain ⟨⟨slot, fills, given⟩, _⟩ := view_object_iff.mp found
    have unsaid : Field.own ⟨"accepted", .required, []⟩ r.members = [] := by
      obtain ⟨valid, message⟩ := r
      cases message <;> rfl
    rw [unsaid] at fills
    cases fills
    cases given

theorem view_members (r : SettingsValidationResponse) (kept : Kept) :
    Shaped.view kept (.object r.members) = .ok r := by
  rw [← json_eq]
  exact view_shaped (by decide) ((shape SettingsValidationResponse).settle_of_plain rfl _) kept

end SettingsValidationResponse

namespace PolicyResponse

def members : PolicyResponse → List (String × Json)
  | validation r => r.members
  | settings r => r.members

/-- The object that replaces the object of the request, if there is one. -/
def mutatedObject : PolicyResponse → Option Value
  | validation r => r.mutatedObject
  | settings _ => none

/-- The response that arrives. -/
def returned : PolicyResponse → PolicyResponse
  | validation r => validation r.returned
  | settings r => settings r

variable {r : PolicyResponse}

theorem encode_members : encode r = .ok (Json.object r.members).write := by
  cases r with
  | validation r => exact congrArg (fun j => Except.ok (Json.write j)) ValidationResponse.json_eq
  | settings r =>
    exact congrArg (fun j => Except.ok (Json.write j)) SettingsValidationResponse.json_eq

theorem view_members : PolicyResponse.view (.object r.members) = .ok r.returned := by
  cases r with
  | validation r =>
    change PolicyResponse.view (.object r.members) = .ok (.validation r.returned)
    simp only [PolicyResponse.view, ValidationResponse.view_members]
  | settings r =>
    change PolicyResponse.view (.object r.members) = .ok (.settings r)
    have viewed := r.view_members Kept.inBuffer
    cases other : Shaped.view (α := ValidationResponse) .inBuffer (.object r.members) with
    | ok v => exact absurd other (r.view_request_fails _ v)
    | error cause => simp only [PolicyResponse.view, other, viewed]

theorem returned_eq_iff : r.returned = r ↔ r.mutatedObject ≠ some .null := by
  cases r with
  | validation r =>
    rw [mutatedObject, ← ValidationResponse.returned_eq_iff, returned, validation.injEq]
  | settings r => exact iff_of_true rfl nofun

theorem whole_members (whole : ∀ object, r.mutatedObject = some object → object.json.Whole) :
    (Json.object r.members).Whole := by
  cases r with
  | validation r =>
    change (Json.object r.members).Whole
    rw [← ValidationResponse.json_eq]
    exact (shape ValidationResponse).json_inherits Json.whole_inherited _
      (ValidationResponse.carries_of_object whole)
  | settings r =>
    change (Json.object r.members).Whole
    rw [← SettingsValidationResponse.json_eq]
    exact (shape SettingsValidationResponse).json_inherits Json.whole_inherited _
      ((shape SettingsValidationResponse).carries_of_plain rfl _)

theorem null_mem_members {name : String} :
    (name, Json.null) ∈ r.members ↔ name = "mutated_object" ∧ r.mutatedObject = some .null := by
  cases r with
  | validation r => exact ValidationResponse.null_mem_members
  | settings r => simp [members, SettingsValidationResponse.members, mutatedObject]

/-- Whatever response is written, it is read as a response of its kind that equals it, up to a
mutated object that is null; its document has the members that are set and no others. -/
theorem decode_encode_exact (r : PolicyResponse)
    (whole : ∀ object, r.mutatedObject = some object → object.json.Whole)
    (fits : (Json.object r.members).height ≤ Json.nestingLimit) :
    ∃ bytes, encode r = .ok bytes ∧ decode bytes = .ok r.returned ∧
      (decode bytes = .ok r ↔ r.mutatedObject ≠ some .null) ∧
      Json.read Json.nestingLimit bytes = .ok (.object r.members, []) ∧
      ∀ name, (name, Json.null) ∈ r.members ↔
        name = "mutated_object" ∧ r.mutatedObject = some .null := by
  have decoded := decode_response (whole_members whole) fits view_members
  refine ⟨_, encode_members, decoded, ?_, read_document (whole_members whole) fits,
    fun _ => null_mem_members⟩
  rw [decoded, Except.ok.injEq, returned_eq_iff]

/-- An object that is replaced by null: the response arrives without it. -/
theorem null_object_lost :
    (Json.object (validation (.mutate .null)).members).height ≤ Json.nestingLimit ∧
      ∃ bytes, encode (validation (.mutate .null)) = .ok bytes ∧
        decode bytes = .ok (validation .accept) := by
  have fits : (Json.object (validation (.mutate .null)).members).height ≤ Json.nestingLimit := by
    decide
  have whole : ∀ object, (validation (.mutate .null)).mutatedObject = some object →
      object.json.Whole := by
    rintro _ ⟨⟩
    trivial
  obtain ⟨bytes, encoded, decoded, _⟩ := decode_encode_exact (validation (.mutate .null)) whole fits
  exact ⟨fits, bytes, encoded, decoded⟩

end PolicyResponse

end AdmissionGuest
