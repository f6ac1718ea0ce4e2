import AdmissionGuest.Document
/-!
The one document that a guest answers with: a verdict on a request, or a verdict on settings.
Verdicts are built from a start by adding warnings and audit annotations.
-/

namespace AdmissionGuest

/-- A verdict on settings. -/
structure SettingsValidationResponse where
  valid : Bool
  /-- the explanation, usually there if the settings are not valid -/
  message : Option String
  deriving DecidableEq, Repr

instance : Named SettingsValidationResponse := ⟨"SettingsValidationResponse"⟩

instance : Shaped SettingsValidationResponse where
  shape := .named "SettingsValidationResponse" <| .required "valid" .flag <|
    .optional "message" .text .nil
  toVal r := (r.valid, r.message, ())
  ofVal := fun (valid, message, ()) => { valid, message }
  ofVal_toVal _ := rfl
  toVal_ofVal _ := rfl

namespace SettingsValidationResponse

def accept : SettingsValidationResponse := ⟨true, none⟩

def refuse (message : String) : SettingsValidationResponse := ⟨false, some message⟩

end SettingsValidationResponse

/-- A verdict on a request. -/
structure ValidationResponse where
  /-- whether the request is admitted -/
  accepted : Bool
  /-- the explanation shown to the user -/
  message : Option String := none
  /-- the status code of a rejection -/
  code : Option UInt16 := none
  /-- what replaces the object of the request -/
  mutatedObject : Option Value := none
  /-- facts for the audit log -/
  auditAnnotations : Option (Dict String String) := none
  /-- warnings for the client -/
  warnings : Option (List String) := none

instance : Named ValidationResponse := ⟨"ValidationResponse"⟩

instance : Shaped ValidationResponse where
  shape := .named "ValidationResponse" <| .required "accepted" .flag <|
    .optional "message" .text <| .optional "code" (.int .u16) <|
    .optional "mutated_object" .any <| .optional "audit_annotations" (.dict .text) <|
    .optional "warnings" (.list .text) .nil
  toVal r :=
    (r.accepted, r.message, r.code, r.mutatedObject, r.auditAnnotations, r.warnings, ())
  ofVal := fun (accepted, message, code, mutatedObject, auditAnnotations, warnings, ()) =>
    { accepted, message, code, mutatedObject, auditAnnotations, warnings }
  ofVal_toVal _ := rfl
  toVal_ofVal _ := rfl

namespace ValidationResponse

def accept : ValidationResponse := { accepted := true }

def reject (message : String) (code : Option UInt16) : ValidationResponse :=
  { accepted := false, message := some message, code }

/-- Admits the request with another object in place of its own. -/
def mutate (object : Value) : ValidationResponse :=
  { accepted := true, mutatedObject := some object }

def annotate (r : ValidationResponse) (key value : String) : ValidationResponse :=
  { r with auditAnnotations := some ((r.auditAnnotations.getD Dict.empty).insert key value) }

/-- Adds a warning after those that are there. -/
def warn (r : ValidationResponse) (warning : String) : ValidationResponse :=
  { r with warnings := some (r.warnings.getD [] ++ [warning]) }

end ValidationResponse

/-- The answer of a guest. -/
inductive PolicyResponse where
  | validation (response : ValidationResponse)
  | settings (response : SettingsValidationResponse)

instance : Named PolicyResponse := ⟨"PolicyResponse"⟩

instance : ToDocument PolicyResponse where
  document
    | .validation r => .ok (Shaped.json r)
    | .settings r => .ok (Shaped.json r)

/-- The first kind of answer that a document can be viewed as. -/
def PolicyResponse.view (j : Json) : Except Cause PolicyResponse :=
  match Shaped.view Kept.inBuffer j, Shaped.view Kept.inBuffer j with
  | .ok r, _ => .ok (.validation r)
  | .error _, .ok r => .ok (.settings r)
  | .error _, .error _ => .error (.noAlternative (label PolicyResponse))

/-- Nothing in the document names the kind of the answer, so all of it is read first. -/
instance : OfDocument PolicyResponse where
  read := fun bytes => do
    let (j, rest) ← Json.read Json.nestingLimit bytes
    match PolicyResponse.view j with
    | .ok r => return (r, rest)
    | .error cause => .error ⟨cause, none⟩

end AdmissionGuest
