import AdmissionGuest.Capability.Registry
import AdmissionGuest.Policy
/-!
A policy that admits a request only if the host knows the digest of a given image, and the digest is
of the kind it trusts.
-/

namespace AdmissionGuest

/-- The image to look up. -/
structure DigestSettings where
  image : String
  deriving DecidableEq, Repr

instance : Named DigestSettings := ⟨"driver::DigestSettings"⟩

instance : Shaped DigestSettings where
  shape := .named "DigestSettings" <| .required "image" .text .nil
  toVal s := (s.image, ())
  ofVal := fun (image, ()) => { image }
  ofVal_toVal _ := rfl
  toVal_ofVal _ := rfl

namespace DigestPolicy

def trustedAlgorithm : String := "sha256:"

def validate {η : Type} [Host η] (request : ValidationRequest DigestSettings) :
    Guest η ValidationResponse := do
  let digest ← manifestDigest request.settings.image
  if trustedAlgorithm.toList.isPrefixOf digest.toList then
    return ValidationResponse.accept.annotate "digest" digest
  else
    return .reject "unexpected digest algorithm" (some 400)

def validateSettings (settings : DigestSettings) : Except Error SettingsValidationResponse :=
  if settings.image.isEmpty then .error (.invalidSettings "image must not be empty")
  else .ok .accept

def policy : Policy where
  Settings := DigestSettings
  validate := validate
  validateSettings := validateSettings

end DigestPolicy

end AdmissionGuest
