import AdmissionGuest.Capability.Basic
import AdmissionGuest.Manifest.Configuration
import AdmissionGuest.Manifest.Reply
/-!
Questions to an image registry through the host. Each is asked with the name of an image.
-/

namespace AdmissionGuest

open Shaped

/-- The digest of an image. -/
structure ManifestDigestResponse where
  digest : String
  deriving DecidableEq, Repr

instance : Named ManifestDigestResponse := ⟨"ManifestDigestResponse"⟩

instance : Shaped ManifestDigestResponse where
  shape := .named "ManifestDigestResponse" <| .required "digest" .text .nil
  toVal r := (r.digest, ())
  ofVal := fun (digest, ()) => { digest }
  ofVal_toVal _ := rfl
  toVal_ofVal _ := rfl

/-- The manifest, the digest and the configuration of an image. -/
structure ManifestAndConfigResponse where
  manifest : ImageManifest
  digest : String
  config : ImageConfiguration

instance : Named ManifestAndConfigResponse := ⟨"ManifestAndConfigResponse"⟩

instance : Shaped ManifestAndConfigResponse where
  shape := .named "ManifestAndConfigResponse" <| .required "manifest" (shape ImageManifest) <|
    .required "digest" .text <| .required "config" (shape ImageConfiguration) .nil
  toVal r := (toVal r.manifest, r.digest, toVal r.config, ())
  ofVal := fun (manifest, digest, config, ()) =>
    { manifest := ofVal manifest, digest, config := ofVal config }
  ofVal_toVal _ := by simp
  toVal_ofVal := by
    intro (manifest, digest, config, ())
    simp
    rfl

namespace Capability

def manifestDigest : Capability String ManifestDigestResponse := ⟨.manifestDigest⟩

def ociManifest : Capability String OciManifestResponse := ⟨.ociManifest⟩

/-- The manifest, the digest and the configuration of an image. -/
def ociManifestConfig : Capability String ManifestAndConfigResponse := ⟨.ociManifestConfig⟩

end Capability

variable {η : Type} [Host η]

def manifestDigest (image : String) : Guest η String := do
  let response ← Capability.manifestDigest.call image
  return response.digest

/-- The manifest or the index of an image. A reply that is no document is rejected like one that is
neither of the two. -/
def manifest (image : String) : Guest η OciManifestResponse := do
  let reply ← Capability.ociManifest.send image
  let (response, log) ← MonadExcept.ofExcept (OciManifestResponse.classifyReply reply)
  modify fun s => log.foldl (fun s event => s.record event) s
  modify (Session.record (.manifestClassified image response.mediaType?))
  return response

/-- The manifest, the digest and the configuration of an image. -/
def manifestAndConfig (image : String) : Guest η ManifestAndConfigResponse :=
  Capability.ociManifestConfig.call image

end AdmissionGuest
