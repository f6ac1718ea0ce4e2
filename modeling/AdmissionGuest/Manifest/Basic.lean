import AdmissionGuest.Document
/-!
Manifests of container images: descriptors of registry content, the manifest of an image for one
platform, and the index of an image for several. Every member may be absent.
-/

namespace AdmissionGuest

open Shaped

/-- The platform an image runs on. -/
structure Platform where
  architecture : String
  os : String
  osVersion : Option String
  osFeatures : Option (List String)
  variant : Option String
  deriving DecidableEq, Repr

instance : Named Platform := ⟨"kubebridge::manifest::Platform"⟩

instance : Shaped Platform where
  shape := .named "Platform" <| .defaulted "architecture" .text <| .defaulted "os" .text <|
    .optionalAs "os.version" "osVersion" .text <|
    .optionalAs "os.features" "osFeatures" (.list .text) <| .optional "variant" .text .nil
  toVal p := (p.architecture, p.os, p.osVersion, p.osFeatures, p.variant, ())
  ofVal := fun (architecture, os, osVersion, osFeatures, variant, ()) =>
    { architecture, os, osVersion, osFeatures, variant }
  ofVal_toVal _ := rfl
  toVal_ofVal _ := rfl

/-- A reference to content of a registry. -/
structure Descriptor where
  mediaType : String
  digest : String
  size : Int64
  urls : Option (List String)
  annotations : Option (Dict String String)
  /-- the content itself, in base 64 -/
  data : Option String
  /-- set on the entries of an index -/
  platform : Option Platform
  artifactType : Option String
  deriving DecidableEq

instance : Named Descriptor := ⟨"Descriptor"⟩

instance : Shaped Descriptor where
  shape := .named "Descriptor" <| .defaulted "mediaType" .text <| .defaulted "digest" .text <|
    .defaulted "size" (.int .i64) <| .optional "urls" (.list .text) <|
    .optional "annotations" (.dict .text) <| .optional "data" .text <|
    .optional "platform" (shape Platform) <| .optional "artifactType" .text .nil
  toVal d := (d.mediaType, d.digest, d.size, d.urls, d.annotations, d.data, d.platform.map toVal,
    d.artifactType, ())
  ofVal := fun (mediaType, digest, size, urls, annotations, data, platform, artifactType, ()) =>
    { mediaType, digest, size, urls, annotations, data, platform := platform.map ofVal,
      artifactType }
  ofVal_toVal _ := by simp [Function.comp_def]
  toVal_ofVal := by
    intro (mediaType, digest, size, urls, annotations, data, platform, artifactType, ())
    simp [Function.comp_def]
    rfl

/-- The manifest of an image for one platform. -/
structure ImageManifest where
  schemaVersion : UInt32
  mediaType : Option String
  artifactType : Option String
  config : Descriptor
  layers : List Descriptor
  subject : Option Descriptor
  annotations : Option (Dict String String)
  deriving DecidableEq

instance : Named ImageManifest := ⟨"ImageManifest"⟩

instance : Shaped ImageManifest where
  shape := .named "ImageManifest" <| .defaulted "schemaVersion" (.int .u32) <|
    .optional "mediaType" .text <| .optional "artifactType" .text <|
    .defaulted "config" (shape Descriptor) <| .defaulted "layers" (shape (List Descriptor)) <|
    .optional "subject" (shape Descriptor) <| .optional "annotations" (.dict .text) .nil
  toVal m := (m.schemaVersion, m.mediaType, m.artifactType, toVal m.config, toVal m.layers,
    m.subject.map toVal, m.annotations, ())
  ofVal := fun (schemaVersion, mediaType, artifactType, config, layers, subject, annotations, ()) =>
    { schemaVersion, mediaType, artifactType, config := ofVal config,
      layers := ofVal layers, subject := subject.map ofVal, annotations }
  ofVal_toVal _ := by simp [Function.comp_def]
  toVal_ofVal := by
    intro (schemaVersion, mediaType, artifactType, config, layers, subject, annotations, ())
    simp [Function.comp_def]
    rfl

/-- The index of an image for several platforms. -/
structure ImageIndex where
  schemaVersion : UInt32
  mediaType : Option String
  artifactType : Option String
  manifests : List Descriptor
  subject : Option Descriptor
  annotations : Option (Dict String String)
  deriving DecidableEq

instance : Named ImageIndex := ⟨"ImageIndex"⟩

instance : Shaped ImageIndex where
  shape := .named "ImageIndex" <| .defaulted "schemaVersion" (.int .u32) <|
    .optional "mediaType" .text <| .optional "artifactType" .text <|
    .defaulted "manifests" (shape (List Descriptor)) <|
    .optional "subject" (shape Descriptor) <| .optional "annotations" (.dict .text) .nil
  toVal i := (i.schemaVersion, i.mediaType, i.artifactType, toVal i.manifests,
    i.subject.map toVal, i.annotations, ())
  ofVal := fun (schemaVersion, mediaType, artifactType, manifests, subject, annotations, ()) =>
    { schemaVersion, mediaType, artifactType, manifests := ofVal manifests,
      subject := subject.map ofVal, annotations }
  ofVal_toVal _ := by simp [Function.comp_def]
  toVal_ofVal := by
    intro (schemaVersion, mediaType, artifactType, manifests, subject, annotations, ())
    simp [Function.comp_def]
    rfl

/-- Whether a platform is the one for an operating system and an architecture. -/
def Platform.runs (p : Platform) (os architecture : String) : Bool :=
  p.os == os && p.architecture == architecture

/-- The first entry of an index for an operating system and an architecture. -/
def ImageIndex.findPlatform? (index : ImageIndex) (os architecture : String) : Option Descriptor :=
  index.manifests.find? fun d => d.platform.any (·.runs os architecture)

def ImageManifest.ofMediaType (mediaType : String) : ImageManifest :=
  { ofVal (shape ImageManifest).empty with mediaType := some mediaType }

def ImageIndex.ofMediaType (mediaType : String) : ImageIndex :=
  { ofVal (shape ImageIndex).empty with mediaType := some mediaType }

end AdmissionGuest
