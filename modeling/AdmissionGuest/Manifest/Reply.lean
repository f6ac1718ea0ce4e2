import AdmissionGuest.Log.Event
import AdmissionGuest.Manifest.Basic
import AdmissionGuest.Manifest.MediaType
/-!
Telling an image manifest from an image index. A registry reply wraps either of them under a name of
its own, but that name is not trusted: only the media type inside decides. A document that is
labelled properly and otherwise malformed is kept as its media type alone.
-/

namespace AdmissionGuest

open Shaped

/-- What a registry has under the name of an image. -/
inductive OciManifestResponse where
  | image (manifest : ImageManifest)
  | index (index : ImageIndex)
  deriving DecidableEq

namespace OciManifestResponse

def mediaType? : OciManifestResponse → Option String
  | image m => m.mediaType
  | index i => i.mediaType

def kind : OciManifestResponse → String
  | image _ => "image"
  | index _ => "index"

def json : OciManifestResponse → Json
  | image m => Shaped.json m
  | index i => Shaped.json i

def cannotDecode : String := "cannot decode response"

/-- The failure for a reply that is neither of the two. -/
def rejected : Error := .decode "OciManifestResponse" cannotDecode

/-- The document under a name, with its media type, if that is an accepted one. -/
def labelled? (name : String) (accepted : String → Bool) (reply : Json) :
    Option (Json × String) := do
  let nested ← reply.get? name
  let mediaType ← (← nested.get? "mediaType").text?
  if accepted mediaType then some (nested, mediaType) else none

/-- A document as a value of a type or, if it is none, what is known from its media type; in that
case the log says why. -/
def viewOr {α : Type} [Shaped α] (kind : String) (fallback : String → α) (nested : Json)
    (mediaType : String) : α × List Event :=
  match view Kept.asValue nested with
  | .ok a => (a, [])
  | .error cause => (fallback mediaType, [.manifestReduced kind cause.message])

/-- Classifies a reply by the media types inside; a manifest goes before an index. -/
def classify (reply : Value) : Except Error (OciManifestResponse × List Event) :=
  match labelled? "image" MediaType.isImageManifest reply.json with
  | some (nested, mediaType) =>
    let (manifest, log) := viewOr "manifest" ImageManifest.ofMediaType nested mediaType
    .ok (image manifest, log)
  | none =>
    match labelled? "index" MediaType.isImageIndex reply.json with
    | some (nested, mediaType) =>
      let (view, log) := viewOr "index" ImageIndex.ofMediaType nested mediaType
      .ok (index view, log)
    | none => .error rejected

/-- Classifies the bytes of a reply. Bytes that are no document are neither of the two. -/
def classifyReply (reply : Bytes) : Except Error (OciManifestResponse × List Event) :=
  match decode (α := Value) reply with
  | .ok v => classify v
  | .error _ => .error rejected

end OciManifestResponse

end AdmissionGuest
