import AdmissionGuest.Capability.Basic
/-!
Verification of image signatures through the host. There are four modes with one address and one
kind of answer; a request names its mode in the member `type`, and that member alone decides what
the others mean.
-/

namespace AdmissionGuest

open Shaped Scan Ascii

/-- Issuer and exact subject of a keyless signature. -/
structure KeylessInfo where
  issuer : String
  subject : String
  deriving DecidableEq, Repr

instance : Named KeylessInfo := ⟨"KeylessInfo"⟩

instance : Shaped KeylessInfo where
  shape := .named "KeylessInfo" <| .required "issuer" .text <| .required "subject" .text .nil
  toVal k := (k.issuer, k.subject, ())
  ofVal := fun (issuer, subject, ()) => { issuer, subject }
  ofVal_toVal _ := rfl
  toVal_ofVal _ := rfl

/-- Issuer of a keyless signature, and what the address of its subject begins with. -/
structure KeylessPrefixInfo where
  issuer : String
  urlPrefix : String
  deriving DecidableEq, Repr

instance : Named KeylessPrefixInfo := ⟨"KeylessPrefixInfo"⟩

instance : Shaped KeylessPrefixInfo where
  shape := .named "KeylessPrefixInfo" <| .required "issuer" .text <|
    .required "url_prefix" .text .nil
  toVal k := (k.issuer, k.urlPrefix, ())
  ofVal := fun (issuer, urlPrefix, ()) => { issuer, urlPrefix }
  ofVal_toVal _ := rfl
  toVal_ofVal _ := rfl

/-- What a signature must be made with. -/
inductive VerifyMode where
  | pubKeys
  | keyless
  | keylessPrefix
  | githubActions
  deriving DecidableEq, Repr

namespace VerifyMode

def all : List VerifyMode := [pubKeys, keyless, keylessPrefix, githubActions]

def tag : VerifyMode → String
  | pubKeys => "SigstorePubKeyVerify"
  | keyless => "SigstoreKeylessVerify"
  | keylessPrefix => "SigstoreKeylessPrefixVerify"
  | githubActions => "SigstoreGithubActionsVerify"

def ofTag? (tag : String) : Option VerifyMode :=
  all.find? fun mode => mode.tag == tag

/-- The members of the requests of a mode, apart from the tag. -/
def fields : VerifyMode → Fields
  | pubKeys => .required "image" .text <| .required "pub_keys" (.list .text) <|
    .optional "annotations" (.dict .text) .nil
  | keyless => .required "image" .text <| .required "keyless" (shape (List KeylessInfo)) <|
    .optional "annotations" (.dict .text) .nil
  | keylessPrefix => .required "image" .text <|
    .required "keyless_prefix" (shape (List KeylessPrefixInfo)) <|
    .optional "annotations" (.dict .text) .nil
  | githubActions => .required "image" .text <| .required "owner" .text <|
    .optional "repo" .text <| .optional "annotations" (.dict .text) .nil

/-- The shape of the requests of a mode, apart from the tag. -/
def shape (mode : VerifyMode) : Shape :=
  .record ("struct variant VerifyRequest::" ++ mode.tag) mode.fields

end VerifyMode

/-- A request to verify an image. Annotations must have been made by every signer. -/
inductive VerifyRequest where
  | pubKeys (image : String) (keys : List String) (annotations : Option (Dict String String))
  | keyless (image : String) (signers : List KeylessInfo)
    (annotations : Option (Dict String String))
  | keylessPrefix (image : String) (signers : List KeylessPrefixInfo)
    (annotations : Option (Dict String String))
  | githubActions (image owner : String) (repo : Option String)
    (annotations : Option (Dict String String))
  deriving DecidableEq

instance : Named VerifyRequest := ⟨"VerifyRequest"⟩

namespace VerifyRequest

def mode : VerifyRequest → VerifyMode
  | pubKeys _ _ _ => .pubKeys
  | keyless _ _ _ => .keyless
  | keylessPrefix _ _ _ => .keylessPrefix
  | githubActions _ _ _ _ => .githubActions

def toVal : (r : VerifyRequest) → r.mode.fields.Val
  | pubKeys image keys annotations => (image, keys, annotations, ())
  | keyless image signers annotations => (image, Shaped.toVal signers, annotations, ())
  | keylessPrefix image signers annotations => (image, Shaped.toVal signers, annotations, ())
  | githubActions image owner repo annotations => (image, owner, repo, annotations, ())

/-- The request of a mode with given values of its members. -/
def ofVal : (mode : VerifyMode) → mode.fields.Val → VerifyRequest
  | .pubKeys, (image, keys, annotations, ()) => pubKeys image keys annotations
  | .keyless, (image, signers, annotations, ()) => keyless image (Shaped.ofVal signers) annotations
  | .keylessPrefix, (image, signers, annotations, ()) =>
    keylessPrefix image (Shaped.ofVal signers) annotations
  | .githubActions, (image, owner, repo, annotations, ()) =>
    githubActions image owner repo annotations

def tagName : String := "type"

/-- The document of a request; its tag comes first. -/
def json (r : VerifyRequest) : Json :=
  .object ((tagName, .text r.mode.tag) :: r.mode.fields.members r.toVal)

def readTag : Reader VerifyMode := fun bytes => do
  let (tag, rest) ← Shape.readText "variant identifier" bytes
  match VerifyMode.ofTag? tag with
  | some mode => return (mode, rest)
  | none => faultAfter (.unknownChoice tag (VerifyMode.all.map VerifyMode.tag)) rest

/-- Reads a member: the tag at once, because nothing else depends on where it stands, any other
member as it is. -/
def readMember (depth : Nat) (name : String) :
    Option VerifyMode × List (String × Json) → Reader (Option VerifyMode × List (String × Json))
  | (some mode, members) =>
    if name = tagName then faultOver closeObject (.repeatedMember tagName)
    else do
      memberColon
      return (some mode, (name, ← Json.read depth) :: members)
  | (none, members) => do
    memberColon
    if name = tagName then return (some (← readTag), members)
    else return (none, (name, ← Json.read depth) :: members)

/-- Reads the mode of a request, and its other members or items as they are. -/
def readParts (depth : Nat) : Reader (VerifyMode × Json) := fun bytes =>
  match skipBlanks bytes with
  | [] => faultAt .endInValue []
  | b :: rest =>
    if b = openObject then
      let object depth : Reader (VerifyMode × Json) := fun bytes => do
        let ((mode?, members), bytes) ← objectBody (readMember depth) (none, []) bytes
        match mode? with
        | some mode => return ((mode, .object members.reverse), bytes)
        | none => faultAfter (.missingMember tagName) bytes
      Shape.entering depth object (b :: rest)
    else if b = openList then
      let list depth : Reader (VerifyMode × Json) := fun bytes => do
        let (more, bytes) ← nextItem true bytes
        if more then
          let (mode, bytes) ← readTag bytes
          let (xs, bytes) ← restOfList false (Json.read depth) bytes
          return ((mode, .list xs), bytes)
        else faultOver closeList (.missingMember tagName) bytes
      Shape.entering depth list (b :: rest)
    else Shape.mismatch "internally tagged enum VerifyRequest" (b :: rest)

/-- Reads a request. Its members can be understood only when its mode is known, so they are viewed
at the end; their faults have no place in the document any more. -/
def read : Reader VerifyRequest := fun bytes => do
  let ((mode, j), rest) ← readParts Json.nestingLimit bytes
  match mode.shape.view .inBuffer j with
  | .ok v => return (ofVal mode v, rest)
  | .error cause => .error ⟨cause, none⟩

end VerifyRequest

instance : ToDocument VerifyRequest := ⟨fun r => .ok r.json⟩

instance : OfDocument VerifyRequest := ⟨VerifyRequest.read⟩

/-- Whether the signatures of an image are trusted, in any mode. -/
structure VerificationResponse where
  isTrusted : Bool
  /-- the digest of what was verified -/
  digest : String
  deriving DecidableEq, Repr

instance : Named VerificationResponse := ⟨"VerificationResponse"⟩

instance : Shaped VerificationResponse where
  shape := .named "VerificationResponse" <| .required "is_trusted" .flag <|
    .required "digest" .text .nil
  toVal r := (r.isTrusted, r.digest, ())
  ofVal := fun (isTrusted, digest, ()) => { isTrusted, digest }
  ofVal_toVal _ := rfl
  toVal_ofVal _ := rfl

namespace Capability

def verify : Capability VerifyRequest VerificationResponse := ⟨.verify⟩

end Capability

variable {η : Type} [Host η]

def verifyPubKeys (image : String) (keys : List String)
    (annotations : Option (Dict String String)) : Guest η VerificationResponse :=
  Capability.verify.call (.pubKeys image keys annotations)

def verifyKeyless (image : String) (signers : List KeylessInfo)
    (annotations : Option (Dict String String)) : Guest η VerificationResponse :=
  Capability.verify.call (.keyless image signers annotations)

/-- Verifies keyless signatures by how their subjects begin. -/
def verifyKeylessPrefix (image : String) (signers : List KeylessPrefixInfo)
    (annotations : Option (Dict String String)) : Guest η VerificationResponse :=
  Capability.verify.call (.keylessPrefix image signers annotations)

/-- Verifies keyless signatures made by the workflows of an owner, or of one of its repositories. -/
def verifyGithubActions (image owner : String) (repo : Option String)
    (annotations : Option (Dict String String)) : Guest η VerificationResponse :=
  Capability.verify.call (.githubActions image owner repo annotations)

end AdmissionGuest
