import AdmissionGuest.Capability.Basic
import AdmissionGuest.Config
/-!
Certificates and the question whether the host trusts them. A certificate is checked against a
chain, intermediates first and the root last, and against a deadline. An empty chain means that the
certificate is to be trusted by itself; without a deadline it never expires.
-/

namespace AdmissionGuest

open Shaped

/-- How the bytes of a certificate are to be understood. -/
inductive CertificateEncoding where
  | der
  | pem
  deriving DecidableEq, Repr

instance : Named CertificateEncoding := ⟨"CertificateEncoding"⟩

instance : Shaped CertificateEncoding where
  shape := .choice "Der" ["Pem"]
  toVal
    | .der => (0 : Fin 2)
    | .pem => (1 : Fin 2)
  ofVal := fun (i : Fin 2) =>
    match i with
    | 0 => .der
    | 1 => .pem
  ofVal_toVal e := by cases e <;> rfl
  toVal_ofVal := fun (i : Fin 2) =>
    match i with
    | 0 => rfl
    | 1 => rfl

/-- A certificate; its bytes are written as a list of numbers. -/
structure Certificate where
  encoding : CertificateEncoding
  data : Bytes
  deriving DecidableEq, Repr

instance : Named Certificate := ⟨"Certificate"⟩

instance : Shaped Certificate where
  shape := .named "Certificate" <| .required "encoding" (shape CertificateEncoding) <|
    .required "data" (.list (.int .u8)) .nil
  toVal c := (toVal c.encoding, c.data, ())
  ofVal := fun (encoding, data, ()) => { encoding := ofVal encoding, data }
  ofVal_toVal _ := by simp
  toVal_ofVal := by
    intro (encoding, data, ())
    simp
    rfl

namespace Certificate

def ofPem (text : String) : Certificate := ⟨.pem, Utf8.encode text⟩

def ofDer (bytes : Bytes) : Certificate := ⟨.der, bytes⟩

/-- The bytes as text, with a replacement character for each ill-formed prefix. -/
def toText (c : Certificate) : String := Utf8.decodeLossy c.data

end Certificate

/-- A certificate, and what it is to be checked against. -/
structure CertificateVerificationRequest where
  cert : Certificate
  certChain : List Certificate
  /-- the instant at which the certificate must still be valid -/
  notAfter : Option String
  deriving DecidableEq, Repr

instance : Named CertificateVerificationRequest := ⟨"CertificateVerificationRequest"⟩

instance : Shaped CertificateVerificationRequest where
  shape := .named "CertificateVerificationRequest" <| .required "cert" (shape Certificate) <|
    .defaulted "cert_chain" (shape (List Certificate)) <| .optional "not_after" .text .nil
  toVal r := (toVal r.cert, toVal r.certChain, r.notAfter, ())
  ofVal := fun (cert, certChain, notAfter, ()) =>
    { cert := ofVal cert, certChain := ofVal certChain, notAfter }
  ofVal_toVal _ := by simp
  toVal_ofVal := by
    intro (cert, certChain, notAfter, ())
    simp
    rfl

/-- The request as it is sent: where the host expects it, a missing deadline is an empty text. -/
def CertificateVerificationRequest.onWire (encoding : ExpiryEncoding)
    (r : CertificateVerificationRequest) : CertificateVerificationRequest :=
  match encoding, r.notAfter with
  | .emptyText, none => { r with notAfter := some "" }
  | _, _ => r

/-- Whether a certificate is trusted. -/
structure CertificateVerificationResponse where
  trusted : Bool
  /-- the explanation, empty if the certificate is trusted -/
  reason : String
  deriving DecidableEq, Repr

instance : Named CertificateVerificationResponse := ⟨"CertificateVerificationResponse"⟩

instance : Shaped CertificateVerificationResponse where
  shape := .named "CertificateVerificationResponse" <| .required "trusted" .flag <|
    .defaulted "reason" .text .nil
  toVal r := (r.trusted, r.reason, ())
  ofVal := fun (trusted, reason, ()) => { trusted, reason }
  ofVal_toVal _ := rfl
  toVal_ofVal _ := rfl

namespace Capability

def certificateTrust :
    Capability CertificateVerificationRequest CertificateVerificationResponse :=
  ⟨.isCertificateTrusted⟩

end Capability

/-- Asks the host whether a certificate is trusted. That it is not is an answer and no error. -/
def verifyCertificate {η : Type} [Host η] (request : CertificateVerificationRequest)
    (encoding : ExpiryEncoding) : Guest η CertificateVerificationResponse :=
  Capability.certificateTrust.call (request.onWire encoding)

end AdmissionGuest
