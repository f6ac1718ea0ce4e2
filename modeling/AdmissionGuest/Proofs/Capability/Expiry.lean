import AdmissionGuest.Proofs.Capability.Payload
/-!
The two ways to send a request about a certificate. They differ in one member, and only if the
request has no deadline: the deadline is then an empty text under one of them and absent under the
other. Everything before that member is the same byte for byte, and the answer is whatever the reply
is read as, however the question was put.
-/

namespace AdmissionGuest

open Shaped Ascii

theorem Json.writeMembers_append (ms : List (String × Json)) :
    ∃ front, ∀ more, writeMembers (ms ++ more) = front ++ writeMembers more := by
  induction ms with
  | nil => exact ⟨[], fun _ => rfl⟩
  | cons m ms ih =>
    obtain ⟨name, x⟩ := m
    obtain ⟨front, same⟩ := ih
    refine ⟨comma :: writeText name ++ colon :: x.write ++ front, ?_⟩
    intro more
    rw [List.cons_append, writeMembers, same]
    simp

/-- Members that are added at the end of an object change nothing before them. -/
theorem Json.write_object_append {ms : List (String × Json)} (some : ms ≠ []) :
    ∃ front, ∀ more, (object (ms ++ more)).write = front ++ writeMembers more := by
  obtain ⟨⟨name, x⟩, ms, rfl⟩ := List.exists_cons_of_ne_nil some
  obtain ⟨front, same⟩ := writeMembers_append ms
  refine ⟨openObject :: writeText name ++ colon :: x.write ++ front, ?_⟩
  intro more
  rw [List.cons_append, write, same]
  simp

namespace CertificateVerificationRequest

/-- The members that say what is to be checked. -/
def certificates (r : CertificateVerificationRequest) : List (String × Json) :=
  [("cert", json r.cert), ("cert_chain", json r.certChain)]

/-- The deadline that is sent. -/
def deadline (r : CertificateVerificationRequest) : ExpiryEncoding → Option String
  | .omitted => r.notAfter
  | .emptyText => some (r.notAfter.getD "")

/-- The members that are sent. -/
def sentMembers (r : CertificateVerificationRequest) (encoding : ExpiryEncoding) :
    List (String × Json) :=
  r.certificates ++ ((r.deadline encoding).map fun text => ("not_after", Json.text text)).toList

/-- The payload that is sent. -/
def payload (r : CertificateVerificationRequest) (encoding : ExpiryEncoding) : Bytes :=
  (Json.object (r.sentMembers encoding)).write

theorem json_onWire (r : CertificateVerificationRequest) (encoding : ExpiryEncoding) :
    json (r.onWire encoding) = .object (r.sentMembers encoding) := by
  obtain ⟨cert, certChain, notAfter⟩ := r
  cases encoding <;> cases notAfter <;> rfl

theorem encode_onWire (r : CertificateVerificationRequest) (encoding : ExpiryEncoding) :
    encode (r.onWire encoding) = .ok (r.payload encoding) := by
  rw [encode_shaped, json_onWire, payload]

theorem read_payload (r : CertificateVerificationRequest) (encoding : ExpiryEncoding) :
    Json.read Json.nestingLimit (r.payload encoding) = .ok (.object (r.sentMembers encoding), []) := by
  rw [payload, ← json_onWire]
  exact read_json_of_plain rfl (by decide) _

/-- To any host, the two ways are one call and one reading of its reply. -/
theorem verifyCertificate_eq {η : Type} [Host η] (r : CertificateVerificationRequest)
    (encoding : ExpiryEncoding) :
    (verifyCertificate r encoding : Guest η CertificateVerificationResponse) =
      invoke .isCertificateTrusted (r.payload encoding) >>= fun reply =>
        MonadExcept.ofExcept (decode reply) := by
  rw [verifyCertificate, Capability.call, Capability.send, encode_onWire]
  rfl

theorem verifyCertificate_callsOnce (r : CertificateVerificationRequest)
    (encoding : ExpiryEncoding) :
    CallsOnce (verifyCertificate r encoding) .isCertificateTrusted (r.payload encoding) decode :=
  Capability.certificateTrust.call_callsOnce (encode_onWire r encoding)

/-- How a document says what is asked under one of the encodings. -/
structure Written (r : CertificateVerificationRequest) (encoding : ExpiryEncoding) (j : Json) :
    Prop where
  cert : j.get? "cert" = some (json r.cert)
  chain : j.get? "cert_chain" = some (json r.certChain)
  there : (j.get? "not_after").isSome ↔ r.notAfter ≠ none ∨ encoding = .emptyText
  given : ∀ text, r.notAfter = some text → j.get? "not_after" = some (.text text)
  missing : r.notAfter = none → encoding = .emptyText → j.get? "not_after" = some (.text "")

theorem written_sentMembers (r : CertificateVerificationRequest) (encoding : ExpiryEncoding) :
    r.Written encoding (.object (r.sentMembers encoding)) := by
  have sent : (Json.object (r.sentMembers encoding)).get? "not_after" =
      (r.deadline encoding).map .text := by
    cases h : r.deadline encoding with
    | none => simp [Json.get?, sentMembers, certificates, h]
    | some text => simp [Json.get?, sentMembers, certificates, h]
  constructor
  · rfl
  · rfl
  · rw [sent]
    cases encoding <;> cases h : r.notAfter <;> simp [deadline, h]
  · intro text given
    rw [sent]
    cases encoding <;> simp [deadline, given]
  · rintro missing rfl
    rw [sent, deadline, missing]
    rfl

/-- With a deadline both ways send that one. -/
theorem payload_of_deadline {r : CertificateVerificationRequest} (given : r.notAfter ≠ none) :
    r.payload .omitted = r.payload .emptyText := by
  obtain ⟨text, given⟩ := Option.ne_none_iff_exists'.mp given
  have same : r.deadline .omitted = r.deadline .emptyText := by
    simp [deadline, given]
  rw [payload, payload, sentMembers, sentMembers, same]

/-- Without one they part after the certificates. -/
theorem payload_of_none {r : CertificateVerificationRequest} (missing : r.notAfter = none) :
    ∃ front, r.payload .omitted = front ++ Utf8.encode "\x7d" ∧
      r.payload .emptyText = front ++ Utf8.encode ",\"not_after\":\"\"\x7d" := by
  obtain ⟨front, same⟩ := Json.write_object_append (show r.certificates ≠ [] from nofun)
  refine ⟨front, ?_, ?_⟩
  · rw [payload, sentMembers, deadline, missing, same]
    rfl
  · rw [payload, sentMembers, deadline, missing, same]
    rfl

/-- The session after the question was put again and again, each time under one of the
encodings. -/
def asked (r : CertificateVerificationRequest) (s : Session ScriptedHost)
    (encodings : List ExpiryEncoding) : Session ScriptedHost :=
  encodings.foldl (fun s encoding => ((verifyCertificate r encoding).run.run s).2) s

/-- Each time one reply is used up, and one call is added that says what it would have said at
first. -/
theorem asked_host (r : CertificateVerificationRequest) (encodings : List ExpiryEncoding)
    (s : Session ScriptedHost) :
    (r.asked s encodings).host.replies = s.host.replies.drop encodings.length ∧
      (r.asked s encodings).host.calls = s.host.calls ++
        encodings.map fun encoding => ⟨.isCertificateTrusted, r.payload encoding⟩ := by
  induction encodings generalizing s with
  | nil => exact ⟨rfl, (List.append_nil _).symm⟩
  | cons encoding encodings ih =>
    have served := (r.verifyCertificate_callsOnce encoding).host s
    obtain ⟨replies, calls⟩ := ih ((verifyCertificate r encoding).run.run s).2
    rw [served] at replies calls
    constructor
    · rw [asked, List.foldl_cons, ← asked, replies, ScriptedHost.served, List.drop_tail,
        List.length_cons]
    · rw [asked, List.foldl_cons, ← asked, calls, ScriptedHost.served, List.append_assoc]
      rfl

end CertificateVerificationRequest

/-- How a question about a certificate is put, and what does not depend on it. The two encodings
send the same bytes if there is a deadline; otherwise they send the same up to a last member, which
is an empty deadline under one of them and absent under the other. What was asked before, and under
which encodings, changes neither what is sent nor what the next reply is read as. -/
theorem expiry_exact (r : CertificateVerificationRequest) :
    ∃ sent : ExpiryEncoding → Bytes,
      (∀ (η : Type) [Host η] (encoding : ExpiryEncoding),
        (verifyCertificate r encoding : Guest η CertificateVerificationResponse) =
          invoke ⟨"kubewarden", "crypto", "v1/is_certificate_trusted"⟩ (sent encoding) >>=
            fun reply => MonadExcept.ofExcept (decode reply)) ∧
      (r.notAfter ≠ none → sent .omitted = sent .emptyText) ∧
      (r.notAfter = none → ∃ front, sent .omitted = front ++ Utf8.encode "\x7d" ∧
        sent .emptyText = front ++ Utf8.encode ",\"not_after\":\"\"\x7d") ∧
      (∀ encoding, ∃ j, Json.read Json.nestingLimit (sent encoding) = .ok (j, []) ∧
        r.Written encoding j) ∧
      ∀ (s : Session ScriptedHost) (past : List ExpiryEncoding),
        (r.asked s past).host.calls = s.host.calls ++
          past.map (fun encoding =>
            ⟨⟨"kubewarden", "crypto", "v1/is_certificate_trusted"⟩, sent encoding⟩) ∧
        ∀ encoding, ((verifyCertificate r encoding).run.run (r.asked s past)).1 =
          let reply := (s.host.replies[past.length]?).getD (.missing .isCertificateTrusted)
          if reply.successful then decode reply.body
          else .error (.hostCall "kubewarden/crypto/v1/is_certificate_trusted"
            (Utf8.decodeLossy reply.body)) := by
  refine ⟨r.payload, ?_, ?_, ?_, ?_, ?_⟩
  · intro η _ encoding
    exact r.verifyCertificate_eq encoding
  · intro given
    exact CertificateVerificationRequest.payload_of_deadline given
  · intro missing
    exact CertificateVerificationRequest.payload_of_none missing
  · intro encoding
    exact ⟨_, r.read_payload encoding, r.written_sentMembers encoding⟩
  · intro s past
    obtain ⟨replies, calls⟩ := r.asked_host past s
    refine ⟨calls, ?_⟩
    intro encoding
    rw [(r.verifyCertificate_callsOnce encoding).result, ScriptedHost.next, replies, List.head?_drop]
    rfl

/-- A question without a deadline. -/
def openEnded : CertificateVerificationRequest :=
  { cert := .ofPem "leaf", certChain := [.ofDer [0x30]], notAfter := none }

/-- A question with a deadline, which is empty. -/
def emptyDated : CertificateVerificationRequest :=
  { openEnded with notAfter := some "" }

theorem openEnded_emptyDated :
    (openEnded.notAfter = none ∧ ∃ sent : ExpiryEncoding → Bytes,
      (∃ front, sent .omitted = front ++ Utf8.encode "\x7d" ∧
        sent .emptyText = front ++ Utf8.encode ",\"not_after\":\"\"\x7d") ∧
      ∀ encoding, (verifyCertificate openEnded encoding :
          Guest ScriptedHost CertificateVerificationResponse) =
        invoke .isCertificateTrusted (sent encoding) >>= fun reply =>
          MonadExcept.ofExcept (decode reply)) ∧
    emptyDated.notAfter ≠ none ∧ ∃ sent : ExpiryEncoding → Bytes,
      sent .omitted = sent .emptyText ∧
      ∀ encoding, (verifyCertificate emptyDated encoding :
          Guest ScriptedHost CertificateVerificationResponse) =
        invoke .isCertificateTrusted (sent encoding) >>= fun reply =>
          MonadExcept.ofExcept (decode reply) := by
  obtain ⟨sent, calls, -, parted, -⟩ := expiry_exact openEnded
  obtain ⟨sent', calls', same, -⟩ := expiry_exact emptyDated
  exact ⟨⟨rfl, sent, parted rfl, calls ScriptedHost⟩, nofun, sent', same nofun,
    calls' ScriptedHost⟩

end AdmissionGuest
