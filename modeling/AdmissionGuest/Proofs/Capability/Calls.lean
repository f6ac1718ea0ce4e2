import AdmissionGuest.Capability.Certificate
import AdmissionGuest.Capability.Cluster
import AdmissionGuest.Capability.Network
import AdmissionGuest.Capability.Registry
import AdmissionGuest.Capability.Signature
import AdmissionGuest.Proofs.Document
import AdmissionGuest.Proofs.Host.Replay
import AdmissionGuest.Proofs.Manifest.Classification
/-!
Every capability is used by one call: the request goes to the address of the capability, one reply
is used up, and the flag of that reply alone decides whether it is read as an answer or is the text
of an error.
-/

namespace AdmissionGuest

namespace ScriptedHost

/-- The reply to the next call. -/
def next (address : Address) (h : ScriptedHost) : Reply :=
  h.replies.head?.getD (.missing address)

/-- The host after a call whose reply was read. -/
def served (address : Address) (payload : Bytes) (h : ScriptedHost) : ScriptedHost :=
  ⟨h.replies.tail, h.calls ++ [⟨address, payload⟩], none⟩

theorem receive_eq (address : Address) (payload : Bytes) (h : ScriptedHost) :
    h.receive address payload =
      ((h.next address).successful,
        { h.served address payload with pending := some (h.next address).body }) := by
  obtain ⟨replies, calls, pending⟩ := h
  cases replies <;> rfl

end ScriptedHost

variable {α β : Type} {address : Address} {payload : Bytes}

/-- An action that calls the host once, and gives what the reply of a successful call is read as. -/
structure CallsOnce (action : Guest ScriptedHost α) (address : Address) (payload : Bytes)
    (answer : Bytes → Except Error α) : Prop where
  host : ∀ s, (action.run.run s).2.host = s.host.served address payload
  input : ∀ s, (action.run.run s).2.input = s.input
  result : ∀ s, (action.run.run s).1 =
    if (s.host.next address).successful then answer (s.host.next address).body
    else .error (.hostCall address.shown (Utf8.decodeLossy (s.host.next address).body))

/-- An action that does nothing but log, and gives the same in every session. -/
structure Quiet (action : Guest ScriptedHost α) (result : Except Error α) : Prop where
  host : ∀ s, (action.run.run s).2.host = s.host
  input : ∀ s, (action.run.run s).2.input = s.input
  result : ∀ s, (action.run.run s).1 = result

theorem quiet_ofExcept (x : Except Error α) : Quiet (MonadExcept.ofExcept x) x := by
  constructor <;> intro s <;> rw [Guest.ofExcept_run]

theorem quiet_record (event : Event) : Quiet (modify (Session.record event)) (.ok ()) :=
  ⟨fun _ => rfl, fun _ => rfl, fun _ => rfl⟩

/-- What is quiet adds nothing to the effects of what goes before it. -/
theorem quiet_afterwards (action : Guest ScriptedHost α) {next : α → Guest ScriptedHost β}
    {f : α → Except Error β} (quiet : ∀ a, Quiet (next a) (f a)) (s : Session ScriptedHost) :
    ((action >>= next).run.run s).1 = (action.run.run s).1 >>= f ∧
      ((action >>= next).run.run s).2.host = (action.run.run s).2.host ∧
      ((action >>= next).run.run s).2.input = (action.run.run s).2.input := by
  cases done : action.run.run s with
  | mk result t =>
    cases result with
    | error e =>
      rw [Guest.bind_error done]
      exact ⟨rfl, rfl, rfl⟩
    | ok a =>
      rw [Guest.bind_ok done]
      exact ⟨(quiet a).result t, (quiet a).host t, (quiet a).input t⟩

theorem Quiet.bind {action : Guest ScriptedHost α} {result : Except Error α}
    (quiet : Quiet action result) {next : α → Guest ScriptedHost β} {f : α → Except Error β}
    (later : ∀ a, Quiet (next a) (f a)) : Quiet (action >>= next) (result >>= f) := by
  constructor
  · intro s
    rw [(quiet_afterwards action later s).2.1, quiet.host]
  · intro s
    rw [(quiet_afterwards action later s).2.2, quiet.input]
  · intro s
    rw [(quiet_afterwards action later s).1, quiet.result]

theorem ScriptedHost.call_eq (address : Address) (payload : Bytes) (s : Session ScriptedHost) :
    Host.call address payload s =
      ((s.host.next address).successful,
        { s with host := { s.host.served address payload with
          pending := some (s.host.next address).body } }) := by
  change ((s.host.receive address payload).1,
    { s with host := (s.host.receive address payload).2 }) = _
  rw [s.host.receive_eq]

theorem invoke_callsOnce (address : Address) (payload : Bytes) :
    CallsOnce (invoke address payload) address payload .ok := by
  have run (s : Session ScriptedHost) :=
    invoke_replied (ScriptedHost.call_eq address payload (s.record _)) Replay.reply_run
  constructor
  · intro s
    rw [run]
    split <;> rfl
  · intro s
    rw [run]
    split <;> rfl
  · intro s
    rw [run]
    exact apply_ite Prod.fst _ _ _

theorem CallsOnce.after {action : Guest ScriptedHost α} {a : α} (quiet : Quiet action (.ok a))
    {next : α → Guest ScriptedHost β} {answer : Bytes → Except Error β}
    (calls : CallsOnce (next a) address payload answer) :
    CallsOnce (action >>= next) address payload answer := by
  have run (s : Session ScriptedHost) : (action >>= next).run.run s =
      (next a).run.run (action.run.run s).2 :=
    Guest.bind_ok (Prod.ext (quiet.result s) rfl) next
  -- The quiet action leaves the queue alone, so the call meets the reply it would have met before.
  constructor
  · intro s
    rw [run, calls.host, quiet.host]
  · intro s
    rw [run, calls.input, quiet.input]
  · intro s
    rw [run, calls.result, quiet.host]

/-- After the call its answer is worked on without a second call. -/
theorem CallsOnce.bind {action : Guest ScriptedHost α} {answer : Bytes → Except Error α}
    (calls : CallsOnce action address payload answer) {next : α → Guest ScriptedHost β}
    {f : α → Except Error β} (quiet : ∀ a, Quiet (next a) (f a)) :
    CallsOnce (action >>= next) address payload fun reply => answer reply >>= f := by
  constructor
  · intro s
    rw [(quiet_afterwards action quiet s).2.1, calls.host]
  · intro s
    rw [(quiet_afterwards action quiet s).2.2, calls.input]
  · intro s
    rw [(quiet_afterwards action quiet s).1, calls.result]
    split <;> rfl

theorem CallsOnce.congr {action : Guest ScriptedHost α} {answer answer' : Bytes → Except Error α}
    (calls : CallsOnce action address payload answer)
    (same : ∀ reply, answer reply = answer' reply) : CallsOnce action address payload answer' :=
  funext same ▸ calls

/-! Capabilities -/

/-- An action that calls a capability with a request. What its reply is read as is either a value or
an error that names the type of the answer. -/
structure Asks {Request : Type} [Named Request] [ToDocument Request] (action : Guest ScriptedHost α)
    (address : Address) (request : Request) (type : String) (answer : Bytes → Except Error α) :
    Prop where
  calls : ∃ payload, encode request = .ok payload ∧ CallsOnce action address payload answer
  named : ∀ reply e, answer reply = .error e → ∃ reason, e = .decode type reason

section Capabilities

variable {Request Response : Type} [Named Request] [ToDocument Request]

theorem decode_error {α : Type} [Named α] [OfDocument α] {reply : Bytes} {e : Error}
    (failed : decode (α := α) reply = .error e) : ∃ reason, e = .decode (label α) reason := by
  unfold decode at failed
  split at failed
  next => exact nomatch failed
  next fault _ =>
    cases failed
    exact ⟨fault.message reply, rfl⟩

theorem Capability.send_callsOnce (c : Capability Request Response) {request : Request}
    (encoded : encode request = .ok payload) :
    CallsOnce (c.send request) c.address payload .ok :=
  .after (encoded ▸ quiet_ofExcept (encode request)) (invoke_callsOnce c.address payload)

variable [Named Response] [OfDocument Response]

theorem Capability.call_callsOnce (c : Capability Request Response) {request : Request}
    (encoded : encode request = .ok payload) :
    CallsOnce (c.call request) c.address payload decode :=
  (c.send_callsOnce encoded).bind fun reply => quiet_ofExcept (decode reply)

theorem Capability.call_asks (c : Capability Request Response) {request : Request}
    (encoded : encode request = .ok payload) :
    Asks (c.call request) c.address request (label Response) decode :=
  ⟨⟨payload, encoded, c.call_callsOnce encoded⟩, fun _ _ => decode_error⟩

end Capabilities

theorem quiet_log (log : List Event) :
    Quiet (modify fun s => log.foldl (fun s event => s.record event) s) (.ok ()) := by
  have kept (s : Session ScriptedHost) :
      (log.foldl (fun s event => s.record event) s).host = s.host ∧
        (log.foldl (fun s event => s.record event) s).input = s.input := by
    induction log generalizing s with
    | nil => exact ⟨rfl, rfl⟩
    | cons event log ih => exact ih (s.record event)
  exact ⟨fun s => (kept s).1, fun s => (kept s).2, fun _ => rfl⟩

theorem error_of_map {ε : Type} {f : α → β} {x : Except ε α} {e : ε}
    (failed : f <$> x = .error e) : x = .error e := by
  cases x with
  | ok a => exact nomatch failed
  | error e' =>
    cases failed
    rfl

theorem manifestDigest_asks (image : String) :
    Asks (manifestDigest image) Address.manifestDigest image "ManifestDigestResponse"
      fun reply => ManifestDigestResponse.digest <$> decode reply := by
  constructor
  · refine ⟨_, encode_shaped image, ?_⟩
    apply ((Capability.manifestDigest.call_callsOnce (encode_shaped image)).bind
      fun response => quiet_ofExcept (.ok response.digest)).congr
    intro reply
    cases decode (α := ManifestDigestResponse) reply <;> rfl
  · intro reply e failed
    exact decode_error (error_of_map failed)

theorem classifyReply_error {reply : Bytes} {e : Error}
    (failed : OciManifestResponse.classifyReply reply = .error e) :
    e = OciManifestResponse.rejected := by
  unfold OciManifestResponse.classifyReply at failed
  split at failed
  next v _ =>
    have classified := OciManifestResponse.classify_classified v
    rw [failed] at classified
    cases classified
    rfl
  next =>
    cases failed
    rfl

theorem manifest_asks (image : String) :
    Asks (manifest image) Address.ociManifest image "OciManifestResponse"
      fun reply => Prod.fst <$> OciManifestResponse.classifyReply reply := by
  constructor
  · refine ⟨_, encode_shaped image, ?_⟩
    -- What was found is only logged after the call.
    have tell (found : OciManifestResponse × List Event) :=
      (quiet_log found.2).bind fun _ =>
        (quiet_record (.manifestClassified image found.1.mediaType?)).bind fun _ =>
          quiet_ofExcept (.ok found.1)
    apply ((Capability.ociManifest.send_callsOnce (encode_shaped image)).bind fun reply =>
      (quiet_ofExcept (OciManifestResponse.classifyReply reply)).bind tell).congr
    intro reply
    change (OciManifestResponse.classifyReply reply >>= fun found => .ok found.1) = _
    cases OciManifestResponse.classifyReply reply <;> rfl
  · intro reply e failed
    exact ⟨_, classifyReply_error (error_of_map failed)⟩

theorem onWire_eq (request : CertificateVerificationRequest) (encoding : ExpiryEncoding) :
    request.onWire encoding =
      { request with
        notAfter := if encoding = ExpiryEncoding.emptyText then some (request.notAfter.getD "")
          else request.notAfter } := by
  obtain ⟨cert, certChain, notAfter⟩ := request
  cases encoding <;> cases notAfter <;> rfl

theorem verifyCertificate_asks (request : CertificateVerificationRequest)
    (encoding : ExpiryEncoding) :
    Asks (verifyCertificate request encoding) Address.isCertificateTrusted
      { request with
        notAfter := if encoding = ExpiryEncoding.emptyText then some (request.notAfter.getD "")
          else request.notAfter }
      "CertificateVerificationResponse" decode := by
  rw [← onWire_eq]
  exact Capability.certificateTrust.call_asks (encode_shaped _)

theorem verify_asks (request : VerifyRequest) :
    Asks (Capability.verify.call request) Address.verify request "VerificationResponse" decode :=
  Capability.verify.call_asks rfl

/-- Every capability is used by one call to its own address, and fails in no other way than by that
call or by a reply that is no answer. Resources and lists of them may be read in any way. -/
theorem capabilities_call_once :
    (∀ (Item : Type) [Named Item] [OfDocument Item] (request : GetResourceRequest),
      Asks ((Capability.getResource Item).call request)
        ⟨"kubewarden", "kubernetes", "get_resource"⟩ request (label Item) decode) ∧
    (∀ (Item : Type) [Named Item] [OfDocument (ObjectList Item)] (request : ListResourcesByNamespaceRequest),
      Asks ((Capability.listByNamespace Item).call request)
        ⟨"kubewarden", "kubernetes", "list_resources_by_namespace"⟩ request
        (label (ObjectList Item)) decode) ∧
    (∀ (Item : Type) [Named Item] [OfDocument (ObjectList Item)] (request : ListAllResourcesRequest),
      Asks ((Capability.listAll Item).call request)
        ⟨"kubewarden", "kubernetes", "list_resources_all"⟩ request
        (label (ObjectList Item)) decode) ∧
    (∀ request : CanIRequest,
      Asks (Capability.canI.call request) ⟨"kubewarden", "kubernetes", "can_i"⟩ request
        "SubjectAccessReviewStatus" decode) ∧
    (∀ image : String,
      Asks (manifestDigest image) ⟨"kubewarden", "oci", "v1/manifest_digest"⟩ image
        "ManifestDigestResponse" fun reply => ManifestDigestResponse.digest <$> decode reply) ∧
    (∀ image : String,
      Asks (manifest image) ⟨"kubewarden", "oci", "v1/oci_manifest"⟩ image
        "OciManifestResponse" fun reply => Prod.fst <$> OciManifestResponse.classifyReply reply) ∧
    (∀ image : String,
      Asks (manifestAndConfig image) ⟨"kubewarden", "oci", "v1/oci_manifest_config"⟩ image
        "ManifestAndConfigResponse" decode) ∧
    (∀ host : String,
      Asks (Capability.dnsLookup.call host) ⟨"kubewarden", "net", "v1/dns_lookup_host"⟩ host
        "DnsLookupResponse" decode) ∧
    (∀ (request : CertificateVerificationRequest) (encoding : ExpiryEncoding),
      Asks (verifyCertificate request encoding)
        ⟨"kubewarden", "crypto", "v1/is_certificate_trusted"⟩
        { request with
          notAfter := if encoding = ExpiryEncoding.emptyText then some (request.notAfter.getD "")
            else request.notAfter }
        "CertificateVerificationResponse" decode) ∧
    (∀ request : VerifyRequest,
      Asks (Capability.verify.call request) ⟨"kubewarden", "oci", "v2/verify"⟩ request
        "VerificationResponse" decode) ∧
    (∀ image keys annotations,
      Asks (verifyPubKeys image keys annotations) ⟨"kubewarden", "oci", "v2/verify"⟩
        (VerifyRequest.pubKeys image keys annotations) "VerificationResponse" decode) ∧
    (∀ image signers annotations,
      Asks (verifyKeyless image signers annotations) ⟨"kubewarden", "oci", "v2/verify"⟩
        (VerifyRequest.keyless image signers annotations) "VerificationResponse" decode) ∧
    (∀ image signers annotations,
      Asks (verifyKeylessPrefix image signers annotations) ⟨"kubewarden", "oci", "v2/verify"⟩
        (VerifyRequest.keylessPrefix image signers annotations) "VerificationResponse" decode) ∧
    (∀ image owner repo annotations,
      Asks (verifyGithubActions image owner repo annotations) ⟨"kubewarden", "oci", "v2/verify"⟩
        (VerifyRequest.githubActions image owner repo annotations) "VerificationResponse"
        decode) ∧
    (∀ (η : Type) [Host η] (image : String) (annotations : Option (Dict String String)),
      (∀ keys, (verifyPubKeys image keys annotations : Guest η VerificationResponse) =
        Capability.verify.call (.pubKeys image keys annotations)) ∧
      (∀ signers, (verifyKeyless image signers annotations : Guest η VerificationResponse) =
        Capability.verify.call (.keyless image signers annotations)) ∧
      (∀ signers, (verifyKeylessPrefix image signers annotations : Guest η VerificationResponse) =
        Capability.verify.call (.keylessPrefix image signers annotations)) ∧
      (∀ owner repo,
        (verifyGithubActions image owner repo annotations : Guest η VerificationResponse) =
          Capability.verify.call (.githubActions image owner repo annotations))) := by
  refine ⟨?_, ?_, ?_, ?_, manifestDigest_asks, manifest_asks, ?_, ?_, verifyCertificate_asks,
    verify_asks, ?_, ?_, ?_, ?_, ?_⟩
  · intro Item _ _ request
    exact (Capability.getResource Item).call_asks (encode_shaped request)
  · intro Item _ _ request
    exact (Capability.listByNamespace Item).call_asks (encode_shaped request)
  · intro Item _ _ request
    exact (Capability.listAll Item).call_asks (encode_shaped request)
  · intro request
    exact Capability.canI.call_asks (encode_shaped request)
  · intro image
    exact Capability.ociManifestConfig.call_asks (encode_shaped image)
  · intro host
    exact Capability.dnsLookup.call_asks (encode_shaped host)
  · intro image keys annotations
    exact verify_asks (.pubKeys image keys annotations)
  · intro image signers annotations
    exact verify_asks (.keyless image signers annotations)
  · intro image signers annotations
    exact verify_asks (.keylessPrefix image signers annotations)
  · intro image owner repo annotations
    exact verify_asks (.githubActions image owner repo annotations)
  · intro η _ image annotations
    exact ⟨fun _ => rfl, fun _ => rfl, fun _ => rfl, fun _ _ => rfl⟩

end AdmissionGuest
