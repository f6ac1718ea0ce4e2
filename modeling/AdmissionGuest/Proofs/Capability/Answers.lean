import AdmissionGuest.Proofs.Capability.Calls
import AdmissionGuest.Proofs.Manifest.Wrapped
/-!
What the host answers is what the caller gets. The answers are written by their types and read back
by the same types, so no member is dropped, renamed or replaced by a default on the way.
-/

namespace AdmissionGuest

open Shaped

section Obtaining

variable {η : Type} [Host η] {Request Response α : Type} {s : Session η} {payload reply : Bytes}

/-- The host answers a call in a session with success, and this reply is there to be read. -/
def Session.Answered (s : Session η) (address : Address) (payload reply : Bytes) : Prop :=
  ∃ t u, Host.call address payload (s.record (.callMade address payload.length)) = (true, t) ∧
    (Host.reply : Guest η Bytes).run.run t = (.ok reply, u)

theorem ScriptedHost.answered {s : Session ScriptedHost} {address : Address}
    (next : s.host.next address = ⟨true, reply⟩) : s.Answered address payload reply := by
  have recorded : (s.record (.callMade address payload.length)).host.next address = ⟨true, reply⟩ :=
    next
  have called := ScriptedHost.call_eq address payload (s.record (.callMade address payload.length))
  rw [recorded] at called
  exact ⟨_, _, called, rfl⟩

/-- An action that sends a request to an address, and gives a value wherever the host answers the
request with a reply. -/
def Obtains [Named Request] [ToDocument Request] (action : Guest η α) (address : Address)
    (request : Request) (reply : Bytes) (a : α) : Prop :=
  ∃ payload, encode request = .ok payload ∧
    ∀ s : Session η, s.Answered address payload reply → (action.run.run s).1 = .ok a

/-- An action that makes a value of a response, wherever the host answers its request with that
response. -/
def Delivers [Named Request] [ToDocument Request] [Named Response] [ToDocument Response]
    (action : Guest η α) (address : Address) (request : Request) (response : Response) (a : α) :
    Prop :=
  ∃ reply, encode response = .ok reply ∧ Obtains action address request reply a

variable [Named Request] [ToDocument Request] {c : Capability Request Response} {request : Request}

theorem Capability.send_answered (encoded : encode request = .ok payload)
    (answered : s.Answered c.address payload reply) :
    ∃ t, (c.send request).run.run s = (.ok reply, t) := by
  have written : (MonadExcept.ofExcept (encode request) : Guest η Bytes).run.run s =
      (.ok payload, s) := by
    rw [Guest.ofExcept_run, encoded]
  obtain ⟨t, u, called, replied⟩ := answered
  refine ⟨u.record (.callSucceeded c.address reply.length), ?_⟩
  rw [Capability.send, Guest.bind_ok written, invoke_replied called replied, if_pos rfl]

variable [Named Response] [OfDocument Response] {response : Response}

theorem Capability.call_answered (encoded : encode request = .ok payload)
    (decoded : decode reply = .ok response) (answered : s.Answered c.address payload reply) :
    ∃ t, (c.call request).run.run s = (.ok response, t) := by
  obtain ⟨t, sent⟩ := send_answered encoded answered
  refine ⟨t, ?_⟩
  rw [Capability.call, Guest.bind_ok sent, Guest.ofExcept_run, decoded]

theorem Capability.call_obtains (encoded : encode request = .ok payload)
    (decoded : decode reply = .ok response) :
    Obtains (c.call request : Guest η Response) c.address request reply response := by
  refine ⟨payload, encoded, fun s answered => ?_⟩
  obtain ⟨t, done⟩ := call_answered encoded decoded answered
  rw [done]

end Obtaining

/-- A session with a host that has one reply to give. -/
def Session.serving (reply : Bytes) : Session ScriptedHost :=
  ⟨⟨[], 0, 0⟩, ⟨[⟨true, reply⟩], [], none⟩, []⟩

theorem Session.serving_answered {address : Address} {payload reply : Bytes} :
    (serving reply).Answered address payload reply :=
  ScriptedHost.answered rfl

theorem Delivers.serving {Request Response α : Type} [Named Request] [ToDocument Request]
    [Named Response] [ToDocument Response] {action : Guest ScriptedHost α} {address : Address}
    {request : Request} {response : Response} {a : α}
    (delivers : Delivers action address request response a) :
    ∃ reply, encode response = .ok reply ∧
      (action.run.run (Session.serving reply)).1 = .ok a := by
  obtain ⟨reply, encoded, _, _, obtains⟩ := delivers
  exact ⟨reply, encoded, obtains _ Session.serving_answered⟩

/-! Responses that arrive as they are -/

section Responses

variable {Response : Type} [Shaped Response]

/-- A response that a host can send: the documents it carries hold integers only, and it is not
nested deeper than documents are read. -/
structure Sendable (r : Response) : Prop where
  whole : (shape Response).Carries Json.Whole (toVal r)
  fits : (json r).height ≤ Json.nestingLimit

theorem Sendable.decode_json [Named Response] {r : Response} (sendable : Sendable r)
    (proper : (shape Response).Proper)
    (settled : (shape Response).settle (toVal r) = toVal r) : decode (json r).write = .ok r := by
  have whole := (shape Response).json_inherits Json.whole_inherited (toVal r) sendable.whole
  exact AdmissionGuest.decode_json proper settled (read_document whole sendable.fits)

theorem ObjectList.settle_eq (l : ObjectList Value) (known : l.metadata ≠ some .null) :
    (shape (ObjectList Value)).settle (toVal l) = toVal l := by
  refine Prod.ext ?_ (Prod.ext ?_ (Prod.ext ?_ (Prod.ext ?_ rfl)))
  · exact Presence.settle_of_plain (p := .optional) (s := .text) rfl l.apiVersion
  · exact Presence.settle_of_plain (p := .optional) (s := .text) rfl l.kind
  · apply Presence.settle_eq (p := .optional)
    intro metadata given
    refine ⟨fun _ => Bool.eq_false_iff.mpr fun null => known ?_, rfl⟩
    have same : metadata = Value.null := Value.ext (Json.isNull_iff.mp null)
    rw [← same]
    exact given
  · exact (shape (List Value)).settle_of_steady rfl _

end Responses

section Capabilities

variable {η : Type} [Host η] {Request Response : Type} [Named Request] [ToDocument Request]
  [Named Response] [Shaped Response] {request : Request} {payload : Bytes}

theorem Capability.call_delivers (c : Capability Request Response)
    (encoded : encode request = .ok payload) {r : Response}
    (arrives : decode (json r).write = .ok r) :
    Delivers (c.call request : Guest η Response) c.address request r r :=
  ⟨_, encode_shaped r, call_obtains encoded arrives⟩

theorem Capability.call_delivers_plain (c : Capability Request Response)
    (encoded : encode request = .ok payload) (plain : (shape Response).plain = true)
    (fits : (shape Response).extent ≤ Json.nestingLimit) (proper : (shape Response).Proper)
    (r : Response) : Delivers (c.call request : Guest η Response) c.address request r r :=
  c.call_delivers encoded (decode_json_of_plain plain fits r proper)

theorem manifestDigest_delivers (image : String) (r : ManifestDigestResponse) :
    Delivers (manifestDigest image : Guest η String) .manifestDigest image r r.digest := by
  refine ⟨_, encode_shaped r, _, encode_shaped image, fun s answered => ?_⟩
  have arrives := decode_json_of_plain rfl (by decide) r (by decide)
  obtain ⟨t, done⟩ := Capability.call_answered (c := Capability.manifestDigest)
    (encode_shaped image) arrives answered
  rw [manifestDigest, Guest.bind_ok done]
  rfl

theorem manifest_obtains {image : String} {reply : Bytes} {response : OciManifestResponse}
    {log : List Event}
    (classified : OciManifestResponse.classifyReply reply = .ok (response, log)) :
    Obtains (manifest image : Guest η OciManifestResponse) .ociManifest image reply response := by
  refine ⟨_, encode_shaped image, fun s answered => ?_⟩
  obtain ⟨t, sent⟩ := Capability.send_answered (c := Capability.ociManifest)
    (encode_shaped image) answered
  rw [manifest, Guest.bind_ok sent, classified]
  rfl

end Capabilities

/-! Samples of what a host answers -/

/-- A document with a number in it. -/
def sampleResource : Value := .ofJson (.object [("replicas", .number (.int 3))])

def sampleList : ObjectList Value := ⟨some "v1", some "List", some sampleResource, [sampleResource]⟩

def sampleManifest : ImageManifest := .ofMediaType MediaType.ociImageManifest

def sampleIndex : ImageIndex := .ofMediaType MediaType.dockerManifestList

/-- A configuration with a port that carries a document. -/
def sampleConfig : ImageConfiguration :=
  { (ofVal (shape ImageConfiguration).empty : ImageConfiguration) with
    config := some { (ofVal (shape ContainerConfig).empty : ContainerConfig) with
      exposedPorts := some (Dict.empty.insert "80/tcp" sampleResource) } }

def sampleImage : ManifestAndConfigResponse := ⟨sampleManifest, "sha256:0", sampleConfig⟩

theorem sampleResource_whole : sampleResource.json.Whole := by
  simp [sampleResource, Value.ofJson, Json.canonical, Json.canonicalMembers, Entries.ofList,
    Entries.insert, Json.Whole, Json.WholeMembers, Number.Whole]

theorem sampleList_sendable : Sendable sampleList := by
  refine ⟨⟨fun _ _ => trivial, fun _ _ => trivial, ?_, ?_, trivial⟩, by decide⟩
  · rintro _ ⟨⟩
    exact sampleResource_whole
  · rintro _ ⟨⟩ x member
    obtain rfl := List.mem_singleton.mp member
    exact sampleResource_whole

theorem sampleConfig_carries :
    (shape ImageConfiguration).Carries Json.Whole (toVal sampleConfig) := by
  have ports : ∀ e ∈ (Dict.empty.insert "80/tcp" sampleResource).entries, e.2.json.Whole := by
    intro e member
    obtain rfl := List.mem_singleton.mp member
    exact sampleResource_whole
  have container : (shape ContainerConfig).Carries Json.Whole (toVal
      { (ofVal (shape ContainerConfig).empty : ContainerConfig) with
        exposedPorts := some (Dict.empty.insert "80/tcp" sampleResource) }) := by
    refine ⟨nofun, ?_, nofun, nofun, nofun, nofun, nofun, nofun, nofun, nofun, trivial⟩
    rintro _ ⟨⟩
    exact ports
  refine ⟨nofun, nofun, fun _ _ => trivial, fun _ _ => trivial, nofun, nofun, ?_, ?_, nofun,
    trivial⟩
  · rintro _ ⟨⟩
    exact container
  · intro x _
    exact (shape RootFs).carries_of_plain rfl x

theorem sampleImage_sendable : Sendable sampleImage := by
  refine ⟨⟨?_, fun _ _ => trivial, ?_, trivial⟩, by decide⟩
  · intro x _
    exact (shape ImageManifest).carries_of_plain rfl x
  · rintro _ ⟨⟩
    exact sampleConfig_carries

/-- Every capability gives exactly what the host has answered. A manifest or an index comes whole if
it is labelled with an accepted media type. -/
theorem answers_exact (η : Type) [Host η] :
    (∀ (request : GetResourceRequest) (v : Value), Sendable v →
      Delivers ((Capability.getResource Value).call request : Guest η Value) .getResource
        request v v) ∧
    (∀ (request : ListResourcesByNamespaceRequest) (l : ObjectList Value), Sendable l →
      l.metadata ≠ some .null →
      Delivers ((Capability.listByNamespace Value).call request : Guest η (ObjectList Value))
        .listResourcesByNamespace request l l) ∧
    (∀ (request : ListAllResourcesRequest) (l : ObjectList Value), Sendable l →
      l.metadata ≠ some .null →
      Delivers ((Capability.listAll Value).call request : Guest η (ObjectList Value))
        .listResourcesAll request l l) ∧
    (∀ (request : CanIRequest) (r : SubjectAccessReviewStatus),
      Delivers (Capability.canI.call request : Guest η SubjectAccessReviewStatus) .canI
        request r r) ∧
    (∀ (image : String) (r : ManifestDigestResponse),
      Delivers (manifestDigest image : Guest η String) .manifestDigest image r r.digest) ∧
    (∀ (image : String) (r : ManifestAndConfigResponse), Sendable r →
      Delivers (manifestAndConfig image : Guest η ManifestAndConfigResponse) .ociManifestConfig
        image r r) ∧
    (∀ (host : String) (r : DnsLookupResponse),
      Delivers (Capability.dnsLookup.call host : Guest η DnsLookupResponse) .dnsLookupHost
        host r r) ∧
    (∀ (request : CertificateVerificationRequest) (encoding : ExpiryEncoding)
        (r : CertificateVerificationResponse),
      Delivers (verifyCertificate request encoding : Guest η CertificateVerificationResponse)
        .isCertificateTrusted (request.onWire encoding) r r) ∧
    (∀ r : VerificationResponse,
      (∀ request : VerifyRequest,
        Delivers (Capability.verify.call request : Guest η VerificationResponse) .verify
          request r r) ∧
      (∀ image keys annotations,
        Delivers (verifyPubKeys image keys annotations : Guest η VerificationResponse) .verify
          (VerifyRequest.pubKeys image keys annotations) r r) ∧
      (∀ image signers annotations,
        Delivers (verifyKeyless image signers annotations : Guest η VerificationResponse) .verify
          (VerifyRequest.keyless image signers annotations) r r) ∧
      (∀ image signers annotations,
        Delivers (verifyKeylessPrefix image signers annotations : Guest η VerificationResponse)
          .verify (VerifyRequest.keylessPrefix image signers annotations) r r) ∧
      (∀ image owner repo annotations,
        Delivers (verifyGithubActions image owner repo annotations : Guest η VerificationResponse)
          .verify (VerifyRequest.githubActions image owner repo annotations) r r)) ∧
    (∀ (image : String) (m : ImageManifest) (mediaType : String), m.mediaType = some mediaType →
      mediaType ∈ MediaType.imageManifests →
      Obtains (manifest image : Guest η OciManifestResponse) .ociManifest image
        (OciManifestResponse.wrapped "image" (json m)).write (.image m)) ∧
    ∀ (image : String) (i : ImageIndex) (mediaType : String), i.mediaType = some mediaType →
      mediaType ∈ MediaType.imageIndexes →
      Obtains (manifest image : Guest η OciManifestResponse) .ociManifest image
        (OciManifestResponse.wrapped "index" (json i)).write (.index i) := by
  have verified (request : VerifyRequest) (r : VerificationResponse) :
      Delivers (Capability.verify.call request : Guest η VerificationResponse) .verify
        request r r :=
    Capability.verify.call_delivers_plain rfl rfl (by decide) (by decide) r
  have lists (l : ObjectList Value) (sendable : Sendable l) (known : l.metadata ≠ some .null) :
      decode (json l).write = .ok l :=
    sendable.decode_json (by decide) (l.settle_eq known)
  refine ⟨?_, ?_, ?_, ?_, manifestDigest_delivers, ?_, ?_, ?_, ?_, ?_, ?_⟩
  · intro request v sendable
    exact (Capability.getResource Value).call_delivers (encode_shaped request)
      (sendable.decode_json trivial rfl)
  · intro request l sendable known
    exact (Capability.listByNamespace Value).call_delivers (encode_shaped request)
      (lists l sendable known)
  · intro request l sendable known
    exact (Capability.listAll Value).call_delivers (encode_shaped request) (lists l sendable known)
  · intro request r
    exact Capability.canI.call_delivers_plain (encode_shaped request) rfl (by decide) (by decide) r
  · intro image r sendable
    exact Capability.ociManifestConfig.call_delivers (encode_shaped image)
      (sendable.decode_json (by decide) ((shape ManifestAndConfigResponse).settle_of_steady rfl _))
  · intro host r
    exact Capability.dnsLookup.call_delivers_plain (encode_shaped host) rfl (by decide)
      (by decide) r
  · intro request encoding r
    exact Capability.certificateTrust.call_delivers_plain (encode_shaped _) rfl (by decide)
      (by decide) r
  · intro r
    exact ⟨(verified · r), fun _ _ _ => verified _ r, fun _ _ _ => verified _ r,
      fun _ _ _ => verified _ r, fun _ _ _ _ => verified _ r⟩
  · intro image m mediaType typed accepted
    exact manifest_obtains (OciManifestResponse.classifyReply_image typed accepted)
  · intro image i mediaType typed accepted
    exact manifest_obtains (OciManifestResponse.classifyReply_index typed accepted)

/-- Replies with an object, a list, a labelled manifest and index, and a configuration. -/
theorem samples_arrive :
    (∃ reply, encode sampleResource = .ok reply ∧
      (((Capability.getResource Value).call
        ⟨"apps/v1", "Deployment", "web", none, false⟩).run.run (.serving reply)).1 =
          .ok sampleResource) ∧
    (∃ reply, encode sampleList = .ok reply ∧
      (((Capability.listByNamespace Value).call
        ⟨"v1", "Pod", "default", none, none⟩).run.run (.serving reply)).1 = .ok sampleList) ∧
    (∃ reply, encode sampleList = .ok reply ∧
      (((Capability.listAll Value).call ⟨"v1", "Pod", none, none⟩).run.run (.serving reply)).1 =
        .ok sampleList) ∧
    (∃ reply, encode sampleImage = .ok reply ∧
      ((manifestAndConfig "web").run.run (.serving reply)).1 = .ok sampleImage) ∧
    ((manifest "web").run.run (.serving
      (OciManifestResponse.wrapped "image" (json sampleManifest)).write)).1 =
        .ok (.image sampleManifest) ∧
    ((manifest "web").run.run (.serving
      (OciManifestResponse.wrapped "index" (json sampleIndex)).write)).1 =
        .ok (.index sampleIndex) := by
  obtain ⟨single, byNamespace, everywhere, _, _, config, _, _, _, image, index⟩ :=
    answers_exact ScriptedHost
  have known : sampleList.metadata ≠ some .null := by
    intro same
    exact nomatch congrArg Value.json (Option.some.inj same)
  refine ⟨?_, ?_, ?_, ?_, ?_, ?_⟩
  · exact (single _ sampleResource ⟨sampleResource_whole, by decide⟩).serving
  · exact (byNamespace _ sampleList sampleList_sendable known).serving
  · exact (everywhere _ sampleList sampleList_sendable known).serving
  · exact (config "web" sampleImage sampleImage_sendable).serving
  · obtain ⟨_, _, obtains⟩ := image "web" sampleManifest MediaType.ociImageManifest rfl (by decide)
    exact obtains _ Session.serving_answered
  · obtain ⟨_, _, obtains⟩ := index "web" sampleIndex MediaType.dockerManifestList rfl (by decide)
    exact obtains _ Session.serving_answered

end AdmissionGuest
