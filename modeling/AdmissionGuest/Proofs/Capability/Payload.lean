import AdmissionGuest.Proofs.Capability.Calls
import AdmissionGuest.Proofs.Capability.Signature
/-!
What is sent to the host says what was asked. It is decoded to the request again, so different
requests are never sent as the same text; members that are not set are left out, and null is sent
nowhere.
-/

namespace AdmissionGuest

open Shaped

variable {α Request Wire : Type}

/-- Whatever session the action is run in, its one call carries the payload. -/
def Sends (action : Guest ScriptedHost α) (payload : Bytes) : Prop :=
  ∀ s, ∃ address, (action.run.run s).2.host.calls = s.host.calls ++ [⟨address, payload⟩]

theorem CallsOnce.sends {action : Guest ScriptedHost α} {address : Address} {payload : Bytes}
    {answer : Bytes → Except Error α} (calls : CallsOnce action address payload answer) :
    Sends action payload := by
  intro s
  rw [calls.host]
  exact ⟨address, rfl⟩

theorem Sends.unique {action : Guest ScriptedHost α} {payload payload' : Bytes}
    (sends : Sends action payload) (sends' : Sends action payload') : payload = payload' := by
  obtain ⟨address, calls⟩ := sends (Replay.fresh ⟨[], 0, 0⟩ [])
  obtain ⟨address', calls'⟩ := sends' (Replay.fresh ⟨[], 0, 0⟩ [])
  rw [calls] at calls'
  exact congrArg RecordedCall.payload (List.cons.inj calls').1

section Requests

variable [Named Wire] [ToDocument Wire] [OfDocument Wire]

/-- A request that is written, and read back from what is written. -/
def Legible (request : Wire) (written : Json → Prop) : Prop :=
  ∃ payload j, encode request = .ok payload ∧ decode payload = .ok request ∧
    Json.read Json.nestingLimit payload = .ok (j, []) ∧ j.NullFree ∧ written j

/-- Actions that send requests: what is sent, what it is decoded to, and what document it is. -/
structure Conveys (action : Request → Guest ScriptedHost α) (wire : Request → Wire)
    (written : Wire → Json → Prop) : Prop where
  sends : ∀ r, ∃ payload, Sends (action r) payload
  decoded : ∀ r payload, Sends (action r) payload → decode payload = .ok (wire r)
  document : ∀ r payload, Sends (action r) payload →
    ∃ j, Json.read Json.nestingLimit payload = .ok (j, []) ∧ j.NullFree ∧ written (wire r) j
  apart : ∀ r r' payload, Sends (action r) payload → Sends (action r') payload → wire r = wire r'

theorem conveys_of_asks {action : Request → Guest ScriptedHost α} {address : Address}
    {wire : Request → Wire} {type : String} {answer : Bytes → Except Error α}
    {written : Wire → Json → Prop} (asks : ∀ r, Asks (action r) address (wire r) type answer)
    (legible : ∀ w, Legible w (written w)) : Conveys action wire written := by
  have sent (r : Request) :
      ∃ payload, encode (wire r) = .ok payload ∧ Sends (action r) payload := by
    obtain ⟨payload, encoded, calls⟩ := (asks r).calls
    exact ⟨payload, encoded, calls.sends⟩
  have read (r : Request) (payload : Bytes) (sends : Sends (action r) payload) :
      decode payload = .ok (wire r) ∧ ∃ j, Json.read Json.nestingLimit payload = .ok (j, []) ∧
        j.NullFree ∧ written (wire r) j := by
    obtain ⟨own, encoded, here⟩ := sent r
    obtain ⟨text, j, encoded', decoded, document⟩ := legible (wire r)
    rw [encoded] at encoded'
    cases encoded'
    rw [sends.unique here]
    exact ⟨decoded, j, document⟩
  constructor
  · intro r
    obtain ⟨payload, _, sends⟩ := sent r
    exact ⟨payload, sends⟩
  · intro r payload sends
    exact (read r payload sends).1
  · intro r payload sends
    exact (read r payload sends).2
  · intro r r' payload sends sends'
    have decoded := (read r payload sends).1
    rw [(read r' payload sends').1] at decoded
    exact (Except.ok.inj decoded).symm

end Requests

/-- A type whose shape carries nothing is legible. -/
theorem legible_of_plain [Named Wire] [Shaped Wire] {written : Json → Prop}
    (proper : (shape Wire).Proper) (plain : (shape Wire).plain = true)
    (fits : (shape Wire).extent ≤ Json.nestingLimit) (w : Wire) (document : written (json w)) :
    Legible w written :=
  ⟨_, json w, encode_shaped w, decode_json_of_plain plain fits w proper,
    read_json_of_plain plain fits w, json_inherits_of_plain plain Json.nullFree_inherited w,
    document⟩

theorem legible_text (s : String) : Legible s fun _ => True :=
  legible_of_plain (by decide) rfl (by decide) s trivial

/-! What is written of each request -/

theorem legible_getResource (r : GetResourceRequest) :
    Legible r fun j => (j.get? "namespace").isSome = r.inNamespace.isSome := by
  apply legible_of_plain (by decide) rfl (by decide)
  exact Shape.isSome_get?_json (by decide) (.there (.there (.there (.here rfl))))

/-- The selectors of a request for a list. -/
structure Selects (label field : Option String) (j : Json) : Prop where
  label : (j.get? "label_selector").isSome = label.isSome
  field : (j.get? "field_selector").isSome = field.isSome

theorem legible_listByNamespace (r : ListResourcesByNamespaceRequest) :
    Legible r (Selects r.labelSelector r.fieldSelector) := by
  apply legible_of_plain (by decide) rfl (by decide)
  constructor
  · exact Shape.isSome_get?_json (by decide) (.there (.there (.there (.here rfl))))
  · exact Shape.isSome_get?_json (by decide) (.there (.there (.there (.there (.here rfl)))))

theorem legible_listAll (r : ListAllResourcesRequest) :
    Legible r (Selects r.labelSelector r.fieldSelector) := by
  apply legible_of_plain (by decide) rfl (by decide)
  constructor
  · exact Shape.isSome_get?_json (by decide) (.there (.there (.here rfl)))
  · exact Shape.isSome_get?_json (by decide) (.there (.there (.there (.here rfl))))

/-- The members of an access review and of its attributes. -/
structure SubjectAccessReview.Written (r : SubjectAccessReview) (review attributes : Json) :
    Prop where
  inside : review.get? "resource_attributes" = some attributes
  groups : (review.get? "groups").isSome = r.groups.isSome
  inNamespace : (attributes.get? "namespace").isSome = r.resourceAttributes.inNamespace.isSome
  subresource : (attributes.get? "subresource").isSome = r.resourceAttributes.subresource.isSome
  name : (attributes.get? "name").isSome = r.resourceAttributes.name.isSome
  version : (attributes.get? "version").isSome = r.resourceAttributes.version.isSome

theorem SubjectAccessReview.written_json (r : SubjectAccessReview) :
    r.Written (json r) (json r.resourceAttributes) := by
  constructor
  · obtain ⟨user, groups, attributes⟩ := r
    cases groups <;> rfl
  · exact Shape.isSome_get?_json (by decide) (.there (.here rfl))
  · exact Shape.isSome_get?_json (by decide) (.here rfl)
  · exact Shape.isSome_get?_json (by decide) (.there (.there (.there (.there (.here rfl)))))
  · exact Shape.isSome_get?_json (by decide)
      (.there (.there (.there (.there (.there (.here rfl))))))
  · exact Shape.isSome_get?_json (by decide)
      (.there (.there (.there (.there (.there (.there (.here rfl)))))))

theorem legible_canI (r : CanIRequest) :
    Legible r fun j => ∃ review attributes, j.get? "subject_access_review" = some review ∧
      r.subjectAccessReview.Written review attributes := by
  apply legible_of_plain (by decide) rfl (by decide)
  exact ⟨_, _, rfl, r.subjectAccessReview.written_json⟩

theorem legible_certificate (r : CertificateVerificationRequest) :
    Legible r fun j => (j.get? "not_after").isSome = r.notAfter.isSome := by
  apply legible_of_plain (by decide) rfl (by decide)
  exact Shape.isSome_get?_json (by decide) (.there (.there (.here rfl)))

theorem legible_verify (r : VerifyRequest) :
    Legible r fun j => (j.get? "annotations").isSome = r.annotations.isSome ∧
      (j.get? "repo").isSome = r.repo.isSome :=
  ⟨_, r.json, rfl, r.decode_json,
    read_document (r.json_inherits Json.whole_inherited) r.height_json,
    r.json_inherits Json.nullFree_inherited, r.isSome_annotations, r.isSome_repo⟩

/-- What every capability sends is decoded to exactly what it was asked, however the resources and
the lists that it is answered with are read. -/
theorem payloads_exact :
    (∀ (Item : Type) [Named Item] [OfDocument Item],
      Conveys (Capability.getResource Item).call id
        fun r j => (j.get? "namespace").isSome = r.inNamespace.isSome) ∧
    (∀ (Item : Type) [Named Item] [OfDocument (ObjectList Item)],
      Conveys (Capability.listByNamespace Item).call id
        fun r => Selects r.labelSelector r.fieldSelector) ∧
    (∀ (Item : Type) [Named Item] [OfDocument (ObjectList Item)],
      Conveys (Capability.listAll Item).call id
        fun r => Selects r.labelSelector r.fieldSelector) ∧
    (Conveys Capability.canI.call id
      fun r j => ∃ review attributes, j.get? "subject_access_review" = some review ∧
        r.subjectAccessReview.Written review attributes) ∧
    (Conveys
      (fun r : CertificateVerificationRequest × ExpiryEncoding => verifyCertificate r.1 r.2)
      (fun r => { r.1 with
        notAfter := if r.2 = ExpiryEncoding.emptyText then some (r.1.notAfter.getD "")
          else r.1.notAfter })
      fun r j => (j.get? "not_after").isSome = r.notAfter.isSome) ∧
    (Conveys Capability.verify.call id
      fun r j => (j.get? "annotations").isSome = r.annotations.isSome ∧
        (j.get? "repo").isSome = r.repo.isSome) ∧
    Conveys manifestDigest id (fun _ _ => True) ∧
    Conveys manifest id (fun _ _ => True) ∧
    Conveys manifestAndConfig id (fun _ _ => True) ∧
    Conveys Capability.dnsLookup.call id (fun _ _ => True) := by
  refine ⟨?_, ?_, ?_, ?_, ?_, ?_, ?_, ?_, ?_, ?_⟩
  · intro Item _ _
    exact conveys_of_asks (fun r => (Capability.getResource Item).call_asks (encode_shaped r))
      legible_getResource
  · intro Item _ _
    exact conveys_of_asks (fun r => (Capability.listByNamespace Item).call_asks (encode_shaped r))
      legible_listByNamespace
  · intro Item _ _
    exact conveys_of_asks (fun r => (Capability.listAll Item).call_asks (encode_shaped r))
      legible_listAll
  · exact conveys_of_asks (fun r => Capability.canI.call_asks (encode_shaped r)) legible_canI
  · exact conveys_of_asks (fun r => verifyCertificate_asks r.1 r.2) legible_certificate
  · exact conveys_of_asks verify_asks legible_verify
  · exact conveys_of_asks manifestDigest_asks legible_text
  · exact conveys_of_asks manifest_asks legible_text
  · exact conveys_of_asks
      (fun image => Capability.ociManifestConfig.call_asks (encode_shaped image)) legible_text
  · exact conveys_of_asks (fun host => Capability.dnsLookup.call_asks (encode_shaped host))
      legible_text

end AdmissionGuest
