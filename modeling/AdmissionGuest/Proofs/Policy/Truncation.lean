import AdmissionGuest.DigestPolicy
import AdmissionGuest.Proofs.Admission.Request
import AdmissionGuest.Proofs.Admission.Response
import AdmissionGuest.Proofs.Capability.Payload
import AdmissionGuest.Proofs.Policy.Delivery
import AdmissionGuest.Proofs.Policy.Stages
/-!
A document has no length before it and needs none: what breaks off before its last byte is never
taken for a document. So an output that fails while it takes the response has taken no response.
-/

namespace AdmissionGuest

open Shaped

/-- A document of which no beginning is decoded, wherever it breaks off. -/
def ShowsCuts (α : Type) [Named α] [OfDocument α] (document : Bytes) : Prop :=
  ∀ part, part <+: document → part ≠ document → ∃ e, (decode part : Except Error α) = .error e

section Cuts

variable {α : Type} [Named α] [OfDocument α]

theorem showsCuts_write (skippable : Skip.Skippable (OfDocument.read (α := α))) {j : Json}
    (whole : j.Whole) (other : ∀ n, j ≠ .number n) : ShowsCuts α j.write := by
  rintro part ⟨left, cut⟩ short
  refine error_of_not_decoded fun a decoded => ?_
  obtain ⟨rest, read⟩ := readable_of_decode decoded
  have some : left ≠ [] := by
    rintro rfl
    rw [List.append_nil] at cut
    exact short cut
  exact absurd read (Skip.unread_of_cut skippable whole other cut some a rest)

end Cuts

/-! Responses -/

theorem PolicyResponse.skippable : Skip.Skippable (OfDocument.read (α := PolicyResponse)) := by
  intro bytes rest response read frames
  obtain ⟨⟨j, left⟩, document, read⟩ := ok_of_bind read
  dsimp only at read
  split at read
  next =>
    cases read
    exact Skip.skippable_read _ document frames
  next => exact nomatch read

theorem PolicyResponse.showsCuts (r : PolicyResponse)
    (whole : ∀ object, r.mutatedObject = some object → object.json.Whole) :
    ∃ document, encode r = .ok document ∧ ShowsCuts PolicyResponse document :=
  ⟨_, encode_members, showsCuts_write skippable (whole_members whole) nofun⟩

/-! Requests to the host -/

theorem skippable_shaped (α : Type) [Shaped α] : Skip.Skippable (OfDocument.read (α := α)) :=
  ((shape α).skippable Json.nestingLimit).map ofVal

/-- Actions that send requests of which no beginning is taken for a request. -/
def SendsWhole {α Request : Type} (action : Request → Guest ScriptedHost α) (Wire : Type)
    [Named Wire] [OfDocument Wire] : Prop :=
  ∀ r, ∃ payload, Sends (action r) payload ∧ ShowsCuts Wire payload

section Requests

variable {α Request Wire : Type} [Named Wire] {action : Request → Guest ScriptedHost α}
  {address : Address} {wire : Request → Wire} {type : String} {answer : Bytes → Except Error α}

theorem sendsWhole_of_asks [ToDocument Wire] [OfDocument Wire]
    (asks : ∀ r, Asks (action r) address (wire r) type answer)
    (shows : ∀ w : Wire, ∃ document, encode w = .ok document ∧ ShowsCuts Wire document) :
    SendsWhole action Wire := by
  intro r
  obtain ⟨payload, encoded, calls⟩ := (asks r).calls
  obtain ⟨document, encoded', shows⟩ := shows (wire r)
  rw [encoded] at encoded'
  cases encoded'
  exact ⟨payload, calls.sends, shows⟩

theorem showsCuts_plain [Shaped Wire] (plain : (shape Wire).plain = true)
    (other : ∀ (w : Wire) n, json w ≠ .number n) (w : Wire) :
    ∃ document, encode w = .ok document ∧ ShowsCuts Wire document :=
  ⟨_, encode_shaped w, showsCuts_write (skippable_shaped Wire)
    (json_inherits_of_plain plain Json.whole_inherited w) (other w)⟩

theorem VerifyRequest.showsCuts (r : VerifyRequest) :
    ∃ document, encode r = .ok document ∧ ShowsCuts VerifyRequest document :=
  ⟨_, rfl, showsCuts_write skippable_read (r.json_inherits Json.whole_inherited) nofun⟩

end Requests

namespace Policy

variable {η : Type} [Host η] (policy : Policy) (action : String) (session : Session η)
  (output : Sink)

theorem written_of_run (whole : ∀ object,
      ((policy.respond action).run session).1.mutatedObject = some object → object.json.Whole)
    {e : Error} (failed : (policy.run action session output).result = .error e)
    (unflushed : (policy.run action session output).output.flushes = output.flushes) :
    ∃ part, (policy.run action session output).output.data = output.data ++ part ∧
      ∃ e, (decode part : Except Error PolicyResponse) = .error e := by
  obtain ⟨document, encoded, shows⟩ := PolicyResponse.showsCuts _ whole
  obtain ⟨delivers, _⟩ | ⟨breaks, _⟩ := policy.run_ends action session output encoded
  · exact nomatch delivers.result.symm.trans failed
  cases breaks with
  | write _ data beginning short =>
    refine ⟨_, data, shows _ beginning ?_⟩
    rintro rfl
    exact absurd short (Nat.lt_irrefl _)
  | flush _ _ _ flushes =>
    rw [unflushed] at flushes
    omega

end Policy

/-- No response and no request can be mistaken for a document if its last byte is missing. Where a
write of the response has failed, what was taken of it is no response. -/
theorem truncation_shows :
    (∀ r : PolicyResponse, (∀ object, r.mutatedObject = some object → object.json.Whole) →
      ∃ document, encode r = .ok document ∧ ShowsCuts PolicyResponse document) ∧
    (∀ (Item : Type) [Named Item] [OfDocument Item],
      SendsWhole (Capability.getResource Item).call GetResourceRequest) ∧
    (∀ (Item : Type) [Named Item] [OfDocument (ObjectList Item)],
      SendsWhole (Capability.listByNamespace Item).call ListResourcesByNamespaceRequest) ∧
    (∀ (Item : Type) [Named Item] [OfDocument (ObjectList Item)],
      SendsWhole (Capability.listAll Item).call ListAllResourcesRequest) ∧
    SendsWhole Capability.canI.call CanIRequest ∧
    SendsWhole
      (fun r : CertificateVerificationRequest × ExpiryEncoding => verifyCertificate r.1 r.2)
      CertificateVerificationRequest ∧
    SendsWhole Capability.verify.call VerifyRequest ∧
    SendsWhole manifestDigest String ∧
    SendsWhole manifest String ∧
    SendsWhole manifestAndConfig String ∧
    SendsWhole Capability.dnsLookup.call String ∧
    ∀ (η : Type) [Host η] (policy : Policy) (action : String) (session : Session η) (output : Sink),
      (∀ object, ((policy.respond action).run session).1.mutatedObject = some object →
        object.json.Whole) →
      ∀ e, (policy.run action session output).result = .error e →
        (policy.run action session output).output.flushes = output.flushes →
        ∃ part, (policy.run action session output).output.data = output.data ++ part ∧
          ∃ e, (decode part : Except Error PolicyResponse) = .error e := by
  have text : ∀ s : String, ∃ document, encode s = .ok document ∧ ShowsCuts String document :=
    showsCuts_plain rfl fun _ _ => nofun
  refine ⟨PolicyResponse.showsCuts, ?_, ?_, ?_, ?_, ?_, ?_, ?_, ?_, ?_, ?_, ?_⟩
  · intro Item _ _
    exact sendsWhole_of_asks (fun r => (Capability.getResource Item).call_asks (encode_shaped r))
      (showsCuts_plain rfl fun _ _ => nofun)
  · intro Item _ _
    exact sendsWhole_of_asks
      (fun r => (Capability.listByNamespace Item).call_asks (encode_shaped r))
      (showsCuts_plain rfl fun _ _ => nofun)
  · intro Item _ _
    exact sendsWhole_of_asks (fun r => (Capability.listAll Item).call_asks (encode_shaped r))
      (showsCuts_plain rfl fun _ _ => nofun)
  · exact sendsWhole_of_asks (fun r => Capability.canI.call_asks (encode_shaped r))
      (showsCuts_plain rfl fun _ _ => nofun)
  · exact sendsWhole_of_asks (fun r => verifyCertificate_asks r.1 r.2)
      (showsCuts_plain rfl fun _ _ => nofun)
  · exact sendsWhole_of_asks verify_asks VerifyRequest.showsCuts
  · exact sendsWhole_of_asks manifestDigest_asks text
  · exact sendsWhole_of_asks manifest_asks text
  · exact sendsWhole_of_asks
      (fun image => Capability.ociManifestConfig.call_asks (encode_shaped image)) text
  · exact sendsWhole_of_asks (fun host => Capability.dnsLookup.call_asks (encode_shaped host)) text
  · intro η _ policy action session output whole e failed unflushed
    exact policy.written_of_run action session output whole failed unflushed

/-- An output that breaks in the middle of a name. -/
def brokenOutput : Sink := { room := some 25, failure := some "broken pipe" }

/-- A policy that admits every request, with this object in place of its own. -/
def replacing (object : Value) : Policy where
  Settings := Value
  validate _ := return .mutate object
  validateSettings _ := .ok .accept

theorem replacing_responds (object : Value) {η : Type} [Host η] {session : Session η}
    {request : ValidationRequest Value} (brings : session.Brings request) :
    (((replacing object).respond "validate").run session).1 = .validation (.mutate object) := by
  have understood : (session.record (.policyStarted "validate")).understood = .ok request :=
    Session.understood_ok_iff.mpr brings
  rw [Policy.respond_validate, (replacing object).validation_of_understood understood]
  rfl

/-- An object with an integer. -/
def scaled : Value := .ofJson (.object [("replicas", .number (.int 3))])

theorem scaled_whole : scaled.json.Whole :=
  ⟨⟨by decide, by decide⟩, trivial⟩

/-- The answer with this object breaks off in the name of its second member. -/
theorem scaled_breaks :
    (writeDocument (PolicyResponse.validation (.mutate scaled)) brokenOutput).1 =
        .error (.stream "broken pipe") ∧
      (writeDocument (PolicyResponse.validation (.mutate scaled)) brokenOutput).2.1.flushes =
        brokenOutput.flushes := by
  constructor <;> decide +kernel

/-- The sparse request arrives. -/
def sparseArriving : Session ScriptedHost :=
  Replay.fresh ⟨[.data (ValidationRequest.sparseDocument .null).write], 0, 0⟩ []

theorem sparseArriving_brings : sparseArriving.Brings ValidationRequest.sparse := by
  refine ⟨_, ?_, ValidationRequest.decode_sparse⟩
  exact (Source.document_data (List.cons_ne_nil _ _) []).trans
    (congrArg Except.ok (List.append_nil _))

/-- The answer to an unknown action breaks off, and so does an answer that holds an object with an
integer. -/
theorem brokenOutput_shows :
    (∃ document, encode (PolicyResponse.settings (.refuse "\u00E9\n")) = .ok document ∧
      ShowsCuts PolicyResponse document) ∧
    (∃ document, encode (PolicyResponse.validation (.mutate scaled)) = .ok document ∧
      ShowsCuts PolicyResponse document) ∧
    (∃ part,
      (DigestPolicy.policy.run "other" (Replay.fresh ⟨[], 0, 0⟩ []) brokenOutput).output.data =
        brokenOutput.data ++ part ∧
      ∃ e, (decode part : Except Error PolicyResponse) = .error e) ∧
    (((replacing scaled).respond "validate").run sparseArriving).1.mutatedObject = some scaled ∧
      ∃ part, ((replacing scaled).run "validate" sparseArriving brokenOutput).output.data =
          brokenOutput.data ++ part ∧
        ∃ e, (decode part : Except Error PolicyResponse) = .error e := by
  have held : ∀ object, some scaled = some object → object.json.Whole := by
    rintro _ ⟨⟩
    exact scaled_whole
  have responded := replacing_responds scaled sparseArriving_brings
  obtain ⟨result, written⟩ := (replacing scaled).run_of_respond brokenOutput responded
  obtain ⟨responses, -, -, -, -, -, -, -, -, -, -, runs⟩ := truncation_shows
  refine ⟨responses _ nofun, responses (.validation (.mutate scaled)) held, ?_, ?_, ?_⟩
  · exact runs ScriptedHost DigestPolicy.policy "other" (Replay.fresh ⟨[], 0, 0⟩ []) brokenOutput
      nofun (.stream "broken pipe") (by rfl) (by rfl)
  · rw [responded]
    rfl
  · refine runs ScriptedHost (replacing scaled) "validate" sparseArriving brokenOutput ?_ _
      (result.trans scaled_breaks.1) ?_
    · rw [responded]
      exact held
    · rw [written]
      exact scaled_breaks.2

end AdmissionGuest
