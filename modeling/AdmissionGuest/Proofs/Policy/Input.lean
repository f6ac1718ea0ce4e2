import AdmissionGuest.DigestPolicy
import AdmissionGuest.Probe.Policy
import AdmissionGuest.Proofs.Capability.Confined
import AdmissionGuest.Proofs.Channel.Source
import AdmissionGuest.Proofs.Policy.Delivery
/-!
How the input arrives does not matter. Of the stream an invocation sees only the document, so the
pieces it is cut into and the interruptions between them change neither the response nor the calls.
-/

namespace AdmissionGuest

variable {η : Type}

/-- Two sessions with the same host, and with inputs that bring the same document. -/
structure Session.Alike (s t : Session η) : Prop where
  host : s.host = t.host
  document : Source.document s.input.arrivals = Source.document t.input.arrivals

theorem Session.Alike.record {s t : Session η} (alike : s.Alike t) (event : Event) :
    (s.record event).Alike (t.record event) :=
  ⟨alike.host, alike.document⟩

/-- The input is the document of the script, or the failure that comes before its end. -/
theorem readInput_document (s : Session η) :
    ((readInput : Guest η Bytes).run.run s).1 =
      (Source.document s.input.arrivals).mapError .stream := by
  rw [readInput_run, s.input.readAll_assembles.result]
  cases Source.document s.input.arrivals <;> rfl

theorem readInput_host (s : Session η) :
    ((readInput : Guest η Bytes).run.run s).2.host = s.host := by
  rw [readInput_run]
  cases s.input.readAll.1 <;> rfl

theorem readInput_agrees {s t : Session η} (alike : s.Alike t) :
    (readInput : Guest η Bytes).Agrees s t := by
  constructor
  · rw [readInput_document, readInput_document, alike.document]
  · rw [readInput_host, readInput_host, alike.host]

namespace Policy

variable [Host η]

/-- A policy that judges a request by nothing but the request and the host. -/
def Confined (policy : Policy) (η : Type) [Host η] : Prop :=
  ∀ request, (policy.validate request : Guest η ValidationResponse).Confined

variable (policy : Policy) {s t : Session η}

theorem validation_agrees {policy : Policy} (confined : policy.Confined η) (alike : s.Alike t) :
    (policy.validation : Guest η ValidationResponse).Agrees s t :=
  (readInput_agrees alike).bind fun bytes => (Guest.Confined.ofExcept (decode bytes)).bind confined

omit [Host η] in
theorem settingsValidation_agrees (alike : s.Alike t) :
    (policy.settingsValidation : Guest η SettingsValidationResponse).Agrees s t :=
  (readInput_agrees alike).bind fun bytes =>
    (Guest.Confined.ofExcept (decode bytes)).bind fun settings =>
      Guest.Confined.ofExcept (policy.validateSettings settings)

theorem respondTo_host (action : PolicyAction) :
    ((policy.respondTo action).run s).2.host =
      match action with
      | .validate => (policy.validation.run.run s).2.host
      | .validateSettings => (policy.settingsValidation.run.run s).2.host := by
  cases action with
  | validate =>
    simp only [respondTo, StateT.run_bind]
    rcases policy.validation.run.run s with ⟨verdict | e, after⟩ <;> rfl
  | validateSettings =>
    simp only [respondTo, StateT.run_bind]
    rcases policy.settingsValidation.run.run s with ⟨verdict | e, after⟩ <;> rfl

/-- The response and the host after it do not depend on how the document arrives. For an unknown
action there is no document at all. -/
theorem respond_agrees {policy : Policy} (confined : policy.Confined η) (action : String)
    (alike : s.Alike t) :
    ((policy.respond action).run s).1 = ((policy.respond action).run t).1 ∧
      ((policy.respond action).run s).2.host = ((policy.respond action).run t).2.host := by
  by_cases validate : action = "validate"
  · subst validate
    have agrees := validation_agrees confined (alike.record (.policyStarted "validate"))
    refine ⟨?_, ?_⟩
    · rw [respond_validate, respond_validate, agrees.result]
    · change ((policy.respondTo .validate).run _).2.host =
        ((policy.respondTo .validate).run _).2.host
      rw [respondTo_host, respondTo_host]
      exact agrees.host
  by_cases settings : action = "validate-settings"
  · subst settings
    have agrees := policy.settingsValidation_agrees
      (alike.record (.policyStarted "validate-settings"))
    refine ⟨?_, ?_⟩
    · rw [respond_validateSettings, respond_validateSettings, agrees.result]
    · change ((policy.respondTo .validateSettings).run _).2.host =
        ((policy.respondTo .validateSettings).run _).2.host
      rw [respondTo_host, respondTo_host]
      exact agrees.host
  · refine ⟨?_, ?_⟩
    · rw [respond_unknown policy s validate settings, respond_unknown policy t validate settings]
    · rw [respond, ofText_unknown validate settings]
      exact alike.host

theorem run_agrees {policy : Policy} (confined : policy.Confined η) (action : String)
    (output : Sink) (alike : s.Alike t) :
    (policy.run action s output).result = (policy.run action t output).result ∧
      (policy.run action s output).output = (policy.run action t output).output ∧
      (policy.run action s output).session.host = (policy.run action t output).session.host := by
  obtain ⟨response, host⟩ := respond_agrees confined action alike
  obtain ⟨result, written⟩ := policy.run_of_respond output response
  exact ⟨result, written, host⟩

end Policy

/-! The policies -/

section Policies

variable [Host η] (confined : Host.Confined η)

include confined

theorem DigestPolicy.policy_confined : DigestPolicy.policy.Confined η := by
  intro request
  apply (manifestDigest_confined confined request.settings.image).bind
  intro digest
  split
  · exact .pure _
  · exact .pure _

theorem Probe.run_confined (s : Scenario) (config : Config) :
    (Probe.run s config : Guest η Finding).Confined := by
  obtain ⟨capability, expectation⟩ := s
  cases capability with
  | ociManifestDigest => exact (manifestDigest_confined confined _).bind fun _ => .pure _
  | dnsLookup => exact (Capability.dnsLookup.call_confined confined _).bind fun _ => .pure _
  | ociManifest => exact (manifest_confined confined _).bind fun _ => .pure _
  | ociManifestAndConfig =>
    exact (Capability.ociManifestConfig.call_confined confined _).bind fun _ => .pure _
  | getResource =>
    exact ((Capability.getResource Value).call_confined confined _).bind fun _ => .pure _
  | listAllResources =>
    exact ((Capability.listAll Value).call_confined confined _).bind fun _ => .pure _
  | listResourcesByNamespace =>
    exact ((Capability.listByNamespace Value).call_confined confined _).bind fun _ => .pure _
  | canI => exact (Capability.canI.call_confined confined _).bind fun _ => .pure _
  | sigstoreVerifyPubkey => exact (Capability.verify.call_confined confined _).bind fun _ => .pure _
  | sigstoreVerifyKeylessExact =>
    exact (Capability.verify.call_confined confined _).bind fun _ => .pure _
  | sigstoreVerifyKeylessPrefix =>
    exact (Capability.verify.call_confined confined _).bind fun _ => .pure _
  | sigstoreVerifyGithubActions =>
    exact (Capability.verify.call_confined confined _).bind fun _ => .pure _
  | cryptoVerifyCert =>
    exact (Capability.certificateTrust.call_confined confined _).bind fun _ => .pure _

theorem Probe.policy_confined (config : Config) : (Probe.policy config).Confined η := by
  intro request
  apply (Guest.Confined.ofExcept request.settings.scenario).bind
  intro scenario
  cases scenario with
  | none => exact .pure _
  | some s =>
    apply (Guest.Confined.record (.probeStarted s.name request.request.uid)).bind
    intro _ t u host
    obtain ⟨result, after⟩ := Probe.run_confined confined s config host
    exact ⟨congrArg (fun result => Except.ok (Probe.verdict s result)) result, after⟩

end Policies

namespace Source

/-- A stream is read to its end, or to its first failure, with one buffer over and over. Only the
data before that shows in the result, and an invocation sees no more of its input than this
result. -/
theorem readAll_exact :
    (∀ s : Source,
      s.readAll.1 = (document s.arrivals).map (fun bytes => (bytes, pieces s.arrivals)) ∧
      s.readAll.2 = next^[pieces s.arrivals + interrupts s.arrivals + 1] s ∧
      s.readAll.2.arrivals = left s.arrivals ∧
      s.readAll.2.reads = s.reads + pieces s.arrivals + interrupts s.arrivals + 1 ∧
      s.readAll.2.largest = max s.largest 1024 ∧
      ({ s with arrivals := s.arrivals.filter (· ≠ .interrupt) } : Source).readAll.1 =
        s.readAll.1 ∧
      ∀ fuel, s.bound ≤ fuel → s.collect fuel = s.readAll) ∧
    (∀ (η : Type) [Host η] (policy : Policy), policy.Confined η →
      ∀ (action : String) (output : Sink) (s t : Session η), s.host = t.host →
        document s.input.arrivals = document t.input.arrivals →
        (policy.run action s output).result = (policy.run action t output).result ∧
          (policy.run action s output).output = (policy.run action t output).output ∧
          (policy.run action s output).session.host = (policy.run action t output).session.host) ∧
    (∀ config, (Probe.policy config).Confined ScriptedHost) ∧
    DigestPolicy.policy.Confined ScriptedHost := by
  refine ⟨?_, ?_, Probe.policy_confined scripted_confined,
    DigestPolicy.policy_confined scripted_confined⟩
  · intro s
    have assembles := s.readAll_assembles
    refine ⟨assembles.result, assembles.stream, assembles.left, ?_, ?_, ?_, ?_⟩
    · rw [assembles.stream, reads_iterate, Nat.add_assoc, Nat.add_assoc, Nat.add_assoc]
    · rw [assembles.stream]
      exact largest_iterate s _
    · have calm := ({ s with arrivals := s.arrivals.filter (· ≠ .interrupt) } : Source)
        |>.readAll_assembles.result
      obtain ⟨document, pieces⟩ := uninterrupted s.arrivals
      rw [calm, assembles.result]
      dsimp only
      rw [document, pieces]
    · intro fuel enough
      exact (collect_assembles enough).unique assembles
  · intro η _ policy confined action output s t host document
    exact Policy.run_agrees confined action output ⟨host, document⟩

/-- Settings that arrive at once. -/
def atOnce : Session ScriptedHost where
  input := { arrivals := [.data (Utf8.encode "\x7b\"image\":\"a\"\x7d")] }
  host := ⟨[], [], none⟩

/-- The same settings, cut in the middle of a name, with interruptions between the pieces and a
failure after the end of the stream. -/
def inPieces : Session ScriptedHost where
  input :=
    { arrivals := [.interrupt, .data (Utf8.encode "\x7b\"im"), .interrupt,
        .data (Utf8.encode "age\":\"a\"\x7d"), .data [], .failure "late"] }
  host := ⟨[], [], none⟩

theorem inPieces_as_atOnce :
    (DigestPolicy.policy.run "validate-settings" atOnce {}).output =
      (DigestPolicy.policy.run "validate-settings" inPieces {}).output := by
  have confined : DigestPolicy.policy.Confined ScriptedHost := readAll_exact.2.2.2
  exact (readAll_exact.2.1 ScriptedHost DigestPolicy.policy confined "validate-settings" {} atOnce
    inPieces rfl rfl).2.1

end Source

end AdmissionGuest
