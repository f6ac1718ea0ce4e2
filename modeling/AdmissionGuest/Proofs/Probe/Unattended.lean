import AdmissionGuest.Proofs.Host.Detached
import AdmissionGuest.Proofs.Probe.Configuration
/-!
The probe without a host. Every scenario fails at its one call and leaves the input stream alone, so
the scenarios that expect success are rejected in the host's words, and those that expect a failure
are accepted with these words as their only fact.
-/

namespace AdmissionGuest

variable {α β : Type} {address : Address}

/-- An action that comes to a call, and so to nothing, if there is no host. -/
structure Unserved (action : Guest DetachedHost α) (address : Address) : Prop where
  result : ∀ s, (action.run.run s).1 = .error (.hostCall address.shown hostUnavailableText)
  input : ∀ s, (action.run.run s).2.input = s.input

theorem unserved_invoke (address : Address) (payload : Bytes) :
    Unserved (invoke address payload) address := by
  constructor
  · exact fun s => (detached_invoke address payload s).1
  · exact fun s => (detached_invoke address payload s).2.2

theorem Unserved.bind {action : Guest DetachedHost α} (unserved : Unserved action address)
    (next : α → Guest DetachedHost β) : Unserved (action >>= next) address := by
  have run (s : Session DetachedHost) :
      (action >>= next).run.run s =
        (.error (.hostCall address.shown hostUnavailableText), (action.run.run s).2) :=
    Guest.bind_error (Prod.ext (unserved.result s) rfl) next
  constructor
  · intro s
    rw [run]
  · intro s
    rw [run, ← unserved.input s]

section Capabilities

variable {Request Response : Type} [Named Request] [ToDocument Request]
  (c : Capability Request Response) {request : Request} {payload : Bytes}

theorem Capability.send_unserved (encoded : encode request = .ok payload) :
    Unserved (c.send request) c.address := by
  have run (s : Session DetachedHost) :
      (c.send request).run.run s = (invoke c.address payload).run.run s := by
    have made : (MonadExcept.ofExcept (encode request) : Guest DetachedHost Bytes).run.run s =
        (.ok payload, s) := by
      rw [Guest.ofExcept_run, encoded]
    exact Guest.bind_ok made (invoke c.address)
  constructor
  · intro s
    rw [run, (unserved_invoke c.address payload).result]
  · intro s
    rw [run, (unserved_invoke c.address payload).input]

theorem Capability.call_unserved [Named Response] [OfDocument Response]
    (encoded : encode request = .ok payload) : Unserved (c.call request) c.address :=
  (c.send_unserved encoded).bind _

end Capabilities

namespace Probe

theorem run_unserved (s : Scenario) (config : Config) :
    Unserved (run s config) s.capability.address := by
  obtain ⟨capability, expectation⟩ := s
  have verify (request : VerifyRequest) :
      Unserved (Capability.verify.call request) Address.verify :=
    Capability.verify.call_unserved (show encode request = .ok _ from rfl)
  cases capability with
  | ociManifestDigest =>
    exact ((Capability.manifestDigest.call_unserved (encode_shaped _)).bind _).bind _
  | dnsLookup => exact (Capability.dnsLookup.call_unserved (encode_shaped _)).bind _
  | ociManifest => exact ((Capability.ociManifest.send_unserved (encode_shaped _)).bind _).bind _
  | ociManifestAndConfig =>
    exact (Capability.ociManifestConfig.call_unserved (encode_shaped _)).bind _
  | getResource => exact ((Capability.getResource Value).call_unserved (encode_shaped _)).bind _
  | listAllResources => exact ((Capability.listAll Value).call_unserved (encode_shaped _)).bind _
  | listResourcesByNamespace =>
    exact ((Capability.listByNamespace Value).call_unserved (encode_shaped _)).bind _
  | canI => exact (Capability.canI.call_unserved (encode_shaped _)).bind _
  | sigstoreVerifyPubkey | sigstoreVerifyKeylessExact | sigstoreVerifyKeylessPrefix
  | sigstoreVerifyGithubActions => exact (verify _).bind _
  | cryptoVerifyCert => exact (Capability.certificateTrust.call_unserved (encode_shaped _)).bind _

/-- What a scenario comes to without a host. -/
def unattended (s : Scenario) : ValidationResponse :=
  verdict s (.error (.hostCall s.capability.address.shown hostUnavailableText))

theorem validate_unattended {request : ValidationRequest ProbeSettings} {s : Scenario}
    (names : Names request s) (config : Config) (session : Session DetachedHost) :
    ((validate config request).run.run session).1 = .ok (unattended s) := by
  have failed := (run_unserved s config).result
    (session.record (.probeStarted s.name request.request.uid))
  rw [validate, ProbeSettings.scenario_ok_some_iff.mpr names]
  exact congrArg (fun result => Except.ok (verdict s result)) failed

theorem respond_unattended {request : ValidationRequest ProbeSettings} {s : Scenario}
    {session : Session DetachedHost} (brings : session.Brings request) (names : Names request s)
    (config : Config) :
    (((policy config).respond "validate").run session).1 = .validation (unattended s) := by
  have understood : (session.record (.policyStarted "validate")).understood = .ok request :=
    Session.understood_ok_iff.mpr brings
  have answered : (((policy config).validate request).run.run
      (session.record (.policyStarted "validate")).afterInput).1 = .ok (unattended s) :=
    validate_unattended names config _
  rw [Policy.respond_validate, (policy config).validation_of_understood understood, answered]

end Probe

/-- What the program writes is what the invocation of its policy writes. -/
theorem Program.run_output (arguments : List String) (environment : String → Option String)
    (input : Source) (output : Sink) :
    ∃ log, (run arguments environment input output).output =
      ((Probe.policy (Config.ofLookup environment).1).run (arguments.headD "")
        (⟨input, {}, log⟩ : Session DetachedHost) output).output := by
  refine ⟨(Config.ofLookup environment).2.map .settingIgnored, ?_⟩
  unfold run
  dsimp only
  split <;> rfl

theorem Program.run_unattended {input : Source} {document : Bytes}
    {request : ValidationRequest ProbeSettings} {s : Scenario}
    (arrives : Source.document input.arrivals = .ok document)
    (decoded : decode document = .ok request) (names : Probe.Names request s)
    (arguments : List String) (environment : String → Option String) (output : Sink) :
    ∃ written, encode (PolicyResponse.validation (Probe.unattended s)) = .ok written ∧
      (run ("validate" :: arguments) environment input output).output =
        (output.writeAll written).2 := by
  obtain ⟨log, same⟩ := run_output ("validate" :: arguments) environment input output
  obtain ⟨written, encoded⟩ := Policy.encode_response (.validation (Probe.unattended s))
  refine ⟨written, encoded, same.trans ?_⟩
  have brings : (⟨input, {}, log⟩ : Session DetachedHost).Brings request :=
    ⟨document, arrives, decoded⟩
  rw [← Probe.respond_unattended brings names (Config.ofLookup environment).1] at encoded
  exact (writeDocument_of_encode encoded output).2

/-- Without a host nothing of the request stream is ever taken for a reply. A read gives the text of
the missing host if a call was made since the read before, and what is left on the stream otherwise;
no other step touches the stream. So calls that are read at once leave it alone and fail with that
text, and the program answers each scenario by it. -/
theorem Detached.replies_apart :
    (∀ (input : Source) (log : List Event) (past : List Step),
      let s := after (fresh input log) past
      (∀ step : Step, (step.run s).1 = answer input past step) ∧
      s.input.arrivals = unread input past ∧
      (∀ step : Step, (step.run s).2.input ≠ s.input ↔ step = .read ∧ calls past = []) ∧
      (Source.document (unread input past) ≠ .ok (Utf8.encode hostUnavailableText) →
        ((Step.read.run s).1 = .read (.ok (Utf8.encode hostUnavailableText)) ↔
          calls past ≠ [])) ∧
      ∀ content, Source.document input.arrivals = .ok content →
        Source.left input.arrivals = [] →
        (Step.read.run s).1 = .read (.ok
          (if calls past ≠ [] then Utf8.encode hostUnavailableText
          else if idle past = 0 then content else []))) ∧
    (∀ (start : Session DetachedHost) (requests : List (Address × Bytes)),
      let s := after start (requests.map fun request => .invoke request.1 request.2)
      s.input = start.input ∧
      ∀ (address : Address) (payload : Bytes),
        ((Step.invoke address payload).run s).1 =
          .invoked (.error (.hostCall address.shown hostUnavailableText))) ∧
    ∀ (arguments : List String) (environment : String → Option String) (input : Source)
      (output : Sink) (document : Bytes) (request : ValidationRequest ProbeSettings)
      (s : Scenario),
      Source.document input.arrivals = .ok document → decode document = .ok request →
      request.settings.testScenario = some s.name →
      ∃ (response : ValidationResponse) (written : Bytes),
        encode (PolicyResponse.validation response) = .ok written ∧
        (Program.run ("validate" :: arguments) environment input output).output =
          (output.writeAll written).2 ∧
        match s.expectation with
        | .success =>
          response = .reject ("host call " ++ s.capability.address.shown ++ " failed: " ++
            hostUnavailableText) none
        | .failure =>
          response.accepted = true ∧ response.message = none ∧
            response.auditAnnotations.map Dict.entries =
              some [("error", hostUnavailableText)] := by
  refine ⟨?_, ?_, ?_⟩
  · intro input log past s
    have reflects := after_reflects input log past
    refine ⟨fun step => (reflects.step step).1, reflects.arrivals, reflects.input_changes_iff,
      reflects.read_text_iff, ?_⟩
    intro content brings ended
    exact reflects.read_content brings ended
  · intro start requests s
    refine ⟨after_invokes start requests, ?_⟩
    intro address payload
    exact congrArg Answer.invoked (detached_invoke address payload s).1
  · intro arguments environment input output document request s arrives decoded names
    obtain ⟨written, encoded, output⟩ :=
      Program.run_unattended arrives decoded names arguments environment output
    refine ⟨Probe.unattended s, written, encoded, output, ?_⟩
    obtain ⟨capability, expectation⟩ := s
    cases expectation with
    | success => rfl
    | failure => exact ⟨rfl, rfl, rfl⟩

/-- A stream in two pieces. -/
def Detached.pieces : Source :=
  { arrivals := [.data [0x5B], .interrupt, .data [0x5D]] }

/-- Reads before and after a call, and a request on the stream of the program. -/
theorem Detached.pieces_apart :
    (Step.read.run (after (fresh pieces []) [])).1 = .read (.ok [0x5B, 0x5D]) ∧
    (Step.read.run (after (fresh pieces []) [.read, .call .verify [], .call .verify []])).1 =
      .read (.ok [0x5B, 0x5D]) ∧
    (Step.read.run (after (fresh pieces []) [.call .verify [], .read])).1 =
      .read (.ok (Utf8.encode hostUnavailableText)) ∧
    (Step.read.run (after (fresh pieces []) [.read])).1 = .read (.ok []) ∧
    ∃ (response : ValidationResponse) (written : Bytes),
      encode (PolicyResponse.validation response) = .ok written ∧
      (Program.run ["validate"] (fun _ => none) (Probe.arriving [.interrupt]).input {}).output =
        (({} : Sink).writeAll written).2 ∧
      response = .reject ("host call kubewarden/net/v1/dns_lookup_host failed: " ++
        "host capabilities are only available inside a WebAssembly guest") none := by
  obtain ⟨reads, _, program⟩ := replies_apart
  have brings : Source.document pieces.arrivals = .ok [0x5B, 0x5D] := rfl
  refine ⟨?_, ?_, ?_, ?_, ?_⟩
  · exact (reads pieces [] []).2.2.2.2 _ brings rfl
  · exact (reads pieces [] [.read, .call .verify [], .call .verify []]).2.2.2.2 _ brings rfl
  · have other : Source.document (unread pieces [.call .verify [], .read]) ≠
        .ok (Utf8.encode hostUnavailableText) := by
      decide +kernel
    exact ((reads pieces [] [.call .verify [], .read]).2.2.2.1 other).mpr nofun
  · exact (reads pieces [] [.read]).2.2.2.2 _ brings rfl
  · obtain ⟨document, arrives, decoded⟩ := Probe.arriving_brings
    exact program [] (fun _ => none) _ {} document _ ⟨.dnsLookup, .success⟩ arrives decoded rfl

end AdmissionGuest
