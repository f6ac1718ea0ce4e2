import AdmissionGuest.Program
import AdmissionGuest.Proofs.Probe.Effects
/-!
The configuration decides how much is logged and how a certificate request without a deadline is
sent. Every probe of a certificate names a deadline, so no configuration changes what a probe asks,
what it finds, or what the program answers.
-/

namespace AdmissionGuest

/-- The two ways to send a request differ exactly if there is no deadline to send. -/
theorem CertificateVerificationRequest.onWire_eq_iff (r : CertificateVerificationRequest) :
    r.onWire .omitted = r.onWire .emptyText ↔ r.notAfter ≠ none := by
  obtain ⟨cert, certChain, notAfter⟩ := r
  cases notAfter <;> simp [onWire]

theorem CertificateVerificationRequest.onWire_of_deadline {r : CertificateVerificationRequest}
    (deadline : r.notAfter ≠ none) (encoding : ExpiryEncoding) : r.onWire encoding = r := by
  obtain ⟨cert, certChain, notAfter⟩ := r
  cases notAfter with
  | none => exact absurd rfl deadline
  | some instant => cases encoding <;> rfl

namespace Probe

theorem certificateRequest_deadline (e : Expectation) : (certificateRequest e).notAfter ≠ none :=
  nofun

section Configured

variable {η : Type} [Host η]

theorem verifyCertificate_encoding (e : Expectation) (encoding : ExpiryEncoding) :
    (verifyCertificate (certificateRequest e) encoding :
        Guest η CertificateVerificationResponse) =
      Capability.certificateTrust.call (certificateRequest e) := by
  have sent := CertificateVerificationRequest.onWire_of_deadline (certificateRequest_deadline e)
  rw [verifyCertificate, sent encoding]

variable (s : Scenario) (config config' : Config)

theorem run_config : (run s config : Guest η Finding) = run s config' := by
  obtain ⟨capability, e⟩ := s
  cases capability with
  | cryptoVerifyCert =>
    simp only [run, verifyCertificate_encoding]
  | _ => rfl

theorem runScenario_config :
    (runScenario s config : StateM (Session η) ValidationResponse) = runScenario s config' := by
  simp only [runScenario, run_config s config config']

theorem validate_config (request : ValidationRequest ProbeSettings) :
    (validate config request : Guest η ValidationResponse) = validate config' request := by
  simp only [validate, runScenario_config _ config config']

end Configured

theorem policy_config (config config' : Config) : policy config = policy config' := by
  have same : (fun (η : Type) [Host η] => validate (η := η) config) =
      fun (η : Type) [Host η] => validate (η := η) config' := by
    funext η _ request
    exact validate_config config config' request
  exact congrArg (fun validate : ∀ (η : Type) [Host η], _ =>
    Policy.mk ProbeSettings (fun {η} _ => validate η) validateSettings) same

/-- What a scenario sends is fixed by the scenario. -/
theorem run_sends (s : Scenario) :
    ∃ payload, ∀ (config : Config) (session : Session ScriptedHost),
      ((run s config).run.run session).2.host =
        session.host.served s.capability.address payload := by
  obtain ⟨payload, _, calls, _⟩ := run_asked s {}
  refine ⟨payload, ?_⟩
  intro config session
  rw [run_config s config {}]
  exact calls.host session

/-- A probe of a certificate sends its request as it is, with the deadline. -/
theorem certificate_sends (e : Expectation) :
    ∃ payload, encode (certificateRequest e) = .ok payload ∧
      ∀ (config : Config) (session : Session ScriptedHost),
        ((run ⟨.cryptoVerifyCert, e⟩ config).run.run session).2.host =
          session.host.served .isCertificateTrusted payload := by
  have encoded := encode_shaped (certificateRequest e)
  have calls := (Capability.certificateTrust.call_callsOnce encoded).bind fun response =>
    quiet_ofExcept (.ok (⟨response.trusted,
      [("trusted", shownFlag response.trusted), ("reason", response.reason)]⟩ : Finding))
  refine ⟨_, encoded, ?_⟩
  intro config session
  simp only [run, verifyCertificate_encoding]
  exact calls.host session

end Probe

/-- The program has no host to call. What it writes and its exit code are decided by its arguments
and the document on its input. -/
theorem Program.run_of_document (arguments : List String)
    (environment environment' : String → Option String) (output : Sink) {input input' : Source}
    (document : Source.document input.arrivals = Source.document input'.arrivals) :
    (run arguments environment input output).output =
        (run arguments environment' input' output).output ∧
      (run arguments environment input output).exitCode =
        (run arguments environment' input' output).exitCode := by
  let session (environment : String → Option String) (input : Source) : Session DetachedHost :=
    ⟨input, {}, (Config.ofLookup environment).2.map .settingIgnored⟩
  have alike : (session environment input).Alike (session environment' input') := ⟨rfl, document⟩
  obtain ⟨result, written, _⟩ := Policy.run_agrees
    (Probe.policy_confined detached_confined (Config.ofLookup environment').1)
    (arguments.headD "") output alike
  unfold run
  dsimp only
  -- the log is not compared: only there the two environments show
  rw [Probe.policy_config (Config.ofLookup environment).1 (Config.ofLookup environment').1]
  split <;> rename_i first <;> split <;> rename_i second
  · exact ⟨written, rfl⟩
  · cases first.symm.trans (result.trans second)
  · cases first.symm.trans (result.trans second)
  · exact ⟨written, rfl⟩

/-- The configuration never reaches the verdict. Under any two configurations a scenario does the
same and comes to the same; in particular it sends the same. How a missing deadline is sent matters
to no probe, since each one names a deadline. The program therefore writes the same, and exits with
the same code, whatever its environment says. -/
theorem Probe.verdict_of_any_config :
    (∀ (η : Type) [Host η] (s : Scenario) (config config' : Config) (session : Session η),
      (run s config).run.run session = (run s config').run.run session ∧
        (runScenario s config).run session = (runScenario s config').run session) ∧
    (∀ s : Scenario, ∃ payload, ∀ (config : Config) (session : Session ScriptedHost),
      ((run s config).run.run session).2.host =
          session.host.served s.capability.address payload ∧
        ((runScenario s config).run session).2.host =
          session.host.served s.capability.address payload) ∧
    (∀ r : CertificateVerificationRequest,
      r.onWire .omitted = r.onWire .emptyText ↔ r.notAfter ≠ none) ∧
    (∀ e : Expectation, (certificateRequest e).notAfter ≠ none ∧
      ∃ payload, encode (certificateRequest e) = .ok payload ∧
        ∀ (config : Config) (session : Session ScriptedHost),
          ((run ⟨.cryptoVerifyCert, e⟩ config).run.run session).2.host =
            session.host.served .isCertificateTrusted payload) ∧
    ∀ (arguments : List String) (environment environment' : String → Option String)
      (input : Source) (output : Sink),
      (Program.run arguments environment input output).output =
          (Program.run arguments environment' input output).output ∧
        (Program.run arguments environment input output).exitCode =
          (Program.run arguments environment' input output).exitCode := by
  refine ⟨?_, ?_, CertificateVerificationRequest.onWire_eq_iff, ?_, ?_⟩
  · intro η _ s config config' session
    constructor
    · rw [run_config s config config']
    · rw [runScenario_config s config config']
  · intro s
    obtain ⟨payload, sends⟩ := run_sends s
    -- the verdict is formed after the call, without the host
    exact ⟨payload, fun config session => ⟨sends config session, sends config session⟩⟩
  · intro e
    exact ⟨certificateRequest_deadline e, certificate_sends e⟩
  · intro arguments environment environment' input output
    exact Program.run_of_document arguments environment environment' output rfl

end AdmissionGuest
