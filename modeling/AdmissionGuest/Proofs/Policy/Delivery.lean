import AdmissionGuest.Policy
import AdmissionGuest.Proofs.Channel.Document
/-!
An invocation ends in one of two ways, whatever the policy, the input and the host do: its one
response arrives in full and is flushed once, or the output failed and has the beginning of that
response. The action alone decides of which kind the response is.
-/

namespace AdmissionGuest.Policy

variable {η : Type}

/-- The document was taken in full and flushed once. -/
structure Outcome.Delivers (outcome : Outcome η) (output : Sink) (document : Bytes) : Prop where
  result : outcome.result = .ok ()
  data : outcome.output.data = output.data ++ document
  flushes : outcome.output.flushes = output.flushes + 1

/-- The output failed and has taken the beginning of the document. -/
inductive Outcome.Breaks (outcome : Outcome η) (output : Sink) (document : Bytes) : Prop where
  /-- a write failed, or reported no bytes, before all of them were taken -/
  | write {part : Bytes}
      (result : outcome.result =
        .error (.stream (output.failure.getD Sink.nothingWritten)))
      (data : outcome.output.data = output.data ++ part)
      (beginning : part <+: document) (short : part.length < document.length)
      (flushes : outcome.output.flushes = output.flushes)
  /-- the flush failed -/
  | flush {message : String} (failure : output.flushFailure = some message)
      (result : outcome.result = .error (.stream message))
      (data : outcome.output.data = output.data ++ document)
      (flushes : outcome.output.flushes = output.flushes + 1)

theorem Outcome.Delivers.not_breaks {outcome : Outcome η} {output : Sink} {document : Bytes}
    (delivers : outcome.Delivers output document) : ¬ outcome.Breaks output document := by
  intro breaks
  cases breaks with
  | write result => exact nomatch delivers.result.symm.trans result
  | flush _ result => exact nomatch delivers.result.symm.trans result

theorem Outcome.Breaks.stream {outcome : Outcome η} {output : Sink} {document : Bytes}
    (breaks : outcome.Breaks output document) :
    ∃ message, outcome.result = .error (.stream message) := by
  cases breaks with
  | write result => exact ⟨_, result⟩
  | flush _ result => exact ⟨_, result⟩

/-- What writing a document comes to depends on the output alone. -/
theorem Outcome.delivers_or_breaks {outcome : Outcome η} {output : Sink} {document : Bytes}
    (result : outcome.result = (output.writeAll document).1.mapError .stream)
    (written : outcome.output = (output.writeAll document).2) :
    (outcome.Delivers output document ∧ output.Takes document ∧ output.flushFailure = none) ∨
      (outcome.Breaks output document ∧
        ¬ (output.Takes document ∧ output.flushFailure = none)) := by
  by_cases takes : output.Takes document
  · obtain ⟨flushed, data, flushes⟩ := Sink.writeAll_of_takes takes
    rw [← written] at data flushes
    rw [flushed] at result
    cases failure : output.flushFailure with
    | none =>
      rw [failure] at result
      exact .inl ⟨⟨result, data, flushes⟩, takes, rfl⟩
    | some message =>
      rw [failure] at result
      exact .inr ⟨.flush failure result data flushes, fun calm => nomatch calm.2⟩
  · obtain ⟨failed, data, flushes⟩ := Sink.writeAll_of_not_takes takes
    rw [← written] at data flushes
    rw [failed] at result
    have short : (document.take (output.capacity document)).length < document.length := by
      have most := output.capacity_le document
      rw [List.length_take]
      unfold Sink.Takes at takes
      omega
    exact .inr ⟨.write result data (List.take_prefix _ _) short flushes, fun calm => takes calm.1⟩

theorem encode_response (response : PolicyResponse) :
    ∃ document, encode response = .ok document := by
  cases response with
  | validation verdict => exact ⟨_, rfl⟩
  | settings verdict => exact ⟨_, rfl⟩

variable [Host η]

theorem respond_validate (policy : Policy) (session : Session η) :
    ((policy.respond "validate").run session).1 =
      .validation (match (policy.validation.run.run
          (session.record (.policyStarted "validate"))).1 with
        | .ok verdict => verdict
        | .error e => .reject e.message none) := by
  change ((policy.respondTo .validate).run (session.record (.policyStarted "validate"))).1 = _
  simp only [respondTo, StateT.run_bind]
  obtain ⟨result, after⟩ := policy.validation.run.run (session.record (.policyStarted "validate"))
  cases result with
  | ok verdict => rfl
  | error e => rfl

theorem respond_validateSettings (policy : Policy) (session : Session η) :
    ((policy.respond "validate-settings").run session).1 =
      .settings (match (policy.settingsValidation.run.run
          (session.record (.policyStarted "validate-settings"))).1 with
        | .ok verdict => verdict
        | .error e => .refuse e.message) := by
  change ((policy.respondTo .validateSettings).run
    (session.record (.policyStarted "validate-settings"))).1 = _
  simp only [respondTo, StateT.run_bind]
  obtain ⟨result, after⟩ :=
    policy.settingsValidation.run.run (session.record (.policyStarted "validate-settings"))
  cases result with
  | ok verdict => rfl
  | error e => rfl

theorem ofText_unknown {action : String} (validate : action ≠ "validate")
    (settings : action ≠ "validate-settings") :
    PolicyAction.ofText action = .error ("unknown action: " ++ action) := by
  have absent : PolicyAction.all.find? (fun known => known.name == action) = none := by
    rw [List.find?_eq_none]
    intro known _ same
    cases known with
    | validate => exact validate (beq_iff_eq.mp same).symm
    | validateSettings => exact settings (beq_iff_eq.mp same).symm
  rw [PolicyAction.ofText, absent]

theorem respond_unknown (policy : Policy) {action : String} (session : Session η)
    (validate : action ≠ "validate") (settings : action ≠ "validate-settings") :
    ((policy.respond action).run session).1 =
      .validation (.reject PolicyAction.wrongInvocation none) := by
  rw [respond, ofText_unknown validate settings]
  rfl

/-- Only one name asks for a verdict on settings; an unknown one is answered as a request is. -/
theorem respond_kind (policy : Policy) (action : String) (session : Session η) :
    (action = "validate-settings" ∧
        ∃ verdict, ((policy.respond action).run session).1 = .settings verdict) ∨
      (action ≠ "validate-settings" ∧
        ∃ verdict, ((policy.respond action).run session).1 = .validation verdict) := by
  by_cases settings : action = "validate-settings"
  · subst settings
    exact .inl ⟨rfl, _, policy.respond_validateSettings session⟩
  · refine .inr ⟨settings, ?_⟩
    by_cases validate : action = "validate"
    · subst validate
      exact ⟨_, policy.respond_validate session⟩
    · exact ⟨_, policy.respond_unknown session validate settings⟩

theorem respond_settings_iff (policy : Policy) (action : String) (session : Session η) :
    (∃ verdict, ((policy.respond action).run session).1 = .settings verdict) ↔
      action = "validate-settings" := by
  obtain ⟨same, verdict, kind⟩ | ⟨other, verdict, kind⟩ := policy.respond_kind action session
  · exact ⟨fun _ => same, fun _ => ⟨verdict, kind⟩⟩
  · refine ⟨fun ⟨_, contrary⟩ => ?_, fun same => absurd same other⟩
    exact nomatch kind.symm.trans contrary

theorem respond_validation_iff (policy : Policy) (action : String) (session : Session η) :
    (∃ verdict, ((policy.respond action).run session).1 = .validation verdict) ↔
      action ≠ "validate-settings" := by
  obtain ⟨same, verdict, kind⟩ | ⟨other, verdict, kind⟩ := policy.respond_kind action session
  · refine ⟨fun ⟨_, contrary⟩ => ?_, fun other => absurd same other⟩
    exact nomatch kind.symm.trans contrary
  · exact ⟨fun _ => other, fun _ => ⟨verdict, kind⟩⟩

/-- What is left of an invocation is what is left of writing its response. -/
theorem run_of_respond (policy : Policy) {action : String} {session : Session η} (output : Sink)
    {response : PolicyResponse} (responded : ((policy.respond action).run session).1 = response) :
    (policy.run action session output).result = (writeDocument response output).1 ∧
      (policy.run action session output).output = (writeDocument response output).2.1 := by
  subst responded
  exact ⟨rfl, rfl⟩

variable (policy : Policy) (action : String) (session : Session η) (output : Sink)
  {document : Bytes}

theorem run_ends (encoded : encode ((policy.respond action).run session).1 = .ok document) :
    ((policy.run action session output).Delivers output document ∧
        output.Takes document ∧ output.flushFailure = none) ∨
      ((policy.run action session output).Breaks output document ∧
        ¬ (output.Takes document ∧ output.flushFailure = none)) := by
  obtain ⟨result, written⟩ := writeDocument_of_encode encoded output
  exact Outcome.delivers_or_breaks result written

theorem run_delivers_iff
    (encoded : encode ((policy.respond action).run session).1 = .ok document) :
    (policy.run action session output).Delivers output document ↔
      output.Takes document ∧ output.flushFailure = none := by
  obtain ⟨delivers, calm⟩ | ⟨breaks, rough⟩ := policy.run_ends action session output encoded
  · exact ⟨fun _ => calm, fun _ => delivers⟩
  · exact ⟨fun delivers => absurd breaks delivers.not_breaks, fun calm => absurd calm rough⟩

theorem run_breaks_iff
    (encoded : encode ((policy.respond action).run session).1 = .ok document) :
    (policy.run action session output).Breaks output document ↔
      ¬ (policy.run action session output).Delivers output document := by
  obtain ⟨delivers, _⟩ | ⟨breaks, _⟩ := policy.run_ends action session output encoded
  · exact ⟨fun breaks => absurd breaks delivers.not_breaks, fun not => absurd delivers not⟩
  · exact ⟨fun _ delivers => delivers.not_breaks breaks, fun _ => breaks⟩

/-- An invocation either delivers its one response or breaks, and it breaks exactly if its output
does. Every other failure is part of the response. -/
theorem run_delivers_or_breaks :
    ∃ response document,
      response = ((policy.respond action).run session).1 ∧
      encode response = .ok document ∧
      ((∃ verdict, response = .settings verdict) ↔ action = "validate-settings") ∧
      ((∃ verdict, response = .validation verdict) ↔ action ≠ "validate-settings") ∧
      ((policy.run action session output).Delivers output document ↔
        output.Takes document ∧ output.flushFailure = none) ∧
      ((policy.run action session output).Breaks output document ↔
        ¬ (policy.run action session output).Delivers output document) ∧
      ((policy.run action session output).result = .ok () ∨
        ∃ message, (policy.run action session output).result = .error (.stream message)) := by
  obtain ⟨document, encoded⟩ := encode_response ((policy.respond action).run session).1
  have breaks := policy.run_breaks_iff action session output encoded
  refine ⟨_, document, rfl, encoded, policy.respond_settings_iff action session,
    policy.respond_validation_iff action session,
    policy.run_delivers_iff action session output encoded, breaks, ?_⟩
  by_cases delivers : (policy.run action session output).Delivers output document
  · exact .inl delivers.result
  · exact .inr (breaks.mpr delivers).stream

end AdmissionGuest.Policy
