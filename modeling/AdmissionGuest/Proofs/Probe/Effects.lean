import AdmissionGuest.Proofs.Admission.Request
import AdmissionGuest.Proofs.Policy.Stages
import AdmissionGuest.Proofs.Probe.Verdict
/-!
What an invocation does to the host. Nothing is asked of the host before a request was understood,
and judging settings asks nothing at all. The probe asks once, for the scenario that its settings
name, and not at all if they name none.
-/

namespace AdmissionGuest

namespace Scenario

theorem find_capability (c : ProbeCapability) :
    ProbeCapability.all.find? (fun known => known.name == c.name) = some c := by
  cases c <;> decide

/-- A name has one ending only. -/
theorem before?_failure (front : String) :
    Text.before? ("-" ++ Expectation.success.name) (front ++ ("-" ++ Expectation.failure.name)) =
      none := by
  cases found : Text.before? ("-" ++ Expectation.success.name)
      (front ++ ("-" ++ Expectation.failure.name)) with
  | none => rfl
  | some other =>
    have long : ("-" ++ Expectation.failure.name).toList.length =
        ("-" ++ Expectation.success.name).toList.length := by decide
    have same := congrArg String.toList (Text.before?_eq_some_iff.mp found)
    rw [String.toList_append, @String.toList_append other] at same
    exact absurd (List.append_inj_right' same long) (by decide)

/-- A text names a scenario exactly if it is the name of it. -/
theorem named?_eq_some_iff {text : String} {s : Scenario} :
    named? text = some s ↔ text = s.name := by
  have written (c : ProbeCapability) (e : Expectation) :
      name ⟨c, e⟩ = c.name ++ ("-" ++ e.name) := String.append_assoc
  constructor
  · intro known
    simp only [named?, Option.bind_eq_bind, Option.bind_eq_some_iff] at known
    obtain ⟨⟨front, e⟩, ending, c, found, same⟩ := known
    obtain ⟨e', _, before⟩ := List.exists_of_findSome?_eq_some ending
    obtain ⟨_, before, pair⟩ := Option.map_eq_some_iff.mp before
    cases pair
    cases same
    have capability : (c.name == front) = true :=
      List.find?_some (p := fun c : ProbeCapability => c.name == front) found
    rw [Text.before?_eq_some_iff.mp before, written, beq_iff_eq.mp capability]
  · rintro rfl
    obtain ⟨c, e⟩ := s
    have before : Text.before? ("-" ++ e.name) (c.name ++ ("-" ++ e.name)) = some c.name :=
      Text.before?_eq_some_iff.mpr rfl
    have ending : Expectation.all.findSome? (fun e' =>
        (Text.before? ("-" ++ e'.name) (c.name ++ ("-" ++ e.name))).map (·, e')) =
          some (c.name, e) := by
      cases e with
      | success => rw [Expectation.all, List.findSome?_cons, before]; rfl
      | failure =>
        rw [Expectation.all, List.findSome?_cons, List.findSome?_cons, before, before?_failure]
        rfl
    rw [named?, written, ending]
    simp only [Option.bind_eq_bind, Option.bind_some, find_capability]
    rfl

theorem ofText_ok_iff {text : String} {s : Scenario} : ofText text = .ok s ↔ text = s.name := by
  rw [← named?_eq_some_iff, ofText]
  cases named? text with
  | none => exact ⟨nofun, nofun⟩
  | some other => rw [Except.ok.injEq, Option.some.injEq]

theorem ofText_error_iff {text message : String} :
    ofText text = .error message ↔
      (∀ s : Scenario, text ≠ s.name) ∧ message = "unknown testScenario: " ++ text := by
  have none_iff : named? text = none ↔ ∀ s : Scenario, text ≠ s.name := by
    rw [Option.eq_none_iff_forall_ne_some]
    exact forall_congr' fun s => not_congr named?_eq_some_iff
  rw [← none_iff, ofText]
  cases named? text with
  | none =>
    rw [Except.error.injEq, eq_comm]
    exact (and_iff_right rfl).symm
  | some s => exact ⟨nofun, fun both => nomatch both.1⟩

end Scenario

namespace ProbeSettings

theorem scenario_ok_some_iff {settings : ProbeSettings} {s : Scenario} :
    settings.scenario = .ok (some s) ↔ settings.testScenario = some s.name := by
  obtain ⟨_ | text⟩ := settings
  · constructor <;> intro contrary <;> cases contrary
  · rw [Option.some.injEq, ← Scenario.ofText_ok_iff]
    change ((Scenario.ofText text).map some).mapError Error.invalidSettings = _ ↔ _
    cases Scenario.ofText text with
    | ok other =>
      change Except.ok (some other) = _ ↔ _
      rw [Except.ok.injEq, Except.ok.injEq, Option.some.injEq]
    | error message => constructor <;> intro contrary <;> cases contrary

theorem scenario_error {settings : ProbeSettings} {e : Error}
    (refused : settings.scenario = .error e) : ∃ message, e = .invalidSettings message := by
  obtain ⟨_ | text⟩ := settings
  · cases refused
  · change ((Scenario.ofText text).map some).mapError Error.invalidSettings = _ at refused
    cases known : Scenario.ofText text with
    | ok s =>
      rw [known] at refused
      cases refused
    | error message =>
      rw [known] at refused
      cases refused
      exact ⟨message, rfl⟩

end ProbeSettings

namespace Probe

variable (config : Config)

/-- The settings of the request name a scenario. -/
def Names (request : ValidationRequest ProbeSettings) (s : Scenario) : Prop :=
  request.settings.testScenario = some s.name

section Validation

variable {request : ValidationRequest ProbeSettings} {t : Session ScriptedHost}

theorem validate_refused {e : Error} (refused : request.settings.scenario = .error e) :
    (validate config request).run.run t = (.error e, t) := by
  rw [validate, refused]
  rfl

theorem validate_idle (idle : request.settings.scenario = .ok none) :
    (validate config request).run.run t = (.ok .accept, t) := by
  rw [validate, idle]
  rfl

theorem validate_served {s : Scenario} (chosen : request.settings.scenario = .ok (some s)) :
    ∃ payload, ((validate config request).run.run t).2.host =
      t.host.served s.capability.address payload := by
  obtain ⟨payload, _, calls, _⟩ := run_asked s config
  rw [validate, chosen]
  exact ⟨payload, calls.host _⟩

theorem validate_host (request : ValidationRequest ProbeSettings) (t : Session ScriptedHost) :
    ((∀ s, ¬ Names request s) ∧ ((validate config request).run.run t).2.host = t.host) ∨
      ∃ s payload, Names request s ∧
        ((validate config request).run.run t).2.host =
          t.host.served s.capability.address payload := by
  unfold Names
  simp only [← ProbeSettings.scenario_ok_some_iff]
  cases scenario : request.settings.scenario with
  | error e =>
    rw [validate_refused config scenario]
    refine .inl ⟨?_, rfl⟩
    rintro s ⟨⟩
  | ok chosen =>
    cases chosen with
    | none =>
      rw [validate_idle config scenario]
      refine .inl ⟨?_, rfl⟩
      rintro s ⟨⟩
    | some s =>
      obtain ⟨payload, host⟩ := validate_served config scenario
      exact .inr ⟨s, payload, rfl, host⟩

end Validation

/-- The input is a request whose settings name a scenario. -/
def Chooses (session : Session ScriptedHost) (s : Scenario) : Prop :=
  ∃ request : ValidationRequest ProbeSettings, session.Brings request ∧ Names request s

theorem validation_host (session : Session ScriptedHost) :
    ((∀ s, ¬ Chooses session s) ∧
        ((policy config).validation.run.run session).2.host = session.host) ∨
      ∃ s payload, Chooses session s ∧
        ((policy config).validation.run.run session).2.host =
          session.host.served s.capability.address payload := by
  cases understood : (session.understood : Except Error (ValidationRequest ProbeSettings)) with
  | error e =>
    rw [(policy config).validation_of_not_understood understood]
    refine .inl ⟨?_, session.host_afterInput⟩
    rintro s ⟨request, brings, _⟩
    cases understood.symm.trans (Session.understood_ok_iff.mpr brings)
  | ok request =>
    rw [(policy config).validation_of_understood understood, ← session.host_afterInput]
    have brings := Session.understood_ok_iff.mp understood
    obtain ⟨nameless, host⟩ | ⟨s, payload, names, host⟩ :=
      validate_host config request session.afterInput
    · refine .inl ⟨?_, host⟩
      rintro s ⟨other, brings', names⟩
      cases understood.symm.trans (Session.understood_ok_iff.mpr brings')
      exact nameless s names
    · exact .inr ⟨s, payload, ⟨request, brings, names⟩, host⟩

/-- One invocation of the probe: either no scenario is asked for and the host is as it was, or one
is, and the host has received one call for it. -/
theorem run_host (action : String) (session : Session ScriptedHost) (output : Sink) :
    (¬ (action = "validate" ∧ ∃ s, Chooses session s) ∧
        ((policy config).run action session output).session.host = session.host) ∨
      ∃ s payload, (action = "validate" ∧ Chooses session s) ∧
        ((policy config).run action session output).session.host =
          session.host.served s.capability.address payload := by
  change (_ ∧ (((policy config).respond action).run session).2.host = _) ∨
    ∃ s payload, _ ∧ (((policy config).respond action).run session).2.host = _
  by_cases validate : action = "validate"
  · subst validate
    rw [Policy.respond_validate_host]
    obtain ⟨idle, host⟩ | ⟨s, payload, chooses, host⟩ :=
      validation_host config (session.record (.policyStarted "validate"))
    · refine .inl ⟨?_, host⟩
      rintro ⟨_, s, chooses⟩
      exact idle s chooses
    · exact .inr ⟨s, payload, ⟨rfl, chooses⟩, host⟩
  · refine .inl ⟨fun chooses => validate chooses.1, ?_⟩
    by_cases settings : action = "validate-settings"
    · subst settings
      exact (policy config).respond_validateSettings_host
    · rw [(policy config).respond_unknown_session validate settings]
      rfl

end Probe

/-- The response to an action that is not known. -/
def Policy.rejection : String := "\x7b\"accepted\":false,\"message\":\"wrong invocation\"\x7d"

/-- Nothing outside is touched before the input is understood. An unknown action is rejected and
neither the input nor the host is used; settings are judged without the host, and so is every input
that is no request. The probe makes one call if the settings of a request name a scenario, and none
otherwise. -/
theorem Policy.run_touches_nothing_early :
    (∀ (η : Type) [Host η] (policy : Policy) (action : String) (session : Session η)
        (output : Sink),
      (action ≠ "validate" → action ≠ "validate-settings" →
        (policy.run action session output).session.input = session.input ∧
        (policy.run action session output).session.host = session.host ∧
        (policy.run action session output).output =
          (output.writeAll (Utf8.encode rejection)).2) ∧
      (policy.run "validate-settings" session output).session.host = session.host ∧
      ((¬ ∃ request : ValidationRequest policy.Settings, session.Brings request) →
        (policy.run "validate" session output).session.host = session.host)) ∧
    ∀ (config : Config) (action : String) (session : Session ScriptedHost) (output : Sink),
      (((Probe.policy config).run action session output).session.host = session.host ∨
        ∃ address payload, ((Probe.policy config).run action session output).session.host =
          session.host.served address payload) ∧
      ((∃ call, ((Probe.policy config).run action session output).session.host.calls =
          session.host.calls ++ [call]) ↔
        action = "validate" ∧ ∃ (request : ValidationRequest ProbeSettings) (s : Scenario),
          session.Brings request ∧ request.settings.testScenario = some s.name) := by
  constructor
  · intro η _ policy action session output
    refine ⟨?_, policy.respond_validateSettings_host, policy.respond_validate_host_of_not_brings⟩
    intro validate settings
    have left := policy.respond_unknown_session (s := session) validate settings
    have response := policy.respond_unknown session validate settings
    refine ⟨?_, ?_, ?_⟩
    · change ((policy.respond action).run session).2.input = _
      rw [left]
      rfl
    · change ((policy.respond action).run session).2.host = _
      rw [left]
      rfl
    have encoded : encode ((policy.respond action).run session).1 =
        .ok (Utf8.encode rejection) := by
      rw [response]
      rfl
    exact (writeDocument_of_encode encoded output).2
  · intro config action session output
    obtain ⟨idle, host⟩ | ⟨s, payload, ⟨validate, request, brings, names⟩, host⟩ :=
      Probe.run_host config action session output
    · refine ⟨.inl host, ?_⟩
      rw [host]
      constructor
      · rintro ⟨call, longer⟩
        have lengths := congrArg List.length longer
        rw [List.length_append, List.length_singleton] at lengths
        omega
      · rintro ⟨validate, request, s, brings, names⟩
        exact absurd ⟨validate, s, request, brings, names⟩ idle
    · refine ⟨.inr ⟨_, _, host⟩, ?_⟩
      rw [host]
      constructor
      · intro _
        exact ⟨validate, request, s, brings, names⟩
      · intro _
        exact ⟨_, rfl⟩

namespace Probe

/-- A request whose settings name a scenario. -/
def asking : Json :=
  .object [("settings", .object [("testScenario", .text "dns-lookup-success")]),
    ("request", .object ValidationRequest.sparseMembers)]

/-- The request arrives, and then what else is scripted. -/
def arriving (after : List Arrival) : Session ScriptedHost :=
  { input := { arrivals := .data asking.write :: after }, host := ⟨[⟨true, [0x5B]⟩], [], none⟩ }

theorem document_arriving (after : List Arrival) :
    Source.document (arriving after).input.arrivals =
      (asking.write ++ ·) <$> Source.document after :=
  Source.document_data (List.cons_ne_nil _ _) after

theorem arriving_brings :
    (arriving [.interrupt]).Brings
      (⟨ValidationRequest.sparse.request, ⟨some "dns-lookup-success"⟩⟩ :
        ValidationRequest ProbeSettings) := by
  have found : Json.read Json.nestingLimit asking.write = .ok (asking, []) :=
    ValidationRequest.read_sparseDocument _ ⟨trivial, trivial⟩ (by decide)
  refine ⟨asking.write, ?_, decode_of_view found rfl⟩
  rw [document_arriving]
  exact congrArg Except.ok (List.append_nil _)

/-- A request that arrived in full reaches the host, unless the stream fails after it. -/
theorem arriving_untouched :
    ((policy {}).run "evaluate" (arriving []) {}).session.input = (arriving []).input ∧
    ((policy {}).run "validate" (arriving [.failure "late"]) {}).session.host =
      (arriving []).host ∧
    ∃ call, ((policy {}).run "validate" (arriving [.interrupt]) {}).session.host.calls =
      (arriving []).host.calls ++ [call] := by
  obtain ⟨policies, probes⟩ := Policy.run_touches_nothing_early
  refine ⟨?_, ?_, ?_⟩
  · exact ((policies ScriptedHost (policy {}) "evaluate" (arriving []) {}).1
      (by decide) (by decide)).1
  · refine (policies ScriptedHost (policy {}) "validate" (arriving [.failure "late"]) {}).2.2 ?_
    rintro ⟨_, document, arrives, _⟩
    rw [document_arriving] at arrives
    cases arrives
  · exact (probes {} "validate" (arriving [.interrupt]) {}).2.mpr
      ⟨rfl, _, ⟨.dnsLookup, .success⟩, arriving_brings, rfl⟩

end Probe

end AdmissionGuest
