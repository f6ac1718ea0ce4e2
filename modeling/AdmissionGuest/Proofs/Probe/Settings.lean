import AdmissionGuest.Proofs.Probe.Effects
import AdmissionGuest.Proofs.Shape.Reading.Embedded
/-!
Settings of the probe are understood alike wherever they stand: as a document of their own, when
they are judged, and inside a request. How deep they are nested does not matter, because what the
settings do not name is skipped.
-/

namespace AdmissionGuest

open Scan

section Decoding

variable {α : Type} [Named α] [Shaped α]

/-- What a document is decoded to, if it is read where it stands, is what it is viewed as. -/
theorem decode_ok_iff {j : Json} {a : α}
    (reads : (Shaped.shape α).ReadsWritten .asValue Json.nestingLimit j) :
    decode j.write = .ok a ↔ Shaped.view .asValue j = .ok a := by
  have follows : Follows (OfDocument.read (α := α) j.write) (Shaped.view .asValue j) [] := by
    have text := reads [] .nil
    rw [List.append_nil] at text
    exact text.map Shaped.ofVal
  constructor
  · intro decoded
    obtain ⟨rest, read⟩ := readable_of_decode decoded
    exact (follows.ok_iff.mp read).1
  · intro viewed
    exact decode_of_read (follows.ok_iff.mpr ⟨viewed, rfl⟩)

end Decoding

/-- The members that a request and settings are given by, in either order. -/
def Enveloped (request settings : Json) (members : List (String × Json)) : Prop :=
  members.Perm [("request", request), ("settings", settings)]

namespace Probe

open Shaped

/-- Settings have no part that is carried, so how deep they are nested does not matter. -/
theorem settings_readsWritten (kept : Kept) (depth : Nat) {j : Json} (whole : j.Whole) :
    (shape ProbeSettings).ReadsWritten kept (depth + 1) j := by
  -- the one field is a text, which is read without descending, so the depth is never looked at
  have same : (shape ProbeSettings).read (depth + 1) = (shape ProbeSettings).read (j.height + 1) :=
    rfl
  intro rest stops
  rw [same]
  exact (shape ProbeSettings).readsWritten_of_height kept whole (Nat.le_succ _) rest stops

variable {request settings : Json} {members : List (String × Json)}

theorem envelope_readsWritten (both : Enveloped request settings members)
    (wholeRequest : request.Whole) (fits : request.height < Json.nestingLimit)
    (wholeSettings : settings.Whole) :
    (shape (ValidationRequest ProbeSettings)).ReadsWritten .asValue Json.nestingLimit
      (.object members) := by
  change Shape.ReadsWritten .asValue _ (126 + 1) _
  apply Shape.record_readsWritten
  intro m member
  have either := both.mem_iff.mp member
  rw [List.mem_cons, List.mem_singleton] at either
  obtain rfl | rfl := either
  · exact Fields.tracksWritten_own rfl rfl
      (Shape.readsWritten_of_height _ _ wholeRequest (Nat.le_of_lt_succ fits))
  · exact Fields.tracksWritten_others rfl
      (Fields.tracksWritten_own rfl rfl (settings_readsWritten _ _ wholeSettings))

theorem view_envelope_iff (both : Enveloped request settings members)
    {r : ValidationRequest ProbeSettings} :
    view .asValue (.object members) = .ok r ↔
      view .asValue request = .ok r.request ∧ view .asValue settings = .ok r.settings := by
  have own : Field.own ⟨"request", .required, []⟩ members = [("request", request)] :=
    List.perm_singleton.mp (both.filter _)
  have others : Field.others ⟨"request", .required, []⟩ members = [("settings", settings)] :=
    List.perm_singleton.mp (both.filter _)
  rw [view_ok_iff, view_ok_iff, view_ok_iff]
  refine view_object_iff.trans ((Fields.takes_required_iff own).trans (and_congr_right fun _ => ?_))
  rw [others]
  exact (Fields.takes_required_iff rfl).trans (and_iff_left trivial)

/-- Settings are decoded alone exactly if they are decoded within a request, and to the same. -/
theorem decoded_alike {q : AdmissionRequest} (both : Enveloped (json q) settings members)
    (wholeRequest : (json q).Whole) (fits : (json q).height < Json.nestingLimit)
    (wholeSettings : settings.Whole) :
    (∃ r : ValidationRequest ProbeSettings, decode settings.write = .ok r.settings ∧
        decode (Json.object members).write = .ok r) ∨
      ∃ e e', (decode settings.write : Except Error ProbeSettings) = .error e ∧
        (decode (Json.object members).write : Except Error (ValidationRequest ProbeSettings)) =
          .error e' := by
  have proper : (shape AdmissionRequest).Proper := by decide
  have request : view .asValue (json q) =
      .ok (ofVal ((shape AdmissionRequest).settle (toVal q)) : AdmissionRequest) :=
    view_shaped proper (toVal_ofVal _).symm .asValue
  have alone {a : ProbeSettings} := decode_ok_iff (a := a)
    (settings_readsWritten .asValue 126 wholeSettings)
  have within {r : ValidationRequest ProbeSettings} := decode_ok_iff (a := r)
    (envelope_readsWritten both wholeRequest fits wholeSettings)
  cases decoded : (decode settings.write : Except Error ProbeSettings) with
  | ok found =>
    have viewed := (view_envelope_iff both (r := ⟨_, found⟩)).mpr ⟨request, alone.mp decoded⟩
    exact .inl ⟨⟨_, found⟩, rfl, within.mpr viewed⟩
  | error e =>
    cases enveloped : (decode (Json.object members).write :
        Except Error (ValidationRequest ProbeSettings)) with
    | ok r =>
      have viewed := (view_envelope_iff both).mp (within.mp enveloped)
      cases decoded.symm.trans (alone.mpr viewed.2)
    | error e' => exact .inr ⟨e, e', rfl, rfl⟩

/-! Verdicts on settings, and decisions on requests -/

/-- The verdict on settings that are alone in the input, whatever the host is. -/
theorem respond_judged {η : Type} [Host η] (config : Config) {session : Session η} {text : Bytes}
    (alone : Source.document session.input.arrivals = .ok text) :
    (((policy config).respond "validate-settings").run session).1 =
      .settings (match decode text >>= validateSettings with
        | .ok verdict => verdict
        | .error e => .refuse e.message) := by
  have judged := (policy config).settingsValidation_run
    (s := session.record (.policyStarted "validate-settings"))
  rw [Session.understood_document (s := session.record (.policyStarted "validate-settings")) alone]
    at judged
  rw [Policy.respond_validateSettings, judged]
  rfl

section Answers

variable (config : Config) {a b : Session ScriptedHost} {text : Bytes}

/-- The verdict on settings that are alone in the input. -/
def verdictOn (a : Session ScriptedHost) : PolicyResponse :=
  (((policy config).respond "validate-settings").run a).1

/-- The decision on a request. -/
def decisionOn (b : Session ScriptedHost) : PolicyResponse :=
  (((policy config).respond "validate").run b).1

/-- The host after the decision on a request. -/
def hostAfter (b : Session ScriptedHost) : ScriptedHost :=
  (((policy config).respond "validate").run b).2.host

theorem verdictOn_eq (alone : Source.document a.input.arrivals = .ok text) :
    verdictOn config a =
      .settings (match decode text >>= validateSettings with
        | .ok verdict => verdict
        | .error e => .refuse e.message) :=
  respond_judged config alone

theorem decisionOn_lost (arrives : Source.document b.input.arrivals = .ok text) {e : Error}
    (lost : (decode text : Except Error (ValidationRequest ProbeSettings)) = .error e) :
    decisionOn config b = .validation (.reject e.message none) ∧ hostAfter config b = b.host := by
  have understood : ((b.record (.policyStarted "validate")).understood :
      Except Error (ValidationRequest ProbeSettings)) = .error e :=
    (Session.understood_document arrives).trans lost
  have run := (policy config).validation_of_not_understood understood
  constructor
  · rw [decisionOn, Policy.respond_validate, run]
  · rw [hostAfter, Policy.respond_validate_host, run]
    exact Session.host_afterInput _

/-- A decoded request is decided on by its settings. -/
theorem decisionOn_decoded (arrives : Source.document b.input.arrivals = .ok text)
    {r : ValidationRequest ProbeSettings} (decoded : decode text = .ok r) :
    match r.settings.scenario with
    | .error e =>
      decisionOn config b = .validation (.reject e.message none) ∧ hostAfter config b = b.host
    | .ok none => decisionOn config b = .validation .accept ∧ hostAfter config b = b.host
    | .ok (some s) =>
      ∃ payload, hostAfter config b = b.host.served s.capability.address payload := by
  have understood : (b.record (.policyStarted "validate")).understood = .ok r :=
    (Session.understood_document arrives).trans decoded
  have run : _ = (validate config r).run.run _ :=
    (policy config).validation_of_understood understood
  have host := Session.host_afterInput (b.record (.policyStarted "validate"))
  rw [decisionOn, hostAfter, Policy.respond_validate, Policy.respond_validate_host, run]
  cases scenario : r.settings.scenario with
  | error e =>
    rw [validate_refused config scenario]
    exact ⟨rfl, host⟩
  | ok chosen =>
    cases chosen with
    | none =>
      rw [validate_idle config scenario]
      exact ⟨rfl, host⟩
    | some s =>
      obtain ⟨payload, served⟩ := validate_served config scenario
      exact ⟨payload, served.trans (congrArg _ host)⟩

/-- The settings stand in the way of nothing: the request is accepted without a call, or the one
call of a scenario is made. -/
def GetsPast (decision : PolicyResponse) (before after : ScriptedHost) : Prop :=
  (∃ v, decision = .validation v ∧ v.accepted = true ∧ after = before) ∨
    ∃ (s : Scenario) (payload : Bytes), after = before.served s.capability.address payload

theorem not_getsPast (message : String) (host : ScriptedHost) :
    ¬ GetsPast (.validation (.reject message none)) host host := by
  rintro (⟨v, same, accepted, _⟩ | ⟨s, payload, served⟩)
  · cases same
    cases accepted
  · have calls := congrArg (fun host => host.calls.length) served
    simp only [ScriptedHost.served, List.length_append, List.length_singleton] at calls
    omega

/-- What the two entries make of one and the same settings. -/
inductive Treated (decoded : Except Error ProbeSettings) (verdict decision : PolicyResponse)
    (before after : ScriptedHost) : Prop where
  | valid {settings : ProbeSettings} (decodes : decoded = .ok settings)
      (accepted : verdict = .settings .accept) (past : GetsPast decision before after)
      (served : ∀ s : Scenario, settings.testScenario = some s.name →
        ∃ payload, after = before.served s.capability.address payload)
  | refused {settings : ProbeSettings} {message : String} (decodes : decoded = .ok settings)
      (refused : verdict = .settings (.refuse message))
      (rejected : decision = .validation (.reject ("invalid settings: " ++ message) none))
      (untouched : after = before)
  | lost {type reason reason' : String} (fails : decoded = .error (.decode type reason))
      (refused : verdict = .settings (.refuse ("cannot decode ProbeSettings: " ++ reason)))
      (rejected : decision = .validation (.reject
        ("cannot decode ValidationRequest<kubebridge::probe::ProbeSettings>: " ++ reason') none))
      (untouched : after = before)

section

variable {settings : Json} {q : AdmissionRequest} {members : List (String × Json)}
  (wholeSettings : settings.Whole) (wholeRequest : (json q).Whole)
  (fits : (json q).height < Json.nestingLimit)
  (alone : Source.document a.input.arrivals = .ok settings.write)
  (both : Enveloped (json q) settings members)
  (within : Source.document b.input.arrivals = .ok (Json.object members).write)

include wholeSettings wholeRequest fits alone both within

theorem treated :
    Treated (decode settings.write) (verdictOn config a) (decisionOn config b) b.host
      (hostAfter config b) := by
  have verdict := verdictOn_eq config alone
  obtain ⟨r, decoded, request⟩ | ⟨e, e', failed, failed'⟩ :=
    decoded_alike both wholeRequest fits wholeSettings
  · have decision := decisionOn_decoded config within request
    rw [decoded] at verdict
    change _ = PolicyResponse.settings (match validateSettings r.settings with
      | .ok verdict => verdict
      | .error e => .refuse e.message) at verdict
    rw [validateSettings] at verdict
    cases scenario : r.settings.scenario with
    | error e =>
      obtain ⟨message, rfl⟩ := ProbeSettings.scenario_error scenario
      rw [scenario] at verdict decision
      exact .refused decoded verdict decision.1 decision.2
    | ok chosen =>
      rw [scenario] at verdict decision
      cases chosen with
      | none =>
        refine .valid decoded verdict (.inl ⟨.accept, decision.1, rfl, decision.2⟩) ?_
        intro s named
        cases scenario.symm.trans (ProbeSettings.scenario_ok_some_iff.mpr named)
      | some s =>
        obtain ⟨payload, served⟩ := decision
        refine .valid decoded verdict (.inr ⟨s, payload, served⟩) ?_
        intro t named
        cases scenario.symm.trans (ProbeSettings.scenario_ok_some_iff.mpr named)
        exact ⟨payload, served⟩
  · obtain ⟨reason, rfl⟩ := decode_error failed
    obtain ⟨reason', rfl⟩ := decode_error failed'
    obtain ⟨decision, host⟩ := decisionOn_lost config within failed'
    rw [failed] at verdict
    exact .lost failed verdict decision host

end

theorem not_valid_refuse {verdict : PolicyResponse} {message : String}
    (refused : verdict = .settings (.refuse message)) :
    ¬ ∃ v, verdict = .settings v ∧ v.valid = true := by
  rintro ⟨v, accepted, valid⟩
  cases refused.symm.trans accepted
  cases valid

/-- Settings are judged alike at both entries. Those that are valid alone are those that a request
gets past; those that are refused are refused in the same words; and those that cannot be decoded
cannot be decoded within a request. -/
theorem entries_agree {s : Value} {q : AdmissionRequest} {members : List (String × Json)}
    (whole : s.json.Whole) (wholeRequest : q.Whole) (fits : (json q).height < Json.nestingLimit)
    (encoded : encode s = .ok text) (alone : Source.document a.input.arrivals = .ok text)
    (both : Enveloped (json q) s.json members)
    (within : Source.document b.input.arrivals = .ok (Json.object members).write) :
    ((∃ v, verdictOn config a = .settings v ∧ v.valid = true) ↔
      GetsPast (decisionOn config b) b.host (hostAfter config b)) ∧
    (∀ settings : ProbeSettings, decode text = .ok settings →
      (verdictOn config a = .settings .accept ∧
        ∀ s : Scenario, settings.testScenario = some s.name →
          ∃ payload, hostAfter config b = b.host.served s.capability.address payload) ∨
      ∃ m, verdictOn config a = .settings (.refuse m) ∧
        decisionOn config b = .validation (.reject ("invalid settings: " ++ m) none) ∧
        hostAfter config b = b.host) ∧
    ∀ e, (decode text : Except Error ProbeSettings) = .error e →
      ∃ reason reason',
        verdictOn config a = .settings (.refuse ("cannot decode ProbeSettings: " ++ reason)) ∧
        decisionOn config b = .validation (.reject
          ("cannot decode ValidationRequest<kubebridge::probe::ProbeSettings>: " ++ reason')
          none) ∧
        hostAfter config b = b.host := by
  obtain rfl : s.json.write = text := Except.ok.inj encoded
  have requestWhole : (json q).Whole :=
    (shape AdmissionRequest).json_inherits Json.whole_inherited _ wholeRequest.carries
  cases treated config whole requestWhole fits alone both within with
  | valid decodes accepted past served =>
    refine ⟨iff_of_true ⟨.accept, accepted, rfl⟩ past, ?_, ?_⟩
    · intro settings decoded
      cases decodes.symm.trans decoded
      exact .inl ⟨accepted, served⟩
    · intro e failed
      cases decodes.symm.trans failed
  | refused decodes refused rejected untouched =>
    refine ⟨?_, fun _ _ => .inr ⟨_, refused, rejected, untouched⟩, ?_⟩
    · rw [rejected, untouched]
      exact iff_of_false (not_valid_refuse refused) (not_getsPast _ _)
    · intro e failed
      cases decodes.symm.trans failed
  | lost fails refused rejected untouched =>
    refine ⟨?_, ?_, fun _ _ => ⟨_, _, refused, rejected, untouched⟩⟩
    · rw [rejected, untouched]
      exact iff_of_false (not_valid_refuse refused) (not_getsPast _ _)
    · intro settings decoded
      cases fails.symm.trans decoded

end Answers

/-! Settings nested deeper than a document may be -/

def nested : Nat → Json
  | 0 => .null
  | n + 1 => .list [nested n]

theorem nested_canonical (n : Nat) : (nested n).Canonical := by
  induction n with
  | zero => trivial
  | succ n ih => exact ⟨ih, trivial⟩

theorem nested_whole (n : Nat) : (nested n).Whole := by
  induction n with
  | zero => trivial
  | succ n ih => exact ⟨ih, trivial⟩

/-- Settings that name no known scenario, beside something that is nested too deep to be carried. -/
def deepSettings : Value where
  json := .object [("extra", nested 500), ("testScenario", .text "nope")]
  canonical := by
    refine ⟨?_, nested_canonical 500, trivial, trivial⟩
    unfold Entries.Ascending
    decide

def deepMembers : List (String × Json) :=
  [("settings", deepSettings.json), ("request", json ValidationRequest.sparse.request)]

def holding (bytes : Bytes) : Session ScriptedHost :=
  ⟨.ofBytes bytes, ⟨[], [], none⟩, []⟩

theorem deepSettings_whole : deepSettings.json.Whole := ⟨nested_whole 500, trivial, trivial⟩

theorem deepSettings_refused :
    ∃ m, verdictOn {} (holding deepSettings.json.write) = .settings (.refuse m) ∧
      decisionOn {} (holding (Json.object deepMembers).write) =
        .validation (.reject ("invalid settings: " ++ m) none) ∧
      hostAfter {} (holding (Json.object deepMembers).write) = ⟨[], [], none⟩ := by
  have decoded : decode deepSettings.json.write = .ok (⟨some "nope"⟩ : ProbeSettings) :=
    (decode_ok_iff (settings_readsWritten .asValue 126 deepSettings_whole)).mpr rfl
  have alone := Source.document_ofBytes deepSettings.json.write
  have agree := entries_agree {} (a := holding deepSettings.json.write)
    (b := holding (Json.object deepMembers).write) deepSettings_whole
    ValidationRequest.sparse_whole (by decide) rfl alone (List.Perm.swap _ _ _)
    (Source.document_ofBytes _)
  obtain ⟨accepted, _⟩ | refused := agree.2.1 _ decoded
  · have verdict := verdictOn_eq {} (a := holding deepSettings.json.write) alone
    rw [decoded] at verdict
    cases accepted.symm.trans verdict
  · exact refused

end Probe

end AdmissionGuest
