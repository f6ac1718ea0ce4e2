import AdmissionGuest.Proofs.Admission.Tolerance
import AdmissionGuest.Proofs.Probe.Settings
/-!
The grammar of settings. A text chooses a scenario only if it is the whole name of it. Settings are
valid exactly if they are an object in which the one member that is looked at occurs at most once
and is null or such a name, or a list that has no item or one of these. All else is refused, and
the refusal says why.
-/

namespace AdmissionGuest

open Spelling

namespace Probe

/-- What may be chosen: nothing, or a scenario by its name. -/
def Known (chosen : Option String) : Prop :=
  chosen = none ∨ ∃ s : Scenario, chosen = some s.name

/-- The values of the member that chooses. -/
inductive Choice : Spelling → Prop where
  | idle : Choice .null
  | named (s : Scenario) {ms : List Mark} (spelled : textOf ms = .ok s.name) : Choice (.text ms)

/-- The documents of valid settings. -/
inductive Grammar : Spelling → Prop where
  /-- an object; its other members are of no matter, whatever they hold -/
  | members {inside : List Blank} {ms : List (Member Spelling)} {es : List (String × Spelling)}
    (named : Fields.entries ms = .ok es)
    (once : (es.filter fun e => e.1 == "testScenario").length ≤ 1)
    (choice : ∀ e ∈ es, e.1 = "testScenario" → Choice e.2) : Grammar (.object inside ms)
  | empty {inside : List Blank} : Grammar (.list inside [])
  | item {inside : List Blank} {x : Item Spelling} (choice : Choice x.value) :
    Grammar (.list inside [x])

/-! What is judged valid -/

theorem validateSettings_known {settings : ProbeSettings} (known : Known settings.testScenario) :
    validateSettings settings = .ok .accept := by
  obtain ⟨chosen⟩ := settings
  obtain rfl | ⟨s, rfl⟩ : chosen = none ∨ ∃ s : Scenario, chosen = some s.name := known
  · rfl
  · have scenario : ProbeSettings.scenario ⟨some s.name⟩ = .ok (some s) :=
      ProbeSettings.scenario_ok_some_iff.mpr rfl
    rw [validateSettings, scenario]

theorem validateSettings_unknown {settings : ProbeSettings}
    (unknown : ¬ Known settings.testScenario) :
    ∃ message, validateSettings settings = .ok (.refuse message) := by
  rw [validateSettings]
  cases scenario : settings.scenario with
  | error e =>
    obtain ⟨message, rfl⟩ := ProbeSettings.scenario_error scenario
    exact ⟨message, rfl⟩
  | ok chosen =>
    cases chosen with
    | some s => exact absurd (.inr ⟨s, ProbeSettings.scenario_ok_some_iff.mp scenario⟩) unknown
    | none =>
      obtain ⟨_ | text⟩ := settings
      · exact absurd (.inl rfl) unknown
      · change ((Scenario.ofText text).map some).mapError Error.invalidSettings = _ at scenario
        cases known : Scenario.ofText text <;> rw [known] at scenario <;> cases scenario

/-! What a document gives -/

section Reading

variable {depth : Nat} {d : Spelling}

theorem reading_text_iff {chosen : Option String} :
    (Fields.reading depth .optional .text d : Except Cause (Option String)) = .ok chosen ↔
      (d = .null ∧ chosen = none) ∨
        ∃ ms text, d = .text ms ∧ textOf ms = .ok text ∧ chosen = some text := by
  by_cases null : d = .null
  · subst null
    refine (Shape.reading_null (s := .text) chosen).trans ?_
    constructor
    · rintro ⟨⟩
      exact .inl ⟨rfl, rfl⟩
    · rintro (⟨_, rfl⟩ | ⟨_, _, contrary, _⟩)
      · rfl
      · cases contrary
  · refine (Shape.readOptional_on (Shape.text.read_uniform depth) null).trans ?_
    have text {w : String} : (Shape.text.read depth).on d = .ok w ↔ Shape.onText d = .ok w :=
      (Shape.readText_finds _ d).ok_iff
    constructor
    · rintro ⟨w, read, rfl⟩
      have spelled := text.mp read
      cases d with
      | text ms => exact .inr ⟨ms, w, rfl, spelled, rfl⟩
      | null | flag | number | list | object => cases spelled
    · rintro (⟨contrary, _⟩ | ⟨ms, w, rfl, spelled, rfl⟩)
      · exact absurd contrary null
      · exact ⟨w, text.mpr spelled, rfl⟩

theorem choice_iff :
    Choice d ↔ ∃ chosen : Option String,
      (Fields.reading depth .optional .text d : Except Cause (Option String)) = .ok chosen ∧
        Known chosen := by
  constructor
  · intro choice
    cases choice with
    | idle => exact ⟨none, reading_text_iff.mpr (.inl ⟨rfl, rfl⟩), .inl rfl⟩
    | named s spelled =>
      exact ⟨some s.name, reading_text_iff.mpr (.inr ⟨_, _, rfl, spelled, rfl⟩), .inr ⟨s, rfl⟩⟩
  · rintro ⟨chosen, read, known⟩
    obtain ⟨rfl, _⟩ | ⟨ms, text, rfl, spelled, rfl⟩ := reading_text_iff.mp read
    · exact .idle
    · obtain contrary | ⟨s, same⟩ := known
      · cases contrary
      · cases same
        exact .named s spelled

/-- The one member that settings look at. -/
def scenarioField : Field := ⟨"testScenario", .optional, []⟩

theorem own_scenario (es : List (String × Spelling)) :
    scenarioField.own es = es.filter fun e => e.1 == "testScenario" := by
  refine List.filter_congr fun e _ => ?_
  exact Bool.or_false _

theorem given_known_iff {es : List (String × Spelling)} :
    (∃ chosen : Option String,
      Fields.Given (Fields.reading depth) .optional .text (scenarioField.own es) chosen ∧
        Known chosen) ↔
      (es.filter fun e => e.1 == "testScenario").length ≤ 1 ∧
        ∀ e ∈ es, e.1 = "testScenario" → Choice e.2 := by
  refine (Fields.exists_given_iff .optional .text).trans ?_
  rw [own_scenario]
  refine and_congr_right fun _ => ?_
  constructor
  · rintro ⟨each, _⟩ e here named
    exact choice_iff.mpr (each e (List.mem_filter.mpr ⟨here, beq_iff_eq.mpr named⟩))
  · intro choice
    refine ⟨fun e mine => ?_, fun _ => ⟨none, rfl, .inl rfl⟩⟩
    obtain ⟨here, named⟩ := List.mem_filter.mp mine
    exact choice_iff.mp (choice e here (beq_iff_eq.mp named))

/-- The grammar is what is read as settings that choose nothing or a scenario. -/
theorem grammar_iff :
    Grammar d ↔ ∃ settings : ProbeSettings,
      ((Shaped.shape ProbeSettings).read Json.nestingLimit).on d =
        .ok (Shaped.toVal settings) ∧ Known settings.testScenario := by
  constructor
  · intro grammar
    cases grammar with
    | members named once choice =>
      obtain ⟨chosen, given, known⟩ := given_known_iff.mpr ⟨once, choice⟩
      exact ⟨⟨chosen⟩, Shape.on_object_iff.mpr ⟨126, rfl, _, named, given, trivial⟩, known⟩
    | empty => exact ⟨⟨none⟩, Shape.on_list_iff.mpr ⟨126, rfl, rfl, rfl⟩, .inl rfl⟩
    | item choice =>
      obtain ⟨chosen, read, known⟩ := choice_iff.mp choice
      exact ⟨⟨chosen⟩, Shape.on_list_iff.mpr ⟨126, rfl, read, rfl⟩, known⟩
  · rintro ⟨⟨chosen⟩, read, known⟩
    cases d with
    | object inside ms =>
      obtain ⟨inner, _, es, named, given, _⟩ := Shape.on_object_iff.mp read
      obtain ⟨once, choice⟩ := given_known_iff.mp ⟨chosen, given, known⟩
      exact .members named once choice
    | list inside xs =>
      obtain ⟨inner, _, yields⟩ := Shape.on_list_iff.mp read
      match xs, yields with
      | [], _ => exact .empty
      | [x], yields => exact .item (choice_iff.mpr ⟨chosen, yields.1, known⟩)
      | _ :: _ :: _, yields => cases yields.2
    | null | flag | number | text =>
      refine absurd read (Shape.not_on_other ?_ ?_)
      · exact nofun
      · exact nofun

end Reading

/-! Verdicts -/

section Verdicts

variable (config : Config) {η : Type} [Host η] {session : Session η}

/-- The response to settings that are alone in the input. -/
def responseTo (session : Session η) : PolicyResponse :=
  (((policy config).respond "validate-settings").run session).1

variable {before after : List Blank} {d : Spelling}

theorem responseTo_grammar (grammar : Grammar d)
    (alone : Source.document session.input.arrivals = .ok (document before d after)) :
    responseTo config session = .settings .accept := by
  obtain ⟨settings, read, known⟩ := grammar_iff.mp grammar
  have decoded := (decode_document_iff before d after settings).mpr read
  rw [responseTo, respond_judged config alone, decoded]
  rw [show (.ok settings >>= validateSettings) = _ from validateSettings_known known]

theorem responseTo_undecoded {text : Bytes} {e : Error}
    (alone : Source.document session.input.arrivals = .ok text)
    (failed : (decode text : Except Error ProbeSettings) = .error e) :
    responseTo config session = .settings (.refuse e.message) := by
  rw [responseTo, respond_judged config alone, failed]
  rfl

theorem responseTo_not_grammar (grammar : ¬ Grammar d)
    (alone : Source.document session.input.arrivals = .ok (document before d after)) :
    ∃ message, responseTo config session = .settings (.refuse message) := by
  cases decoded : (decode (document before d after) : Except Error ProbeSettings) with
  | error e => exact ⟨_, responseTo_undecoded config alone decoded⟩
  | ok settings =>
    have read := (decode_document_iff before d after settings).mp decoded
    have unknown : ¬ Known settings.testScenario := fun known =>
      grammar (grammar_iff.mpr ⟨settings, read, known⟩)
    obtain ⟨message, refused⟩ := validateSettings_unknown unknown
    refine ⟨message, ?_⟩
    rw [responseTo, respond_judged config alone, decoded]
    rw [show (.ok settings >>= validateSettings) = _ from refused]

end Verdicts

/-- A text is read as a scenario exactly if it is the name of it; of any other text it is said that
it is unknown. And settings are answered to be valid exactly if their document is one of the grammar;
every other document, and every text that is no document, is refused with a message. -/
theorem settings_accepted_iff (config : Config) :
    (∀ (text : String) (s : Scenario), Scenario.ofText text = .ok s ↔ text = s.name) ∧
    (∀ text : String, (∀ s : Scenario, text ≠ s.name) →
      Scenario.ofText text = .error ("unknown testScenario: " ++ text)) ∧
    ∀ {η : Type} [Host η] (session : Session η),
      (∀ (before : List Blank) (d : Spelling) (after : List Blank),
        Source.document session.input.arrivals = .ok (document before d after) →
        ∃ verdict, (((policy config).respond "validate-settings").run session).1 =
            .settings verdict ∧
          (verdict.valid = true ↔ Grammar d) ∧
          (¬ Grammar d → ∃ message, verdict = .refuse message)) ∧
      ∀ text : String, Source.document session.input.arrivals = .ok (Utf8.encode text) →
        (∀ before d after, Utf8.encode text ≠ document before d after) →
        ∃ message, (((policy config).respond "validate-settings").run session).1 =
          .settings (.refuse message) := by
  refine ⟨fun text s => Scenario.ofText_ok_iff,
    fun text unknown => Scenario.ofText_error_iff.mpr ⟨unknown, rfl⟩, fun session => ⟨?_, ?_⟩⟩
  · intro before d after alone
    by_cases grammar : Grammar d
    · exact ⟨.accept, responseTo_grammar config grammar alone, iff_of_true rfl grammar,
        fun refused => absurd grammar refused⟩
    · obtain ⟨message, refused⟩ := responseTo_not_grammar config grammar alone
      exact ⟨.refuse message, refused, iff_of_false nofun grammar, fun _ => ⟨message, rfl⟩⟩
  · intro text alone unspelled
    cases decoded : (decode (Utf8.encode text) : Except Error ProbeSettings) with
    | error e => exact ⟨_, responseTo_undecoded config alone decoded⟩
    | ok settings =>
      obtain ⟨before, d, after, spelled⟩ := document_of_decode decoded
      exact absurd spelled (unspelled before d after)

/-! Settings with members that nobody looks at, with a choice made twice, and with a name that has
its ending twice -/

open ValidationRequest (sampleMember sampleText hostile)

def sampleChoice : Spelling :=
  .object [.lineFeed] [sampleMember "größe" (hostile 200), sampleText "testScenario" "can-i-success",
    sampleMember "größe" .null]

def sampleTwice : Spelling :=
  .object [] [sampleText "testScenario" "can-i-success", sampleMember "testScenario" .null]

def sampleDoubled : Spelling := .list [] [{ value := .text (marks "can-i-success-success") }]

theorem sampleChoice_grammar : Grammar sampleChoice := by
  have named : Fields.entries [sampleMember "größe" (hostile 200),
      sampleText "testScenario" "can-i-success", sampleMember "größe" .null] =
      .ok [("größe", hostile 200), ("testScenario", .text (marks "can-i-success")),
        ("größe", .null)] := rfl
  refine .members named (by decide) fun e here chosen => ?_
  simp only [List.mem_cons, List.not_mem_nil, or_false] at here
  rcases here with rfl | rfl | rfl
  · exact absurd chosen (by decide)
  · exact .named ⟨.canI, .success⟩ (textOf_marks _)
  · exact absurd chosen (by decide)

theorem sampleTwice_not_grammar : ¬ Grammar sampleTwice := by
  intro grammar
  have entered : Fields.entries [sampleText "testScenario" "can-i-success",
      sampleMember "testScenario" .null] =
      .ok [("testScenario", .text (marks "can-i-success")), ("testScenario", .null)] := rfl
  cases grammar with
  | members named once =>
    cases entered.symm.trans named
    exact absurd once (by decide)

theorem sampleDoubled_not_grammar : ¬ Grammar sampleDoubled := by
  intro grammar
  cases grammar with
  | item choice =>
    cases choice with
    | named s spelled =>
      rw [textOf_marks] at spelled
      have known : Scenario.named? "can-i-success-success" = some s :=
        Scenario.named?_eq_some_iff.mpr (Except.ok.inj spelled)
      have unknown : Scenario.named? "can-i-success-success" = none := by decide
      cases known.symm.trans unknown

theorem samples_judged :
    (∃ verdict, verdictOn {} (holding (document [] sampleChoice [])) = .settings verdict ∧
      verdict.valid = true) ∧
    (∃ message, verdictOn {} (holding (document [] sampleTwice [])) =
      .settings (.refuse message)) ∧
    ∃ message, verdictOn {} (holding (document [] sampleDoubled [])) =
      .settings (.refuse message) := by
  have judged (d : Spelling) : ∃ verdict,
      verdictOn {} (holding (document [] d [])) = .settings verdict ∧
        (verdict.valid = true ↔ Grammar d) ∧
        (¬ Grammar d → ∃ message, verdict = .refuse message) :=
    ((settings_accepted_iff {}).2.2 (holding (document [] d []))).1 [] d []
      (Source.document_ofBytes _)
  obtain ⟨accepted, response, valid, _⟩ := judged sampleChoice
  obtain ⟨_, twice, _, refused⟩ := judged sampleTwice
  obtain ⟨_, doubled, _, refused'⟩ := judged sampleDoubled
  obtain ⟨message, rfl⟩ := refused sampleTwice_not_grammar
  obtain ⟨message', rfl⟩ := refused' sampleDoubled_not_grammar
  exact ⟨⟨accepted, response, valid.mpr sampleChoice_grammar⟩, ⟨message, twice⟩,
    ⟨message', doubled⟩⟩

end Probe

end AdmissionGuest
