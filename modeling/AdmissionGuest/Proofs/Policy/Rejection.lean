import AdmissionGuest.DigestPolicy
import AdmissionGuest.Host.Scripted
import AdmissionGuest.Proofs.Document
import AdmissionGuest.Proofs.Guest
import AdmissionGuest.Proofs.Policy.Delivery
/-!
An invocation fails closed. If the input cannot be read, is not a document of the right form, or the
policy fails, the response is a verdict against the request or the settings, and the text of the
error is all that it carries.
-/

namespace AdmissionGuest.Policy

variable {η α β : Type} [Named α] [OfDocument α]

/-- How judging what the input brings can fail. -/
inductive Fails (session : Session η) (judge : α → Guest η β) : Error → Prop where
  /-- the input failed -/
  | input {message : String} (unread : session.input.readAll.1 = .error message) :
    Fails session judge (.stream message)
  /-- the input is not the document of what is judged -/
  | document {bytes : Bytes} {reads : Nat} {e : Error}
      (read : session.input.readAll.1 = .ok (bytes, reads))
      (unfit : decode (α := α) bytes = .error e) :
    Fails session judge e
  /-- the judge failed -/
  | verdict {bytes : Bytes} {reads : Nat} {a : α} {e : Error}
      (read : session.input.readAll.1 = .ok (bytes, reads)) (fit : decode bytes = .ok a)
      (failed : ((judge a).run.run
        (session.fed.record (.documentRead bytes.length reads))).1 = .error e) :
    Fails session judge e

/-- Reads the input and judges what it brings. -/
def judged (judge : α → Guest η β) : Guest η β := do
  let bytes ← readInput
  let a ← MonadExcept.ofExcept (decode bytes)
  judge a

/-- These are all the ways. -/
theorem fails_iff {judge : α → Guest η β} {session : Session η} {e : Error} :
    Fails session judge e ↔ ((judged judge).run.run session).1 = .error e := by
  constructor
  · intro fails
    cases fails with
    | input unread => rw [judged, Guest.bind_error (readInput_error unread)]
    | document read unfit =>
      rw [judged, Guest.bind_ok (readInput_ok read), unfit, Guest.bind_error (Guest.ofExcept_run _)]
    | verdict read fit failed =>
      rw [judged, Guest.bind_ok (readInput_ok read), fit, Guest.bind_ok (Guest.ofExcept_run _)]
      exact failed
  · intro failed
    cases read : session.input.readAll.1 with
    | error message =>
      rw [judged, Guest.bind_error (readInput_error read)] at failed
      cases failed
      exact .input read
    | ok document =>
      obtain ⟨bytes, reads⟩ := document
      rw [judged, Guest.bind_ok (readInput_ok read)] at failed
      cases fit : decode (α := α) bytes with
      | error unfit =>
        rw [fit, Guest.bind_error (Guest.ofExcept_run _)] at failed
        cases failed
        exact .document read fit
      | ok a =>
        rw [fit, Guest.bind_ok (Guest.ofExcept_run _)] at failed
        exact .verdict read fit failed

instance (judge : α → Guest η β) (session : Session η) (e : Error) :
    Decidable (Fails session judge e) :=
  match outcome : ((judged judge).run.run session).1 with
  | .ok _ => isFalse fun fails => nomatch outcome.symm.trans (fails_iff.mp fails)
  | .error raised =>
    decidable_of_iff (raised = e) <| by rw [fails_iff, outcome, Except.error.injEq]

def judgeSettings (policy : Policy) (settings : policy.Settings) :
    Guest η SettingsValidationResponse :=
  MonadExcept.ofExcept (policy.validateSettings settings)

variable [Host η] {policy : Policy} {session : Session η} {e : Error}

theorem respond_validate_failed
    (fails : Fails (session.record (.policyStarted "validate")) policy.validate e) :
    ((policy.respond "validate").run session).1 = .validation (.reject e.message none) := by
  have failed : (policy.validation.run.run (session.record (.policyStarted "validate"))).1 =
      .error e := fails_iff.mp fails
  rw [respond_validate, failed]

theorem respond_validateSettings_failed
    (fails : Fails (session.record (.policyStarted "validate-settings")) policy.judgeSettings e) :
    ((policy.respond "validate-settings").run session).1 = .settings (.refuse e.message) := by
  have failed : (policy.settingsValidation.run.run
      (session.record (.policyStarted "validate-settings"))).1 = .error e := fails_iff.mp fails
  rw [respond_validateSettings, failed]

/-- The one document that was delivered is this response, and has these members and no others. -/
def Outcome.Answers (outcome : Outcome η) (output : Sink) (response : PolicyResponse)
    (members : List (String × Json)) : Prop :=
  ∃ document, outcome.Delivers output document ∧ decode document = .ok response ∧
    ∃ v : Value, decode document = .ok v ∧ v.json = .object members

/-- The request was rejected with this message and nothing else. -/
def Outcome.Rejects (outcome : Outcome η) (output : Sink) (message : String) : Prop :=
  outcome.Answers output (.validation { accepted := false, message := some message })
    [("accepted", .flag false), ("message", .text message)]

/-- The settings were refused with this message and nothing else. -/
def Outcome.Refuses (outcome : Outcome η) (output : Sink) (message : String) : Prop :=
  outcome.Answers output (.settings { valid := false, message := some message })
    [("message", .text message), ("valid", .flag false)]

theorem run_answers {action : String} {output : Sink} {response : PolicyResponse}
    {members ordered : List (String × Json)} (unlimited : output.Unlimited)
    (responded : ((policy.respond action).run session).1 = response)
    (encoded : encode response = .ok (Json.object members).write)
    (viewed : PolicyResponse.view (.object members) = .ok response)
    (whole : (Json.object members).Whole) (fits : (Json.object members).height ≤ Json.nestingLimit)
    (canonical : (Json.object members).canonical = .object ordered) :
    (policy.run action session output).Answers output response ordered := by
  rw [← responded] at encoded
  have delivers := (policy.run_delivers_iff action session output encoded).mpr
    ⟨unlimited.takes _, unlimited.flushFailure⟩
  exact ⟨_, delivers, decode_response whole fits viewed, _, decode_write whole fits, canonical⟩

theorem run_rejects {output : Sink} (unlimited : output.Unlimited)
    (fails : Fails (session.record (.policyStarted "validate")) policy.validate e) :
    (policy.run "validate" session output).Rejects output e.message := by
  have encoded : encode (PolicyResponse.validation (.reject e.message none)) =
      .ok (Json.write (.object [("accepted", .flag false), ("message", .text e.message)])) := rfl
  have fits : (Json.object [("accepted", .flag false), ("message", .text e.message)]).height ≤
      Json.nestingLimit := show 1 ≤ 127 by decide
  exact run_answers unlimited (respond_validate_failed fails) encoded rfl
    ⟨trivial, trivial, trivial⟩ fits rfl

theorem run_refuses {output : Sink} (unlimited : output.Unlimited)
    (fails : Fails (session.record (.policyStarted "validate-settings")) policy.judgeSettings e) :
    (policy.run "validate-settings" session output).Refuses output e.message := by
  have encoded : encode (PolicyResponse.settings (.refuse e.message)) =
      .ok (Json.write (.object [("valid", .flag false), ("message", .text e.message)])) := rfl
  have fits : (Json.object [("valid", .flag false), ("message", .text e.message)]).height ≤
      Json.nestingLimit := show 1 ≤ 127 by decide
  exact run_answers unlimited (respond_validateSettings_failed fails) encoded rfl
    ⟨trivial, trivial, trivial⟩ fits rfl

/-- Every failure before the response becomes a verdict against the request or the settings whose
message is the text of the error. What a host replies to a failed call is part of that text, and
nothing in it shows anywhere else. -/
theorem run_fails_closed (policy : Policy) (session : Session η) {output : Sink}
    (unlimited : output.Unlimited) :
    (∀ e, Fails (session.record (.policyStarted "validate")) policy.validate e →
      (policy.run "validate" session output).Rejects output e.message) ∧
    (∀ e, Fails (session.record (.policyStarted "validate-settings")) policy.judgeSettings e →
      (policy.run "validate-settings" session output).Refuses output e.message) ∧
    ∀ (address : Address) (payload body : Bytes) (s t u : Session η) (e : Error),
      Host.call address payload (s.record (.callMade address payload.length)) = (false, t) →
      (Host.reply : Guest η Bytes).run.run t = (.ok body, u) →
      ((invoke address payload : Guest η Bytes).run.run s).1 = .error e →
      Fails (session.record (.policyStarted "validate")) policy.validate e →
      (policy.run "validate" session output).Rejects output
        ("host call " ++ address.shown ++ " failed: " ++ Utf8.decodeLossy body) := by
  refine ⟨fun e fails => run_rejects unlimited fails, fun e fails => run_refuses unlimited fails, ?_⟩
  intro address payload body s t u e called replied failed fails
  -- Whatever the policy did before, the error it passes on is the one this call gave.
  have same := invoke_replied called replied
  have text : e.message =
      "host call " ++ address.shown ++ " failed: " ++ Utf8.decodeLossy body := by
    rw [same] at failed
    cases failed
    rfl
  rw [← text]
  exact run_rejects unlimited fails

/-- A reply that would end the text and admit the request, with bytes that are no text. -/
def hostileReply : Bytes :=
  Utf8.encode "\",\"accepted\":true,\"x\":\"\\" ++ [0xFF, 0x00]

/-- The session of a request for an image, with a host that fails the one call it answers. -/
def hostileSession : Session ScriptedHost where
  input := .ofBytes <| Json.write <| .object [
    ("request", .object [
      ("uid", .text "u"),
      ("kind", .object [("version", .text "v1"), ("kind", .text "Pod")]),
      ("resource", .object [("version", .text "v1"), ("resource", .text "pods")]),
      ("operation", .text "CREATE")]),
    ("settings", .object [("image", .text "nginx")])]
  host := { replies := [⟨false, hostileReply⟩] }

theorem hostile_reply_rejected :
    (DigestPolicy.policy.run "validate" { hostileSession with input := ⟨[.failure "reset"], 0, 0⟩ }
      {}).Rejects {} "I/O error: reset" ∧
    (DigestPolicy.policy.run "validate-settings"
      { hostileSession with input := .ofBytes (Json.object [("image", .text "")]).write }
      {}).Refuses {} "invalid settings: image must not be empty" ∧
    (DigestPolicy.policy.run "validate" hostileSession {}).Rejects {}
      ("host call kubewarden/oci/v1/manifest_digest failed: " ++
        "\",\"accepted\":true,\"x\":\"\\\uFFFD\x00") := by
  have unlimited : Sink.Unlimited {} := ⟨by decide, rfl, rfl⟩
  refine ⟨?_, ?_, ?_⟩
  · exact (run_fails_closed _ _ unlimited).1 (.stream "reset") (by decide +kernel)
  · exact (run_fails_closed _ _ unlimited).2.1 (.invalidSettings "image must not be empty")
      (by decide +kernel)
  · exact (run_fails_closed _ _ unlimited).2.2 .manifestDigest [] hostileReply hostileSession _ _ _
      rfl rfl rfl (by decide +kernel)

end AdmissionGuest.Policy
