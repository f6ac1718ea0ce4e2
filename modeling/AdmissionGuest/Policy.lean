import AdmissionGuest.Admission.Action
import AdmissionGuest.Admission.Request
import AdmissionGuest.Admission.Response
import AdmissionGuest.Host.Basic
/-!
A policy, and one invocation of it: the action is found, the input is read and decoded, the policy
decides, and one response is written. Whatever fails before the response is written becomes part of
the response, as a rejection or as a verdict against the settings.
-/

namespace AdmissionGuest

/-- The rules of an admission policy. It may call the host, and it may fail. -/
structure Policy where
  /-- what the operator configures -/
  Settings : Type
  [settingsName : Named Settings]
  [settingsDocument : OfDocument Settings]
  [requestDocument : OfDocument (ValidationRequest Settings)]
  /-- judges a request -/
  validate : {η : Type} → [Host η] → ValidationRequest Settings → Guest η ValidationResponse
  /-- judges settings before the policy is used -/
  validateSettings : Settings → Except Error SettingsValidationResponse

namespace Policy

attribute [instance] Policy.settingsName Policy.settingsDocument Policy.requestDocument

variable {η : Type} [Host η]

def validation (policy : Policy) : Guest η ValidationResponse := do
  let bytes ← readInput
  let request ← MonadExcept.ofExcept (decode (α := ValidationRequest policy.Settings) bytes)
  policy.validate request

def settingsValidation (policy : Policy) : Guest η SettingsValidationResponse := do
  let bytes ← readInput
  let settings ← MonadExcept.ofExcept (decode (α := policy.Settings) bytes)
  MonadExcept.ofExcept (policy.validateSettings settings)

def respondTo (policy : Policy) : PolicyAction → StateM (Session η) PolicyResponse
  | .validate => do
    match ← policy.validation.run with
    | .ok response => return .validation response
    | .error e =>
      modify (Session.record (.validationFailed e))
      return .validation (.reject e.message none)
  | .validateSettings => do
    match ← policy.settingsValidation.run with
    | .ok response => return .settings response
    | .error e =>
      modify (Session.record (.settingsValidationFailed e))
      return .settings (.refuse e.message)

/-- The response to the name of an action. For an unknown one nothing is read. -/
def respond (policy : Policy) (action : String) : StateM (Session η) PolicyResponse :=
  match PolicyAction.ofText action with
  | .ok action => do
    modify (Session.record (.policyStarted action.name))
    policy.respondTo action
  | .error message => do
    modify (Session.record (.actionUnknown message))
    return .validation (.reject PolicyAction.wrongInvocation none)

/-- What is left after an invocation. -/
structure Outcome (η : Type) where
  /-- fails only if the response could not be written -/
  result : Except Error Unit
  output : Sink
  session : Session η

/-- One invocation: the response to an action, written to the output. -/
def run (policy : Policy) (action : String) (session : Session η) (output : Sink) : Outcome η :=
  let (response, session) := (policy.respond action).run session
  let (result, output, log) := writeDocument response output
  ⟨result, output, { session with log := session.log ++ log }⟩

end Policy

end AdmissionGuest
