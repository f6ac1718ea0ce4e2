import AdmissionGuest.Policy
import AdmissionGuest.Probe.Finding
/-!
The probe policy. It runs the scenario of its settings and admits the request if the host answered
as the scenario expects; without a scenario every request is admitted.
-/

namespace AdmissionGuest

namespace Probe

def annotated (response : ValidationResponse) (finding : Finding) : ValidationResponse :=
  finding.annotations.foldl (fun response (key, value) => response.annotate key value) response

/-- The verdict on a probe. An error of the host is as good as a negative answer, but it is reported
in the host's words. -/
def verdict (s : Scenario) (result : Except Error Finding) : ValidationResponse :=
  match s.expectation, result with
  | .success, .ok finding =>
    if finding.positive then annotated .accept finding
    else annotated (.reject (s.capability.name ++ " returned a negative result") none) finding
  | .success, .error e => .reject e.message none
  | .failure, .ok finding =>
    if finding.positive then
      annotated (.reject ("unexpectedly succeeded in " ++ s.capability.name) none) finding
    else annotated .accept finding
  | .failure, .error e =>
    ValidationResponse.accept.annotate "error" (e.hostMessage?.getD e.message)

variable {η : Type} [Host η]

def runScenario (s : Scenario) (config : Config) : StateM (Session η) ValidationResponse := do
  return verdict s (← (run s config).run)

def validate (config : Config) (request : ValidationRequest ProbeSettings) :
    Guest η ValidationResponse := do
  match ← MonadExcept.ofExcept request.settings.scenario with
  | none => return .accept
  | some s =>
    modify (Session.record (.probeStarted s.name request.request.uid))
    ExceptT.lift (runScenario s config)

/-- Judges settings: they must not name an unknown scenario. -/
def validateSettings (settings : ProbeSettings) : Except Error SettingsValidationResponse :=
  match settings.scenario with
  | .ok _ => .ok .accept
  | .error (.invalidSettings reason) => .ok (.refuse reason)
  | .error e => .error e

def policy (config : Config) : Policy where
  Settings := ProbeSettings
  validate := validate config
  validateSettings := validateSettings

end Probe

end AdmissionGuest
