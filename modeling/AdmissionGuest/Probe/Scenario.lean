import AdmissionGuest.Document
import AdmissionGuest.Text.Ending
/-!
What a probe does: it uses one capability and expects that to succeed or to fail. A scenario is
chosen by its name in the settings.
-/

namespace AdmissionGuest

/-- A capability that can be probed. -/
inductive ProbeCapability where
  | ociManifestDigest
  | dnsLookup
  | ociManifest
  | ociManifestAndConfig
  | getResource
  | listAllResources
  | listResourcesByNamespace
  | canI
  | sigstoreVerifyPubkey
  | sigstoreVerifyKeylessExact
  | sigstoreVerifyKeylessPrefix
  | sigstoreVerifyGithubActions
  | cryptoVerifyCert
  deriving DecidableEq, Repr

namespace ProbeCapability

def all : List ProbeCapability :=
  [ociManifestDigest, dnsLookup, ociManifest, ociManifestAndConfig, getResource, listAllResources,
    listResourcesByNamespace, canI, sigstoreVerifyPubkey, sigstoreVerifyKeylessExact,
    sigstoreVerifyKeylessPrefix, sigstoreVerifyGithubActions, cryptoVerifyCert]

/-- What the names of the scenarios of a capability begin with. -/
def name : ProbeCapability → String
  | ociManifestDigest => "oci-manifest-digest"
  | dnsLookup => "dns-lookup"
  | ociManifest => "oci-manifest"
  | ociManifestAndConfig => "oci-manifest-and-config"
  | getResource => "get-resource"
  | listAllResources => "list-all-resources"
  | listResourcesByNamespace => "list-resources-by-namespace"
  | canI => "can-i"
  | sigstoreVerifyPubkey => "sigstore-verify-pubkey"
  | sigstoreVerifyKeylessExact => "sigstore-verify-keyless-exact"
  | sigstoreVerifyKeylessPrefix => "sigstore-verify-keyless-prefix"
  | sigstoreVerifyGithubActions => "sigstore-verify-github-actions"
  | cryptoVerifyCert => "crypto-verify-cert"

end ProbeCapability

/-- What a scenario expects of the host. -/
inductive Expectation where
  | success
  | failure
  deriving DecidableEq, Repr

namespace Expectation

/-- What the names of scenarios with an expectation end with. -/
def name : Expectation → String
  | success => "success"
  | failure => "failure"

def all : List Expectation := [success, failure]

end Expectation

/-- A capability to probe, and what is expected of it. -/
structure Scenario where
  capability : ProbeCapability
  expectation : Expectation
  deriving DecidableEq, Repr

namespace Scenario

def name (s : Scenario) : String :=
  s.capability.name ++ "-" ++ s.expectation.name

/-- The scenario that a text names: its ending tells what is expected, and what stands before that is
the whole name of a capability. -/
def named? (text : String) : Option Scenario := do
  let (front, expectation) ←
    Expectation.all.findSome? fun e => (Text.before? ("-" ++ e.name) text).map (·, e)
  let capability ← ProbeCapability.all.find? fun c => c.name == front
  return ⟨capability, expectation⟩

/-- The scenario with exactly this name; otherwise the message says what was not known. -/
def ofText (text : String) : Except String Scenario :=
  match named? text with
  | some s => .ok s
  | none => .error ("unknown testScenario: " ++ text)

end Scenario

/-- The settings of the probe policy. -/
structure ProbeSettings where
  testScenario : Option String
  deriving DecidableEq, Repr

instance : Named ProbeSettings := ⟨"kubebridge::probe::ProbeSettings"⟩

instance : Shaped ProbeSettings where
  shape := .named "ProbeSettings" <| .optional "testScenario" .text .nil
  toVal s := (s.testScenario, ())
  ofVal := fun (testScenario, ()) => { testScenario }
  ofVal_toVal _ := rfl
  toVal_ofVal _ := rfl

/-- The scenario that settings choose, if they choose one. -/
def ProbeSettings.scenario (settings : ProbeSettings) : Except Error (Option Scenario) :=
  match settings.testScenario with
  | none => .ok none
  | some text => ((Scenario.ofText text).map some).mapError .invalidSettings

end AdmissionGuest
