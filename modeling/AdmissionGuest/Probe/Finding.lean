import AdmissionGuest.Admission.Response
import AdmissionGuest.Capability.Certificate
import AdmissionGuest.Capability.Cluster
import AdmissionGuest.Capability.Network
import AdmissionGuest.Capability.Registry
import AdmissionGuest.Capability.Signature
import AdmissionGuest.Probe.Scenario
/-!
What a probe finds out: whether the host's answer is affirmative, and the facts worth recording. The
inputs of a probe are fixed; they are chosen so that a working host answers as the scenario expects.
-/

namespace AdmissionGuest

/-- The answer of a capability, as yes or no with facts for the audit log. -/
structure Finding where
  positive : Bool
  annotations : List (String × String)
  deriving DecidableEq, Repr

namespace Probe

/-- One of two inputs, by what is expected. -/
def pick {α : Type} : Expectation → α → α → α
  | .success, a, _ => a
  | .failure, _, b => b

/-- A text as it is written in an annotation. -/
def shownFlag (b : Bool) : String := if b then "true" else "false"

/-- The image that scenarios of the registry ask about if they expect success. -/
def busyboxImage : String := "docker.io/library/busybox:1.36"

def oidcIssuer : String := "https://github.com/login/oauth"

def publicKey : String :=
  "-----BEGIN PUBLIC KEY-----\nMIIBIjANBgkqhkiG9w0BAQEFAAOCAQ8AMIIBCgKCAQEA...\n" ++
    "-----END PUBLIC KEY-----"

def resourceRequest : GetResourceRequest where
  apiVersion := "v1"
  kind := "Namespace"
  name := "test-policy"
  inNamespace := none
  disableCache := false

def listAllRequest (e : Expectation) : ListAllResourcesRequest where
  apiVersion := "v1"
  kind := pick e "Pod" "InvalidResource"
  labelSelector := pick e (some "app=nginx") none
  fieldSelector := none

def listByNamespaceRequest (e : Expectation) : ListResourcesByNamespaceRequest where
  apiVersion := "v1"
  kind := pick e "ConfigMap" "Pod"
  inNamespace := pick e "kube-system" "nonexistent-namespace"
  labelSelector := pick e (some "component=kube-proxy") none
  fieldSelector := none

def accessRequest (e : Expectation) : CanIRequest where
  subjectAccessReview :=
    { user := pick e "system:serviceaccount:default:my-service-account"
        "system:serviceaccount:kubewarden:kubewarden-controller"
      groups := none
      resourceAttributes :=
        { inNamespace := pick e none (some "")
          verb := pick e "create" "delete"
          group := ""
          resource := pick e "pods" "nodes"
          subresource := none
          name := none
          version := none } }
  disableCache := false

/-- The certificate that is checked, always against a deadline. -/
def certificateRequest (e : Expectation) : CertificateVerificationRequest where
  cert := .ofPem (pick e "certificate0" "invalid certificate data")
  certChain := []
  notAfter := some (pick e "2025-12-31T23:59:59Z" "2020-01-01T00:00:00Z")

def ofList (l : ObjectList Value) : Finding :=
  ⟨!l.items.isEmpty, [("count", toString l.items.length)]⟩

def ofVerification (r : VerificationResponse) (method : String) : Finding :=
  ⟨r.isTrusted,
    [("is_trusted", shownFlag r.isTrusted), ("digest", r.digest), ("verification_method", method)]⟩

/-- Whether a namespace bears the label of the demonstration. -/
def isLabelled (v : Value) : Bool :=
  let label? := do
    (← (← (← v.json.get? "metadata").get? "labels").get? "demo-namespace").text?
  label? == some "true"

variable {η : Type} [Host η]

def run (s : Scenario) (config : Config) : Guest η Finding :=
  let e := s.expectation
  match s.capability with
  | .ociManifestDigest => do
    let digest ← manifestDigest
      (pick e busyboxImage "registry.testing.lan/nonexistent-image:1.0.0")
    return ⟨!digest.isEmpty, [("digest", digest)]⟩
  | .dnsLookup => do
    let response ← Capability.dnsLookup.call (pick e "google.com" "invalid.nonexistent.tld")
    return ⟨!response.ips.isEmpty, [("ips", ", ".intercalate response.ips)]⟩
  | .ociManifest => do
    let response ← manifest (pick e busyboxImage "example.test/nonexistent-image:1.0.0")
    return ⟨true,
      [("manifestKind", response.kind), ("mediaType", response.mediaType?.getD "")]⟩
  | .ociManifestAndConfig => do
    let response ← manifestAndConfig (pick e busyboxImage "example.test/nonexistent-image")
    return ⟨true,
      [("digest", response.digest), ("os", response.config.os),
        ("architecture", response.config.architecture)]⟩
  | .getResource => do
    let labelled := isLabelled (← (Capability.getResource Value).call resourceRequest)
    return ⟨labelled, [("labelled", shownFlag labelled)]⟩
  | .listAllResources => do
    return ofList (← (Capability.listAll Value).call (listAllRequest e))
  | .listResourcesByNamespace => do
    return ofList (← (Capability.listByNamespace Value).call (listByNamespaceRequest e))
  | .canI => do
    let status ← Capability.canI.call (accessRequest e)
    return ⟨status.allowed,
      [("allowed", shownFlag status.allowed), ("reason", status.reason.getD "")]⟩
  | .sigstoreVerifyPubkey => do
    let image := pick e "registry.example.com/signed-app:v1.0.0"
      "registry.example.com/unsigned-app:v1.0.0"
    return ofVerification (← verifyPubKeys image [publicKey] none) "public_key"
  | .sigstoreVerifyKeylessExact => do
    let image := pick e "registry.example.com/ci-signed-app:v1.0.0"
      "registry.example.com/untrusted-app:v1.0.0"
    let signer := ⟨oidcIssuer, pick e "user@example.com" "untrusted@example.com"⟩
    return ofVerification (← verifyKeyless image [signer] none) "keyless_exact"
  | .sigstoreVerifyKeylessPrefix => do
    let image := pick e "registry.example.com/org-signed-app:v1.0.0"
      "registry.example.com/untrusted-org-app:v1.0.0"
    let signer := ⟨oidcIssuer, "https://github.com/trusted-org/"⟩
    return ofVerification (← verifyKeylessPrefix image [signer] none) "keyless_prefix"
  | .sigstoreVerifyGithubActions => do
    let image := pick e "registry.example.com/github-actions-app:v1.0.0"
      "registry.example.com/untrusted-github-app:v1.0.0"
    let owner := pick e "trusted-org" "untrusted-org"
    let repo := pick e "trusted-repo" "untrusted-repo"
    let finding := ofVerification (← verifyGithubActions image owner (some repo) none)
      "github_actions"
    return { finding with
      annotations := finding.annotations ++ [("owner", owner), ("repo", repo)] }
  | .cryptoVerifyCert => do
    let response ← verifyCertificate (certificateRequest e) config.expiry
    return ⟨response.trusted,
      [("trusted", shownFlag response.trusted), ("reason", response.reason)]⟩

end Probe

end AdmissionGuest
