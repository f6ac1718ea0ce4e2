import AdmissionGuest.Probe.Policy
import AdmissionGuest.Proofs.Admission.Additions
import AdmissionGuest.Proofs.Capability.Calls
import AdmissionGuest.Proofs.Shape.Written
/-!
The verdict of a probe, from the reply on. Whatever the capability, a scenario makes one call and
takes the reply to it as yes, as no, or as no answer; the two scenarios of a capability are each
other's complement.
-/

namespace AdmissionGuest

/-- The value that a body is the document of, if it is one. -/
def readable? {α : Type} [Named α] [OfDocument α] (body : Bytes) : Option α :=
  (decode body).toOption

/-- The part of a document that a path of names leads to. -/
def Json.at? (path : List String) (j : Json) : Option Json :=
  path.foldlM (fun j name => j.get? name) j

namespace ProbeCapability

def address : ProbeCapability → Address
  | ociManifestDigest => ⟨"kubewarden", "oci", "v1/manifest_digest"⟩
  | dnsLookup => ⟨"kubewarden", "net", "v1/dns_lookup_host"⟩
  | ociManifest => ⟨"kubewarden", "oci", "v1/oci_manifest"⟩
  | ociManifestAndConfig => ⟨"kubewarden", "oci", "v1/oci_manifest_config"⟩
  | getResource => ⟨"kubewarden", "kubernetes", "get_resource"⟩
  | listAllResources => ⟨"kubewarden", "kubernetes", "list_resources_all"⟩
  | listResourcesByNamespace => ⟨"kubewarden", "kubernetes", "list_resources_by_namespace"⟩
  | canI => ⟨"kubewarden", "kubernetes", "can_i"⟩
  | sigstoreVerifyPubkey => ⟨"kubewarden", "oci", "v2/verify"⟩
  | sigstoreVerifyKeylessExact => ⟨"kubewarden", "oci", "v2/verify"⟩
  | sigstoreVerifyKeylessPrefix => ⟨"kubewarden", "oci", "v2/verify"⟩
  | sigstoreVerifyGithubActions => ⟨"kubewarden", "oci", "v2/verify"⟩
  | cryptoVerifyCert => ⟨"kubewarden", "crypto", "v1/is_certificate_trusted"⟩

/-- Whether a body is a positive answer of a capability. There is nothing to say about a body that
is no answer at all. -/
def answer? (body : Bytes) : ProbeCapability → Option Bool
  | ociManifestDigest =>
    ((readable? body).map ManifestDigestResponse.digest).map fun digest => digest ≠ ""
  | dnsLookup => (readable? body).map fun response : DnsLookupResponse => response.ips ≠ []
  | ociManifest => (OciManifestResponse.classifyReply body).toOption.map fun _ => true
  | ociManifestAndConfig => (readable? body).map fun _ : ManifestAndConfigResponse => true
  | getResource =>
    (readable? body).map fun resource : Value =>
      (resource.json.at? ["metadata", "labels", "demo-namespace"]).bind Json.text? = some "true"
  | listAllResources | listResourcesByNamespace =>
    (readable? body).map fun list : ObjectList Value => list.items ≠ []
  | canI => (readable? body).map SubjectAccessReviewStatus.allowed
  | sigstoreVerifyPubkey | sigstoreVerifyKeylessExact | sigstoreVerifyKeylessPrefix
  | sigstoreVerifyGithubActions => (readable? body).map VerificationResponse.isTrusted
  | cryptoVerifyCert => (readable? body).map CertificateVerificationResponse.trusted

/-- The names of the facts that are recorded of an answer. -/
def factNames : ProbeCapability → List String
  | ociManifestDigest => ["digest"]
  | dnsLookup => ["ips"]
  | ociManifest => ["manifestKind", "mediaType"]
  | ociManifestAndConfig => ["digest", "os", "architecture"]
  | getResource => ["labelled"]
  | listAllResources | listResourcesByNamespace => ["count"]
  | canI => ["allowed", "reason"]
  | sigstoreVerifyPubkey | sigstoreVerifyKeylessExact | sigstoreVerifyKeylessPrefix =>
    ["is_trusted", "digest", "verification_method"]
  | sigstoreVerifyGithubActions =>
    ["is_trusted", "digest", "verification_method", "owner", "repo"]
  | cryptoVerifyCert => ["trusted", "reason"]

theorem factNames_nodup (c : ProbeCapability) : c.factNames.Nodup := by
  cases c <;> decide

theorem factNames_ne_nil (c : ProbeCapability) : c.factNames ≠ [] := by
  cases c <;> exact nofun

end ProbeCapability

namespace Probe

/-- What the body of a successful reply is taken for. -/
inductive Judged (c : ProbeCapability) (body : Bytes) : Except Error Finding → Prop where
  | answer {finding : Finding} (positive : c.answer? body = some finding.positive)
      (names : finding.annotations.map Prod.fst = c.factNames) : Judged c body (.ok finding)
  | fault {type reason : String} (unread : c.answer? body = none) :
      Judged c body (.error (.decode type reason))

/-- An action that calls one capability and judges the reply. -/
def Asked (c : ProbeCapability) (action : Guest ScriptedHost Finding) : Prop :=
  ∃ payload judge, CallsOnce action c.address payload judge ∧ ∀ body, Judged c body (judge body)

theorem asked_of_asks {α Request : Type} [Named Request] [ToDocument Request]
    {c : ProbeCapability} {action : Guest ScriptedHost α} {request : Request} {type : String}
    {answer : Bytes → Except Error α} (asks : Asks action c.address request type answer)
    (positive : α → Bool) (reads : ∀ body, c.answer? body = (answer body).toOption.map positive)
    {finding : α → Finding} (agrees : ∀ a, positive a = (finding a).positive)
    (names : ∀ a, (finding a).annotations.map Prod.fst = c.factNames) :
    Asked c (do return finding (← action)) := by
  obtain ⟨payload, _, calls⟩ := asks.calls
  refine ⟨payload, _, calls.bind fun a => quiet_ofExcept (.ok (finding a)), ?_⟩
  intro body
  have reads := reads body
  cases read : answer body with
  | ok a =>
    rw [read] at reads
    exact .answer (reads.trans (congrArg some (agrees a))) (names a)
  | error e =>
    obtain ⟨reason, rfl⟩ := asks.named body e read
    rw [read] at reads
    exact .fault reads

theorem toOption_map {ε α β : Type} (f : α → β) (x : Except ε α) :
    (f <$> x).toOption = x.toOption.map f := by
  cases x <;> rfl

theorem isLabelled_eq (v : Value) :
    isLabelled v =
      decide ((v.json.at? ["metadata", "labels", "demo-namespace"]).bind Json.text? =
        some "true") := by
  simp only [isLabelled, Json.at?, List.foldlM_cons, List.foldlM_nil, Option.bind_eq_bind,
    Option.pure_def, Option.bind_assoc, Option.bind_some, beq_eq_decide]

theorem not_isEmpty {α : Type} (xs : List α) [Decidable (xs ≠ [])] :
    decide (xs ≠ []) = !xs.isEmpty := by
  cases xs with
  | nil => exact decide_eq_false (absurd rfl)
  | cons x xs => exact decide_eq_true (List.cons_ne_nil x xs)

/-- Every scenario asks for the capability it is named after, whatever it expects. -/
theorem run_asked (s : Scenario) (config : Config) : Asked s.capability (run s config) := by
  obtain ⟨capability, expectation⟩ := s
  cases capability with
  | ociManifestDigest =>
    apply asked_of_asks (manifestDigest_asks _) fun digest => digest ≠ ""
    · intro body
      rw [toOption_map]
      rfl
    · intro digest
      rw [decide_not, Bool.not_inj_iff, Bool.eq_iff_iff, decide_eq_true_iff,
        String.isEmpty_iff]
    · exact fun _ => rfl
  | dnsLookup =>
    apply asked_of_asks (Capability.dnsLookup.call_asks (encode_shaped _)) _ fun _ => rfl
    · exact fun response => not_isEmpty response.ips
    · exact fun _ => rfl
  | ociManifest =>
    apply asked_of_asks (manifest_asks _) fun _ => true
    · intro body
      rw [toOption_map, Option.map_map]
      rfl
    · exact fun _ => rfl
    · exact fun _ => rfl
  | ociManifestAndConfig =>
    apply asked_of_asks (Capability.ociManifestConfig.call_asks (encode_shaped _)) _ fun _ => rfl
    · exact fun _ => rfl
    · exact fun _ => rfl
  | getResource =>
    apply asked_of_asks ((Capability.getResource Value).call_asks (encode_shaped _)) _ fun _ => rfl
    · exact fun resource => (isLabelled_eq resource).symm
    · exact fun _ => rfl
  | listAllResources =>
    apply asked_of_asks ((Capability.listAll Value).call_asks (encode_shaped _)) _ fun _ => rfl
    · exact fun list => not_isEmpty list.items
    · exact fun _ => rfl
  | listResourcesByNamespace =>
    apply asked_of_asks ((Capability.listByNamespace Value).call_asks (encode_shaped _))
      _ fun _ => rfl
    · exact fun list => not_isEmpty list.items
    · exact fun _ => rfl
  | canI =>
    apply asked_of_asks (Capability.canI.call_asks (encode_shaped _)) _ fun _ => rfl
    · exact fun _ => rfl
    · exact fun _ => rfl
  | sigstoreVerifyPubkey | sigstoreVerifyKeylessExact | sigstoreVerifyKeylessPrefix
  | sigstoreVerifyGithubActions =>
    apply asked_of_asks (verify_asks _) _ fun _ => rfl
    · exact fun _ => rfl
    · exact fun _ => rfl
  | cryptoVerifyCert =>
    apply asked_of_asks (Capability.certificateTrust.call_asks (encode_shaped _)) _ fun _ => rfl
    · exact fun _ => rfl
    · exact fun _ => rfl

/-! Verdicts -/

/-- The facts after annotating a response with entries, one after the other. -/
theorem annotate_all {response : ValidationResponse} {facts : Dict String String}
    (noted : response.auditAnnotations = some facts) (entries : List (String × String)) :
    (entries.foldl (fun response (key, value) => response.annotate key value)
        response).auditAnnotations =
      some (entries.foldl (fun facts e => facts.insert e.1 e.2) facts) := by
  induction entries generalizing response facts with
  | nil => exact noted
  | cons entry entries ih =>
    apply ih
    change some ((response.auditAnnotations.getD Dict.empty).insert entry.1 entry.2) = _
    rw [noted]
    rfl

/-- The facts of an answer are added to a verdict. -/
theorem annotated_eq_add (response : ValidationResponse) (finding : Finding) :
    annotated response finding =
      response.add (finding.annotations.map fun e => .audit e.1 e.2) := by
  rw [ValidationResponse.add, List.foldl_map]
  rfl

theorem annotated_accepted (response : ValidationResponse) (finding : Finding) :
    (annotated response finding).accepted = response.accepted := by
  rw [annotated_eq_add]
  exact (response.add_others _).1

/-- Facts with different names are all recorded, and nothing else is. -/
theorem annotated_facts {response : ValidationResponse}
    (plain : response.auditAnnotations = none) {finding : Finding}
    (some : finding.annotations ≠ []) (apart : (finding.annotations.map Prod.fst).Nodup) :
    ∃ facts, (annotated response finding).auditAnnotations = .some facts ∧
      facts.entries.Perm finding.annotations := by
  obtain ⟨positive, annotations⟩ := finding
  cases annotations with
  | nil => exact absurd rfl some
  | cons entry entries =>
    have noted : (response.annotate entry.1 entry.2).auditAnnotations =
        .some (Dict.empty.insert entry.1 entry.2) := by
      change Option.some ((response.auditAnnotations.getD Dict.empty).insert entry.1 entry.2) = _
      rw [plain]
      rfl
    refine ⟨_, annotate_all noted entries, ?_⟩
    rw [Dict.entries_foldl_insert]
    have distinct : ((entry :: entries ++ []).map Prod.fst).Nodup := by rwa [List.append_nil]
    have kept := Entries.foldl_insert_perm distinct
    rwa [List.append_nil] at kept

/-- The result says yes. -/
def Positive (result : Except Error Finding) : Prop :=
  ∃ finding, result = .ok finding ∧ finding.positive = true

theorem verdict_accepted_iff (s : Scenario) (result : Except Error Finding) :
    (verdict s result).accepted = true ↔ (Positive result ↔ s.expectation = .success) := by
  obtain ⟨capability, expectation⟩ := s
  cases result with
  | error e =>
    have negative : ¬ Positive (.error e) := fun ⟨_, found, _⟩ => nomatch found
    cases expectation with
    | success => exact ⟨nofun, fun same => absurd (same.mpr rfl) negative⟩
    | failure => exact ⟨fun _ => ⟨fun yes => absurd yes negative, nofun⟩, fun _ => rfl⟩
  | ok finding =>
    have yes : Positive (.ok finding) ↔ finding.positive = true :=
      ⟨fun ⟨_, same, yes⟩ => Except.ok.inj same ▸ yes, fun yes => ⟨finding, rfl, yes⟩⟩
    rw [yes]
    cases expectation with
    | success =>
      unfold verdict
      dsimp only
      split <;> rename_i yes <;> rw [annotated_accepted]
      · exact ⟨fun _ => ⟨fun _ => rfl, fun _ => yes⟩, fun _ => rfl⟩
      · exact ⟨nofun, fun same => absurd (same.mpr rfl) yes⟩
    | failure =>
      unfold verdict
      dsimp only
      split <;> rename_i yes <;> rw [annotated_accepted]
      · exact ⟨nofun, fun same => nomatch same.mp yes⟩
      · exact ⟨fun _ => ⟨fun yes' => absurd yes' yes, nofun⟩, fun _ => rfl⟩

/-- The facts of an answer are the ones that the verdict records, whichever way it goes. -/
theorem verdict_facts (s : Scenario) {finding : Finding}
    (names : finding.annotations.map Prod.fst = s.capability.factNames) :
    ∃ facts, (verdict s (.ok finding)).auditAnnotations = some facts ∧
      facts.entries.Perm finding.annotations := by
  have some : finding.annotations ≠ [] := by
    intro empty
    rw [empty] at names
    exact s.capability.factNames_ne_nil names.symm
  have apart : (finding.annotations.map Prod.fst).Nodup := names ▸ s.capability.factNames_nodup
  obtain ⟨capability, expectation⟩ := s
  cases expectation with
  | success =>
    unfold verdict
    dsimp only
    split
    · exact annotated_facts rfl some apart
    · exact annotated_facts rfl some apart
  | failure =>
    unfold verdict
    dsimp only
    split
    · exact annotated_facts rfl some apart
    · exact annotated_facts rfl some apart

section Scenarios

variable (s : Scenario) (config : Config) (session : Session ScriptedHost)

/-- What a probe comes to, by the reply that its call meets. -/
inductive Meets (c : ProbeCapability) (reply : Reply) : Except Error Finding → Prop where
  | answer {finding : Finding} (successful : reply.successful = true)
      (positive : c.answer? reply.body = some finding.positive)
      (names : finding.annotations.map Prod.fst = c.factNames) : Meets c reply (.ok finding)
  | fault {type reason : String} (successful : reply.successful = true)
      (unread : c.answer? reply.body = none) : Meets c reply (.error (.decode type reason))
  | failed (failed : reply.successful = false) :
      Meets c reply (.error (.hostCall c.address.shown (Utf8.decodeLossy reply.body)))

theorem run_meets :
    Meets s.capability (session.host.next s.capability.address)
      ((run s config).run.run session).1 := by
  obtain ⟨payload, judge, calls, judged⟩ := run_asked s config
  rw [calls.result]
  split
  next successful =>
    have judged := judged (session.host.next s.capability.address).body
    generalize judge _ = result at judged
    cases judged with
    | answer positive names => exact .answer successful positive names
    | fault unread => exact .fault successful unread
  next failed => exact .failed (Bool.not_eq_true _ |>.mp failed)

/-- The reply is a success, and its body is an answer that says yes. -/
def Affirms (c : ProbeCapability) (reply : Reply) : Prop :=
  reply.successful = true ∧ c.answer? reply.body = some true

theorem Meets.positive_iff {c : ProbeCapability} {reply : Reply} {result : Except Error Finding}
    (meets : Meets c reply result) : Positive result ↔ Affirms c reply := by
  cases meets with
  | answer successful positive names =>
    constructor
    · rintro ⟨_, same, yes⟩
      cases same
      exact ⟨successful, yes ▸ positive⟩
    · rintro ⟨_, yes⟩
      exact ⟨_, rfl, Option.some.inj (positive.symm.trans yes)⟩
  | fault successful unread =>
    constructor
    · rintro ⟨_, same, _⟩
      cases same
    · rintro ⟨_, yes⟩
      exact nomatch unread.symm.trans yes
  | failed failed =>
    constructor
    · rintro ⟨_, same, _⟩
      cases same
    · rintro ⟨successful, _⟩
      exact nomatch failed.symm.trans successful

theorem runScenario_accepted_iff :
    ((runScenario s config).run session).1.accepted = true ↔
      (Affirms s.capability (session.host.next s.capability.address) ↔
        s.expectation = .success) :=
  (verdict_accepted_iff s _).trans (iff_congr (run_meets s config session).positive_iff Iff.rfl)

end Scenarios

/-- A session with one more reply in the queue, before all others. -/
def offered (reply : Reply) (session : Session ScriptedHost) : Session ScriptedHost :=
  { session with host := { session.host with replies := reply :: session.host.replies } }

/-- A scenario makes one call, and the reply to it decides everything. It is accepted if an
affirmative reply was met and expected, or neither; so of the two scenarios of a capability a reply
satisfies exactly one. The facts of an answer are recorded as they are. Without an answer the
scenario that expects success is rejected with the error, and the other one records it. -/
theorem runScenario_exact (c : ProbeCapability) :
    (∀ (e : Expectation) (config : Config) (session : Session ScriptedHost),
      let reply := session.host.next c.address
      let outcome := (runScenario ⟨c, e⟩ config).run session
      (∃ payload, outcome.2.host = session.host.served c.address payload) ∧
      (outcome.1.accepted = true ↔ (Affirms c reply ↔ e = .success)) ∧
      match ((run ⟨c, e⟩ config).run.run session).1 with
      | .ok finding =>
        reply.successful = true ∧ c.answer? reply.body = some finding.positive ∧
          ∃ facts, outcome.1.auditAnnotations = some facts ∧
            facts.entries.Perm finding.annotations
      | .error problem =>
        (reply.successful = false ∧
            problem = .hostCall c.address.shown (Utf8.decodeLossy reply.body) ∨
          reply.successful = true ∧ c.answer? reply.body = none ∧
            ∃ type reason, problem = .decode type reason) ∧
        match e with
        | .success => outcome.1 = .reject problem.message none
        | .failure =>
          outcome.1.accepted = true ∧
            outcome.1.auditAnnotations.map Dict.entries =
              some [("error", if reply.successful then problem.message
                else Utf8.decodeLossy reply.body)]) ∧
    ∀ (reply : Reply) (config config' : Config) (session session' : Session ScriptedHost),
      ((runScenario ⟨c, .success⟩ config).run (offered reply session)).1.accepted =
        !((runScenario ⟨c, .failure⟩ config').run (offered reply session')).1.accepted := by
  refine ⟨?_, ?_⟩
  · intro e config session reply outcome
    refine ⟨?_, runScenario_accepted_iff ⟨c, e⟩ config session, ?_⟩
    · obtain ⟨payload, _, calls, _⟩ := run_asked ⟨c, e⟩ config
      exact ⟨payload, calls.host session⟩
    have meets := run_meets ⟨c, e⟩ config session
    have judged : outcome.1 = verdict ⟨c, e⟩ ((run ⟨c, e⟩ config).run.run session).1 := rfl
    rw [judged]
    generalize ((run ⟨c, e⟩ config).run.run session).1 = result at meets
    cases meets with
    | answer successful positive names =>
      exact ⟨successful, positive, verdict_facts ⟨c, e⟩ names⟩
    | fault successful unread =>
      refine ⟨.inr ⟨successful, unread, _, _, rfl⟩, ?_⟩
      cases e with
      | success => rfl
      | failure =>
        refine ⟨rfl, ?_⟩
        rw [if_pos successful]
        rfl
    | failed failed =>
      refine ⟨.inl ⟨failed, rfl⟩, ?_⟩
      cases e with
      | success => rfl
      | failure =>
        refine ⟨rfl, ?_⟩
        rw [if_neg (Bool.not_eq_true _ |>.mpr failed)]
        rfl
  · intro reply config config' session session'
    have first :
        ((runScenario ⟨c, .success⟩ config).run (offered reply session)).1.accepted = true ↔
          Affirms c reply :=
      (runScenario_accepted_iff ⟨c, .success⟩ config _).trans (iff_true_right rfl)
    have second :
        ((runScenario ⟨c, .failure⟩ config').run (offered reply session')).1.accepted = true ↔
          ¬ Affirms c reply :=
      (runScenario_accepted_iff ⟨c, .failure⟩ config' _).trans (iff_false_right nofun)
    rw [Bool.eq_iff_iff, Bool.not_eq_true', ← Bool.not_eq_true, first, second, not_not]

end Probe

end AdmissionGuest
