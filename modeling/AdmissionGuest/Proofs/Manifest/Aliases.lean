import AdmissionGuest.Capability.Registry
import AdmissionGuest.Proofs.Admission.Tolerance
import AdmissionGuest.Proofs.Manifest.View
/-!
The names under which registries spell the fields of images. Both spellings of a field are read
alike, in any mixture; a field that is given in both is an error, and a manifest or an index in which
that happens is known by its media type alone.
-/

namespace AdmissionGuest

open Shaped Spelling

section Documents

variable {α : Type} [Named α] [Shaped α] (proper : (shape α).Proper) {d d' : Spelling}

include proper

theorem decode_of_renames (renames : Relation.ReflTransGen (Renames (shape α)) d d')
    (before after : List Blank) (a : α) :
    decode (document before d after) = .ok a ↔ decode (document before d' after) = .ok a := by
  induction renames with
  | refl => exact Iff.rfl
  | tail _ renames ih =>
    refine ih.trans ?_
    rw [decode_document_iff, decode_document_iff]
    exact renames.alike proper Json.nestingLimit (toVal a)

theorem decode_of_twice (twice : Twice (shape α) d) (before after : List Blank) :
    ∃ e, (decode (document before d after) : Except Error α) = .error e :=
  error_of_not_decoded fun a decoded =>
    twice.unread proper _ _ ((decode_document_iff before d after a).mp decoded)

end Documents

namespace OciManifestResponse

variable {v : Value} {nested : Json} {mediaType : String}

theorem classify_ambiguous_image (found : v.json.get? "image" = some nested)
    (label : nested.get? "mediaType" = some (.text mediaType))
    (accepted : mediaType ∈ MediaType.imageManifests)
    (ambiguous : (shape ImageManifest).Ambiguous nested) :
    ∃ log, classify v = .ok (.image (ImageManifest.unknown mediaType), log) := by
  have malformed (m : ImageManifest) : view .asValue nested ≠ .ok m :=
    fun viewed => ambiguous.not_viewed .asValue _ (view_ok_iff.mp viewed)
  rw [classify_image found label accepted, viewOr_malformed malformed]
  exact ⟨_, rfl⟩

theorem classify_ambiguous_index (noImage : ¬ HasImage v.json)
    (found : v.json.get? "index" = some nested)
    (label : nested.get? "mediaType" = some (.text mediaType))
    (accepted : mediaType ∈ MediaType.imageIndexes)
    (ambiguous : (shape ImageIndex).Ambiguous nested) :
    ∃ log, classify v = .ok (.index (ImageIndex.unknown mediaType), log) := by
  have malformed (i : ImageIndex) : view .asValue nested ≠ .ok i :=
    fun viewed => ambiguous.not_viewed .asValue _ (view_ok_iff.mp viewed)
  rw [classify_index noImage found label accepted, viewOr_malformed malformed]
  exact ⟨_, rfl⟩

end OciManifestResponse

/-- The records of images with the other names of their fields. -/
def spellings : List (Shape × List (String × String)) :=
  [(shape Platform, [("os.version", "osVersion"), ("os.features", "osFeatures")]),
    (shape ContainerConfig, [("User", "user"), ("ExposedPorts", "exposedPorts"), ("Env", "env"),
      ("Entrypoint", "entrypoint"), ("Cmd", "cmd"), ("Volumes", "volumes"),
      ("WorkingDir", "workingDir"), ("Labels", "labels"), ("StopSignal", "stopSignal"),
      ("ArgsEscaped", "argsEscaped")]),
    (shape RootFs, [("diff_ids", "diffIds")]),
    (shape History, [("created_by", "createdBy"), ("empty_layer", "emptyLayer")]),
    (shape ImageConfiguration, [("os.version", "osVersion")]), (shape Descriptor, []),
    (shape ImageManifest, []), (shape ImageIndex, []), (shape ManifestAndConfigResponse, [])]

/-- The names in the table are the other names of the records, and no name is used twice. -/
theorem spellings_listed :
    ∀ r ∈ spellings, r.1.Proper ∧ r.1.fields.spelled.Nodup ∧ r.1.fields.aliases = r.2 := by
  simp only [spellings, List.forall_mem_cons, List.not_mem_nil, false_imp_iff, implies_true,
    and_true]
  refine ⟨?_, ?_, ?_, ?_, ?_, ?_, ?_, ?_, ?_⟩ <;> exact ⟨by decide, by decide, rfl⟩

/-- Each record is read under its own names and the ones in the table, and under nothing else. -/
theorem spellings_exact {r : Shape × List (String × String)} (listed : r ∈ spellings) :
    r.1.Proper ∧
      (∀ name other, (name, other) ∈ r.2 →
        r.1.fields.Same name other ∧ name ∈ r.1.fields.names ∧ other ∉ r.1.fields.names) ∧
      ∀ name field shape, r.1.fields.find? name = some (field, shape) →
        name = field.name ∨ (field.name, name) ∈ r.2 := by
  obtain ⟨proper, distinct, same⟩ := spellings_listed r listed
  rw [← same]
  refine ⟨proper, fun name other there => ?_, fun name field shape known => ?_⟩
  · obtain ⟨same, written, _, unwritten⟩ := Fields.same_of_alias _ distinct there
    exact ⟨same, written, unwritten⟩
  · exact Fields.spelled_of_find? _ known

/-- A field of a record of an image has the one or two names that the table says. Documents that
differ in the names of fields, in any number of places, are decoded alike; what is written has first
names only; and a document with a field under two names is not decoded, so that a manifest or an
index in which that happens is known by its media type alone. -/
theorem spellings_alike :
    (∀ r ∈ spellings, r.1.Proper ∧
      (∀ name other, (name, other) ∈ r.2 →
        r.1.fields.Same name other ∧ name ∈ r.1.fields.names ∧ other ∉ r.1.fields.names) ∧
      ∀ name field shape, r.1.fields.find? name = some (field, shape) →
        name = field.name ∨ (field.name, name) ∈ r.2) ∧
    (∀ (α : Type) [Named α] [Shaped α], (shape α).Proper →
      (∀ d d', Relation.ReflTransGen (Renames (shape α)) d d' → ∀ before after (a : α),
        decode (document before d after) = .ok a ↔ decode (document before d' after) = .ok a) ∧
      (∀ d, Twice (shape α) d → ∀ before after,
        ∃ e, (decode (document before d after) : Except Error α) = .error e) ∧
      ∀ a : α, encode a = .ok (json a).write ∧ ∀ path noun fields j,
        (shape α).along? path = some (.record noun fields) → (json a).follow? path = some j →
          ∃ ms, j = .object ms ∧ ∀ m ∈ ms, m.1 ∈ fields.names) ∧
    ∀ (v : Value) (nested : Json) (mediaType : String),
      nested.get? "mediaType" = some (.text mediaType) →
      (v.json.get? "image" = some nested → mediaType ∈ MediaType.imageManifests →
        (shape ImageManifest).Ambiguous nested →
        ∃ log, OciManifestResponse.classify v =
          .ok (.image (ImageManifest.unknown mediaType), log)) ∧
      (¬ HasImage v.json → v.json.get? "index" = some nested →
        mediaType ∈ MediaType.imageIndexes → (shape ImageIndex).Ambiguous nested →
        ∃ log, OciManifestResponse.classify v =
          .ok (.index (ImageIndex.unknown mediaType), log)) := by
  refine ⟨fun r => spellings_exact, fun α _ _ proper => ⟨?_, ?_, ?_⟩, ?_⟩
  · exact fun d d' renames before after => decode_of_renames proper renames before after
  · exact fun d twice before after => decode_of_twice proper twice before after
  · exact fun a => ⟨encode_shaped a, fun path noun fields j => Shape.names_written proper⟩
  · intro v nested mediaType label
    refine ⟨fun found accepted ambiguous => ?_, fun noImage found accepted ambiguous => ?_⟩
    · exact OciManifestResponse.classify_ambiguous_image found label accepted ambiguous
    · exact OciManifestResponse.classify_ambiguous_index noImage found label accepted ambiguous

/-! A configuration with names of both kinds, one with a field under both, and such an index -/

namespace ImageConfiguration

open ValidationRequest (sampleMember sampleText)

def sampleHole (name : String) : Member Unit := { name := marks name, value := () }

/-- A configuration whose fields have these names. -/
def sampleSpelled (version workingDir diffIds emptyLayer : String) : Spelling :=
  .object []
    [sampleText "architecture" "amd64", sampleText "os" "linux", sampleText version "10",
      sampleMember "config" (.object [] [sampleText workingDir "/"]),
      sampleMember "rootfs" (.object [] [sampleText "type" "layers",
        sampleMember diffIds (.list [] [{ value := .text (marks "a") }])]),
      sampleMember "history" (.list [] [{ value := .object [] [sampleText "created_by" "b"] },
        { value := .object [] [sampleMember emptyLayer (.flag true)] }])]

section Leads

variable (before after : List (Member Spelling))

theorem leads_config :
    Shape.Leads (shape ImageConfiguration) [.member [] before (sampleHole "config") after]
      [.member "config"] (shape ContainerConfig) := by
  have known : (shape ImageConfiguration).fields.find? "config" =
    some (⟨"config", .optional, []⟩, shape ContainerConfig) := rfl
  exact .member (textOf_marks _) known .here

theorem leads_rootfs :
    Shape.Leads (shape ImageConfiguration) [.member [] before (sampleHole "rootfs") after]
      [.member "rootfs"] (shape RootFs) := by
  have known : (shape ImageConfiguration).fields.find? "rootfs" =
    some (⟨"rootfs", .defaulted, []⟩, shape RootFs) := rfl
  exact .member (textOf_marks _) known .here

theorem leads_history (steps : List (Item Spelling)) :
    Shape.Leads (shape ImageConfiguration)
      [.member [] before (sampleHole "history") after, .item [] steps { value := () } []]
      [.member "history", .item steps.length] (shape History) := by
  have known : (shape ImageConfiguration).fields.find? "history" =
    some (⟨"history", .optional, []⟩, shape (List History)) := rfl
  exact .member (textOf_marks _) known (.item .here)

end Leads

/-- One name after the other; the first step of the history keeps its own. -/
theorem sample_renames :
    Relation.ReflTransGen (Renames (shape ImageConfiguration))
      (sampleSpelled "os.version" "WorkingDir" "diff_ids" "empty_layer")
      (sampleSpelled "osVersion" "workingDir" "diffIds" "emptyLayer") := by
  have version (workingDir diffIds emptyLayer : String) : Renames (shape ImageConfiguration)
      (sampleSpelled "os.version" workingDir diffIds emptyLayer)
      (sampleSpelled "osVersion" workingDir diffIds emptyLayer) :=
    .mk .here [_, _] (sampleText "os.version" "10") [_, _, _] (textOf_marks _)
      (textOf_marks "osVersion") ⟨_, _, rfl, rfl⟩
  have workingDir (version diffIds emptyLayer : String) : Renames (shape ImageConfiguration)
      (sampleSpelled version "WorkingDir" diffIds emptyLayer)
      (sampleSpelled version "workingDir" diffIds emptyLayer) :=
    .mk (leads_config [_, _, _] [_, _]) [] (sampleText "WorkingDir" "/") [] (textOf_marks _)
      (textOf_marks "workingDir") ⟨_, _, rfl, rfl⟩
  have diffIds (version workingDir emptyLayer : String) : Renames (shape ImageConfiguration)
      (sampleSpelled version workingDir "diff_ids" emptyLayer)
      (sampleSpelled version workingDir "diffIds" emptyLayer) :=
    .mk (leads_rootfs [_, _, _, _] [_]) [_] (sampleMember "diff_ids" _) [] (textOf_marks _)
      (textOf_marks "diffIds") ⟨_, _, rfl, rfl⟩
  have emptyLayer (version workingDir diffIds : String) : Renames (shape ImageConfiguration)
      (sampleSpelled version workingDir diffIds "empty_layer")
      (sampleSpelled version workingDir diffIds "emptyLayer") :=
    .mk (leads_history [_, _, _, _, _] [] [_]) [] (sampleMember "empty_layer" _) []
      (textOf_marks _) (textOf_marks "emptyLayer") ⟨_, _, rfl, rfl⟩
  exact .head (version _ _ _) <| .head (workingDir _ _ _) <| .head (diffIds _ _ _) <|
    .single (emptyLayer _ _ _)

/-- A step that was created by two commands. -/
def sampleStep : Spelling :=
  .object [] [sampleText "created_by" "b", sampleMember "createdBy" .null]

def sampleTwice : Spelling :=
  .object []
    [sampleText "architecture" "amd64", sampleText "os" "linux",
      sampleMember "history" (.list [] [{ value := sampleStep }])]

theorem sample_twice : Twice (shape ImageConfiguration) sampleTwice :=
  .mk (leads_history [_, _] [] []) (.refl _) (textOf_marks "created_by") (textOf_marks "createdBy")
    ⟨_, _, rfl, rfl⟩

def sample : ImageConfiguration where
  created := none
  author := none
  architecture := "amd64"
  os := "linux"
  osVersion := some "10"
  variant := none
  config := some
    { user := none, exposedPorts := none, env := none, entrypoint := none, cmd := none
      volumes := none, workingDir := some "/", labels := none, stopSignal := none
      argsEscaped := none }
  rootfs := { fsType := "layers", diffIds := ["a"] }
  history := some
    [{ created := none, createdBy := some "b", author := none, comment := none, emptyLayer := none },
      { created := none, createdBy := none, author := none, comment := none
        emptyLayer := some true }]

/-- An index with an entry that gives the version of its operating system twice. -/
def sampleNested : Json :=
  .object [("manifests", .list [.object [("platform",
      .object [("os.version", .text "10"), ("osVersion", .text "10")])]]),
    ("mediaType", .text MediaType.ociImageIndex)]

def sampleReply : Value := Value.ofJson (OciManifestResponse.wrapped "index" sampleNested)

theorem sample_ambiguous : (shape ImageIndex).Ambiguous sampleNested := by
  have along : (shape ImageIndex).along? [.member "manifests", .item 0, .member "platform"] =
    some (shape Platform) := rfl
  exact .mk along rfl (.head _) (.tail _ (.head _)) (by decide) ⟨_, _, rfl, rfl⟩

theorem sample_spellings :
    decode (document [] (sampleSpelled "osVersion" "workingDir" "diffIds" "emptyLayer") []) =
        .ok sample ∧
      (∃ e, (decode (document [] sampleTwice []) : Except Error ImageConfiguration) = .error e) ∧
      (∃ ms, (json sample).follow? [.member "history", .item 1] = some (.object ms) ∧
        ∀ m ∈ ms, m.1 ∈ (shape History).fields.names) ∧
      ∃ log, OciManifestResponse.classify sampleReply =
        .ok (.index (ImageIndex.unknown MediaType.ociImageIndex), log) := by
  obtain ⟨_, read, classified⟩ := spellings_alike
  obtain ⟨renamed, twice, written⟩ := read ImageConfiguration (by decide)
  refine ⟨(renamed _ _ sample_renames [] [] sample).mp rfl, twice _ sample_twice [] [], ?_, ?_⟩
  · obtain ⟨ms, found, names⟩ :=
      (written sample).2 [.member "history", .item 1] _ _ _ rfl rfl
    exact ⟨ms, found ▸ rfl, names⟩
  · have noImage : ¬ HasImage sampleReply.json :=
      OciManifestResponse.labelled?_none (Value.canonical _) rfl
    exact (classified sampleReply sampleNested MediaType.ociImageIndex rfl).2 noImage rfl (by decide)
      sample_ambiguous

end ImageConfiguration

end AdmissionGuest
