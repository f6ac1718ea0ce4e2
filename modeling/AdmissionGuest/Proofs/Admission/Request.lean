import AdmissionGuest.Admission.Request
import AdmissionGuest.Probe.Scenario
import AdmissionGuest.Proofs.Document
/-!
A request that was decoded can be written, and what is written is decoded to the same request.
Between the two texts the document is tidied: absent members and null ones are left out alike, empty
defaults are written out, and whatever is carried stays as it is.
-/

namespace AdmissionGuest

open Shaped

namespace AdmissionRequest

/-- The documents that a request carries have only integers that are read as such. -/
structure Whole (r : AdmissionRequest) : Prop where
  object : ∀ v, r.object = some v → v.json.Whole
  oldObject : ∀ v, r.oldObject = some v → v.json.Whole
  options : ∀ v, r.options = some v → v.json.Whole

theorem Whole.carries {r : AdmissionRequest} (whole : r.Whole) :
    (shape AdmissionRequest).Carries Json.Whole (toVal r) := by
  refine ⟨?_, ?_, ?_, ?_, ?_, ?_, ?_, ?_, ?_, ?_, ?_, whole.object, whole.oldObject, ?_,
    whole.options, trivial⟩
  all_goals exact fun x _ => Shape.carries_of_plain _ rfl x

/-- The members of a request that may be absent. -/
def optional : List String :=
  ["subResource", "requestKind", "requestResource", "requestSubResource", "name", "namespace",
    "object", "oldObject", "dryRun", "options"]

/-- The members of a request that are carried. -/
def carried : List String := ["object", "oldObject", "options"]

/-- The members of a request that have a group. -/
def grouped : List String := ["kind", "resource", "requestKind", "requestResource"]

/-- How the members of a request that were found are written again. -/
structure Renewed (found written : Json) : Prop where
  /-- an optional member is written exactly if it was there and was not null -/
  optional : ∀ name ∈ optional,
    (written.get? name = none ↔ found.get? name = none ∨ found.get? name = some .null)
  /-- a user that was absent is written without any member -/
  userInfo : found.get? "userInfo" = none → written.get? "userInfo" = some (.object [])
  /-- a group that was absent is written as an empty text -/
  group : ∀ name ∈ grouped, ∀ parts, found.get? name = some (.object parts) →
    (Json.object parts).get? "group" = none →
    ∃ w, written.get? name = some w ∧ w.get? "group" = some (.text "")
  /-- a carried document stays as it is -/
  carried : ∀ name ∈ carried, ∀ x, found.get? name = some x → x ≠ .null →
    written.get? name = some (Value.ofJson x).json
  /-- the members of a map stay as they are, the last one for each name -/
  extra : ∀ parts entries, found.get? "userInfo" = some (.object parts) →
    (Json.object parts).get? "extra" = some (.object entries) →
    ∃ w, written.get? "userInfo" = some w ∧
      w.get? "extra" = some (.object (Entries.ofList entries))

theorem proper : (shape AdmissionRequest).Proper := by decide

theorem has_optional : ∀ name ∈ optional,
    ∃ s, (shape AdmissionRequest).fields.Has ⟨name, .optional, []⟩ s := by
  simp [optional, shape, Shape.fields, Fields.Has]

theorem has_carried : ∀ name ∈ carried,
    (shape AdmissionRequest).fields.Has ⟨name, .optional, []⟩ .any := by
  simp [carried, shape, Shape.fields, Fields.Has]

theorem has_userInfo :
    (shape AdmissionRequest).fields.Has ⟨"userInfo", .defaulted, []⟩ (shape UserInfo) := by
  simp [shape, Shape.fields, Fields.Has]

/-- What has a group is a kind or a resource, and its group is empty by default. -/
theorem has_grouped : ∀ name ∈ grouped, ∃ presence s,
    (shape AdmissionRequest).fields.Has ⟨name, presence, []⟩ s ∧ s.Proper ∧
      s.fields.Has ⟨"group", .defaulted, []⟩ .text := by
  have kind : (shape GroupVersionKind).fields.Has ⟨"group", .defaulted, []⟩ .text :=
    .inl ⟨rfl, rfl⟩
  have resource : (shape GroupVersionResource).fields.Has ⟨"group", .defaulted, []⟩ .text :=
    .inl ⟨rfl, rfl⟩
  intro name member
  simp only [grouped, List.mem_cons, List.not_mem_nil, or_false] at member
  rcases member with rfl | rfl | rfl | rfl
  · exact ⟨.required, _, .inr (.inl ⟨rfl, rfl⟩), by decide, kind⟩
  · exact ⟨.required, _, .inr (.inr (.inl ⟨rfl, rfl⟩)), by decide, resource⟩
  · exact ⟨.optional, _, .inr (.inr (.inr (.inr (.inl ⟨rfl, rfl⟩)))), by decide, kind⟩
  · exact ⟨.optional, _, .inr (.inr (.inr (.inr (.inr (.inl ⟨rfl, rfl⟩))))), by decide, resource⟩

theorem renewed_tidy (ms : List (String × Json)) :
    Renewed (.object ms) ((shape AdmissionRequest).tidy (.object ms)) := by
  constructor
  · intro name member
    obtain ⟨s, has⟩ := has_optional name member
    exact Shape.get?_tidy_optional proper has
  · exact Shape.get?_tidy_defaulted proper has_userInfo
  · intro name member parts found absent
    obtain ⟨presence, s, has, inside, group⟩ := has_grouped name member
    exact ⟨_, Shape.get?_tidy_some proper has found nofun,
      Shape.get?_tidy_defaulted inside group absent⟩
  · intro name member x found notNull
    exact Shape.get?_tidy_some proper (has_carried name member) found fun _ => notNull
  · intro parts entries found extra
    have has : (shape UserInfo).fields.Has ⟨"extra", .optional, []⟩ (.dict (.list .text)) := by
      simp [shape, Shape.fields, Fields.Has]
    have user : (shape UserInfo).Proper := by decide
    refine ⟨_, Shape.get?_tidy_some proper has_userInfo found nofun, ?_⟩
    have written := Shape.get?_tidy_some user has extra (fun _ => nofun)
    have entire : (entries.map fun m => (m.1, (Shape.list .text).tidy m.2)) = entries := by
      rw [Shape.tidy_texts]
      exact List.map_id entries
    rw [written, Shape.tidy, entire]

end AdmissionRequest

namespace ValidationRequest

/-- How the document of a request and its settings that was found is written again. -/
structure Renewed (S : Type) [Shaped S] (found written : Json) : Prop where
  /-- the document as a whole -/
  tidied : written = (shape (ValidationRequest S)).tidy found
  settings : ∀ x, found.get? "settings" = some x →
    written.get? "settings" = some ((shape S).tidy x)
  request : ∀ parts, found.get? "request" = some (.object parts) →
    ∃ w, written.get? "request" = some w ∧ AdmissionRequest.Renewed (.object parts) w

section Settings

variable {S : Type} [Shaped S]

theorem renewed_tidy (proper : (shape (ValidationRequest S)).Proper) (found : Json) :
    Renewed S found ((shape (ValidationRequest S)).tidy found) := by
  have request : (shape (ValidationRequest S)).fields.Has ⟨"request", .required, []⟩
      (shape AdmissionRequest) := .inl ⟨rfl, rfl⟩
  have settings : (shape (ValidationRequest S)).fields.Has ⟨"settings", .required, []⟩ (shape S) :=
    .inr (.inl ⟨rfl, rfl⟩)
  refine ⟨rfl, ?_, ?_⟩
  · intro x there
    cases found with
    | object ms => exact Shape.get?_tidy_some proper settings there nofun
    | _ => exact nomatch there
  · intro parts there
    cases found with
    | object ms =>
      exact ⟨_, Shape.get?_tidy_some proper request there nofun,
        AdmissionRequest.renewed_tidy parts⟩
    | _ => exact nomatch there

theorem decode_encode_of_decode [Named (ValidationRequest S)]
    (proper : (shape (ValidationRequest S)).Proper)
    (fits : (shape (ValidationRequest S)).extent ≤ Json.nestingLimit) {text : Bytes}
    {v : ValidationRequest S} (decoded : decode text = .ok v) (request : v.request.Whole)
    (settings : (shape S).Carries Json.Whole (toVal v.settings)) :
    ∃ bytes, encode v = .ok bytes ∧ decode bytes = .ok v ∧
      ∃ written, Json.read Json.nestingLimit bytes = .ok (written, []) ∧
        ∀ found rest, Json.read Json.nestingLimit text = .ok (found, rest) →
          Renewed S found written := by
  have carries : (shape (ValidationRequest S)).Carries Json.Whole (toVal v) := by
    refine ⟨?_, ?_, trivial⟩
    · rintro _ ⟨⟩
      exact request.carries
    · rintro _ ⟨⟩
      exact settings
  have whole := (shape (ValidationRequest S)).json_inherits Json.whole_inherited _ carries
  have rereads := rereads_of_decode fits decoded
  have read : Json.read Json.nestingLimit (json v).write = .ok (json v, []) :=
    read_document whole rereads.shallow
  refine ⟨_, encode_shaped v, decode_json proper rereads.settled read, _, read, ?_⟩
  intro found rest document
  rw [json_of_decode decoded document]
  exact renewed_tidy proper found

end Settings

/-- Whatever text a request was decoded from, it can be written, and what is written is decoded to
the same request; both for settings that are carried and for those of the probe. -/
theorem request_round_trip :
    (∀ (text : Bytes) (v : ValidationRequest Value), decode text = .ok v → v.request.Whole →
      v.settings.json.Whole →
      ∃ bytes, encode v = .ok bytes ∧ decode bytes = .ok v ∧
        ∃ written, Json.read Json.nestingLimit bytes = .ok (written, []) ∧
          ∀ found rest, Json.read Json.nestingLimit text = .ok (found, rest) →
            Renewed Value found written) ∧
    (∀ (text : Bytes) (v : ValidationRequest ProbeSettings), decode text = .ok v →
      v.request.Whole →
      ∃ bytes, encode v = .ok bytes ∧ decode bytes = .ok v ∧
        ∃ written, Json.read Json.nestingLimit bytes = .ok (written, []) ∧
          ∀ found rest, Json.read Json.nestingLimit text = .ok (found, rest) →
            Renewed ProbeSettings found written) := by
  constructor
  · intro text v decoded request settings
    exact decode_encode_of_decode (by decide) (by decide) decoded request settings
  · intro text v decoded request
    exact decode_encode_of_decode (by decide) (by decide) decoded request
      ((shape ProbeSettings).carries_of_plain rfl _)

/-- The members of a request with a null member, and without a user. -/
def sparseMembers : List (String × Json) :=
  [("uid", .text "u"), ("name", .null),
    ("kind", .object [("version", .text "v1"), ("kind", .text "Pod")]),
    ("resource", .object [("version", .text "v1"), ("resource", .text "pods")]),
    ("operation", .text "CREATE"), ("object", .object [("b", .number (.int 1)), ("a", .null)])]

/-- The request with these members, and settings that are null. -/
def sparse : ValidationRequest Value where
  request :=
    { uid := "u", kind := ⟨"", "v1", "Pod"⟩, resource := ⟨"", "v1", "pods"⟩, subResource := none,
      requestKind := none, requestResource := none, requestSubResource := none, name := none,
      inNamespace := none, operation := "CREATE", userInfo := ⟨none, none, none, none⟩,
      object := some (.ofJson (.object [("b", .number (.int 1)), ("a", .null)])), oldObject := none,
      dryRun := none, options := none }
  settings := .null

theorem sparse_whole : sparse.request.Whole := by
  refine ⟨?_, ?_, ?_⟩
  · rintro _ ⟨⟩
    exact ⟨trivial, ⟨by decide, by decide⟩, trivial⟩
  · rintro _ ⟨⟩
  · rintro _ ⟨⟩

/-- The request with these members, for the probe. -/
def sparseProbe : ValidationRequest ProbeSettings where
  request := sparse.request
  settings := ⟨some "dns-lookup-success"⟩

/-- The document with these members and with settings. -/
def sparseDocument (settings : Json) : Json :=
  .object [("settings", settings), ("request", .object sparseMembers)]

/-- The settings of the probe, with a member that it does not know. -/
def spelledScenario : Json :=
  .object [("testScenario", .text "dns-lookup-success"), ("retries", .number (.int 3))]

theorem read_sparseDocument (settings : Json) (whole : settings.Whole)
    (fits : (sparseDocument settings).height ≤ Json.nestingLimit) :
    Json.read Json.nestingLimit (sparseDocument settings).write =
      .ok (sparseDocument settings, []) := by
  refine read_document ⟨whole, ?_, trivial⟩ fits
  simp [sparseMembers, Json.Whole, Json.WholeMembers, Number.Whole]

theorem read_sparse :
    Json.read Json.nestingLimit (sparseDocument .null).write = .ok (sparseDocument .null, []) :=
  read_sparseDocument .null trivial (by decide)

theorem read_sparseProbe :
    Json.read Json.nestingLimit (sparseDocument spelledScenario).write =
      .ok (sparseDocument spelledScenario, []) :=
  read_sparseDocument spelledScenario ⟨trivial, ⟨by decide, by decide⟩, trivial⟩ (by decide)

theorem decode_sparse : decode (sparseDocument .null).write = .ok sparse :=
  decode_of_view read_sparse rfl

theorem decode_sparseProbe : decode (sparseDocument spelledScenario).write = .ok sparseProbe :=
  decode_of_view read_sparseProbe rfl

/-- What was null or absent is left out when it is written, or written as its default; and what is
not known is left out of settings that are read. -/
theorem sparse_round_trip :
    (sparse.request.Whole ∧ sparse.settings.json.Whole ∧
      ∃ text bytes written w, decode text = .ok sparse ∧ encode sparse = .ok bytes ∧
        decode bytes = .ok sparse ∧ Json.read Json.nestingLimit bytes = .ok (written, []) ∧
        written.get? "request" = some w ∧ w.get? "name" = none ∧
        w.get? "userInfo" = some (.object [])) ∧
    sparseProbe.request.Whole ∧
      ∃ text bytes written, decode text = .ok sparseProbe ∧ encode sparseProbe = .ok bytes ∧
        decode bytes = .ok sparseProbe ∧ Json.read Json.nestingLimit bytes = .ok (written, []) ∧
        written.get? "settings" = some (.object [("testScenario", .text "dns-lookup-success")]) := by
  obtain ⟨bytes, encoded, again, written, reads, renewed⟩ :=
    request_round_trip.1 _ sparse decode_sparse sparse_whole trivial
  obtain ⟨probeBytes, probeEncoded, probeAgain, probeWritten, probeReads, probeRenewed⟩ :=
    request_round_trip.2 _ sparseProbe decode_sparseProbe sparse_whole
  obtain ⟨w, there, members⟩ := (renewed _ _ read_sparse).request sparseMembers rfl
  have nameless : w.get? "name" = none := (members.optional "name" (by decide)).mpr (.inr rfl)
  have known : probeWritten.get? "settings" = some ((shape ProbeSettings).tidy spelledScenario) :=
    (probeRenewed _ _ read_sparseProbe).settings spelledScenario rfl
  refine ⟨⟨sparse_whole, trivial, ?_⟩, sparse_whole, ?_⟩
  · exact ⟨_, bytes, written, w, decode_sparse, encoded, again, reads, there, nameless,
      members.userInfo rfl⟩
  · exact ⟨_, probeBytes, probeWritten, decode_sparseProbe, probeEncoded, probeAgain, probeReads,
      known⟩

end ValidationRequest

end AdmissionGuest
