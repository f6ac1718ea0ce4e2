import AdmissionGuest.Manifest.Reply
import AdmissionGuest.Proofs.Json.Value
import AdmissionGuest.Proofs.Shape.View
/-!
A registry reply is classified by the media types inside it and by nothing else. How the rest of a
manifest or an index looks decides whether it is kept, never what it is taken for.
-/

namespace AdmissionGuest

/-- The fields that manifests and indexes begin with. -/
@[reducible] def labelledFields (others : Fields) : Fields :=
  .defaulted "schemaVersion" (.int .u32) <| .optional "mediaType" .text others

section Label

variable {kept : Kept} {others : Fields} {slots seen : (labelledFields others).Slots}

theorem viewMember_mediaType {x : Json}
    (viewed : (labelledFields others).viewMember kept slots ("mediaType", x) = .ok seen) :
    slots.2.1 = none ∧ ∀ mediaType, x = .text mediaType → seen.2.1 = some (some mediaType) := by
  obtain ⟨version, label, rest⟩ := slots
  cases label with
  | some mediaType => exact nomatch viewed
  | none =>
    refine ⟨rfl, ?_⟩
    rintro mediaType rfl
    cases viewed
    rfl

theorem viewMember_other {name : String} {x : Json} (other : name ≠ "mediaType")
    (viewed : (labelledFields others).viewMember kept slots (name, x) = .ok seen) :
    seen.2.1 = slots.2.1 := by
  obtain ⟨version, label, rest⟩ := slots
  have skipped : Field.answersTo ⟨"mediaType", .optional, []⟩ name = false := by
    simpa [Field.answersTo] using other
  simp only [Fields.viewMember, Fields.viewMember?, skipped] at viewed
  by_cases first : Field.answersTo ⟨"schemaVersion", .defaulted, []⟩ name
  · rw [if_pos first] at viewed
    cases version with
    | some n => exact nomatch viewed
    | none =>
      obtain ⟨n, _, filled⟩ := ok_of_bind viewed
      cases filled
      rfl
  · rw [if_neg first] at viewed
    cases later : others.viewMember? kept name x rest with
    | none =>
      rw [later] at viewed
      cases viewed
      rfl
    | some result =>
      rw [later] at viewed
      obtain ⟨_, passed, filled⟩ := ok_of_bind viewed
      obtain ⟨_, _, passed⟩ := ok_of_bind passed
      cases passed
      cases filled
      rfl

/-- A media type that was met stays: a second one would be a fault. -/
theorem viewMembers_met {members : List (String × Json)} {label : Option String}
    (met : slots.2.1 = some label)
    (viewed : members.foldlM ((labelledFields others).viewMember kept) slots = .ok seen) :
    seen.2.1 = some label := by
  induction members generalizing slots with
  | nil =>
    cases viewed
    exact met
  | cons m members ih =>
    obtain ⟨name, x⟩ := m
    rw [List.foldlM_cons] at viewed
    obtain ⟨next, here, later⟩ := ok_of_bind viewed
    refine ih ?_ later
    by_cases named : name = "mediaType"
    · subst named
      have absent := (viewMember_mediaType here).1
      exact nomatch absent.symm.trans met
    · rw [viewMember_other named here, met]

theorem viewMembers_mediaType {members : List (String × Json)} {mediaType : String}
    (labelled : (Json.object members).get? "mediaType" = some (.text mediaType))
    (viewed : members.foldlM ((labelledFields others).viewMember kept) slots = .ok seen) :
    seen.2.1 = some (some mediaType) := by
  induction members generalizing slots with
  | nil => exact nomatch labelled
  | cons m members ih =>
    obtain ⟨name, x⟩ := m
    rw [List.foldlM_cons] at viewed
    obtain ⟨next, here, later⟩ := ok_of_bind viewed
    by_cases named : name = "mediaType"
    · subst named
      cases labelled
      exact viewMembers_met ((viewMember_mediaType here).2 _ rfl) later
    · refine ih ?_ later
      rw [← labelled, Json.get?, Json.get?, List.find?_cons_of_neg]
      simpa using named

theorem finish_mediaType {v : (labelledFields others).Val} {mediaType : String}
    (met : slots.2.1 = some (some mediaType))
    (finished : (labelledFields others).finish slots = .ok v) : v.2.1 = some mediaType := by
  obtain ⟨version, label, rest⟩ := slots
  cases met
  -- The slots are emptied in the order of the fields; only the second one matters here.
  obtain ⟨n, _, finished⟩ := ok_of_bind finished
  obtain ⟨⟨met, vs⟩, labelled, finished⟩ := ok_of_bind finished
  obtain ⟨text, same, labelled⟩ := ok_of_bind labelled
  obtain ⟨_, _, labelled⟩ := ok_of_bind labelled
  cases same
  cases labelled
  cases finished
  rfl

theorem view_mediaType {noun mediaType : String} {j : Json} {v : (labelledFields others).Val}
    (labelled : j.get? "mediaType" = some (.text mediaType))
    (viewed : (Shape.record noun (labelledFields others)).view kept j = .ok v) :
    v.2.1 = some mediaType := by
  cases j with
  | object members =>
    obtain ⟨slots, run, finished⟩ := view_object_ok viewed
    exact finish_mediaType (viewMembers_mediaType labelled run) finished
  | _ => exact nomatch labelled

end Label

/-- The reply has, under a name, an object with this text as its media type. -/
def Labels (reply : Json) (name mediaType : String) : Prop :=
  ∃ members nested, reply = .object members ∧ (name, .object nested) ∈ members ∧
    ("mediaType", .text mediaType) ∈ nested

/-- An accepted manifest is labelled as one. -/
def HasImage (reply : Json) : Prop :=
  ∃ mediaType ∈ MediaType.imageManifests, Labels reply "image" mediaType

/-- An accepted index is labelled as one. -/
def HasIndex (reply : Json) : Prop :=
  ∃ mediaType ∈ MediaType.imageIndexes, Labels reply "index" mediaType

theorem labels_iff {reply : Json} (canonical : reply.Canonical) {name mediaType : String} :
    Labels reply name mediaType ↔
      ∃ nested, reply.get? name = some nested ∧
        nested.get? "mediaType" = some (.text mediaType) := by
  constructor
  · rintro ⟨members, nested, rfl, member, label⟩
    have found := (Json.get?_object canonical.1).mpr member
    have inner := canonical.get? found
    exact ⟨_, found, (Json.get?_object inner.1).mpr label⟩
  · rintro ⟨nested, found, label⟩
    have inner := canonical.get? found
    obtain ⟨members, rfl, member⟩ := (Json.get?_eq_some canonical).mp found
    obtain ⟨parts, rfl, part⟩ := (Json.get?_eq_some inner).mp label
    exact ⟨members, parts, rfl, member, part⟩

theorem Labels.unique {reply : Json} (canonical : reply.Canonical) {name first second : String}
    (one : Labels reply name first) (other : Labels reply name second) : first = second := by
  obtain ⟨nested, found, label⟩ := (labels_iff canonical).mp one
  obtain ⟨again, same, label'⟩ := (labels_iff canonical).mp other
  obtain rfl := Option.some.inj (found.symm.trans same)
  have texts := Option.some.inj (label.symm.trans label')
  cases texts
  rfl

namespace OciManifestResponse

variable {name : String} {types : List String} {reply : Json}

theorem labelled?_some (canonical : reply.Canonical) {nested : Json} {mediaType : String}
    (found : labelled? name types.contains reply = some (nested, mediaType)) :
    mediaType ∈ types ∧ Labels reply name mediaType ∧
      nested.get? "mediaType" = some (.text mediaType) := by
  simp only [labelled?, Option.bind_eq_bind, Option.bind_eq_some_iff] at found
  obtain ⟨inner, here, x, label, text, read, found⟩ := found
  by_cases known : types.contains text
  · rw [if_pos known] at found
    cases found
    cases x with
    | text t =>
      cases read
      have labels := (labels_iff canonical).mpr ⟨nested, here, label⟩
      exact ⟨List.contains_iff_mem.mp known, labels, label⟩
    | _ => exact nomatch read
  · rw [if_neg known] at found
    exact nomatch found

theorem labelled?_of_get {nested : Json} {mediaType : String}
    (found : reply.get? name = some nested)
    (label : nested.get? "mediaType" = some (.text mediaType)) (accepted : mediaType ∈ types) :
    labelled? name types.contains reply = some (nested, mediaType) := by
  have known : types.contains mediaType := List.contains_iff_mem.mpr accepted
  simp only [labelled?, found, label, Json.text?, Option.bind_eq_bind, Option.bind_some,
    if_pos known]

theorem labelled?_none (canonical : reply.Canonical)
    (absent : labelled? name types.contains reply = none) :
    ¬ ∃ mediaType ∈ types, Labels reply name mediaType := by
  rintro ⟨mediaType, member, labels⟩
  obtain ⟨nested, found, label⟩ := (labels_iff canonical).mp labels
  rw [labelled?_of_get found label member] at absent
  exact nomatch absent

/-- What holds of every view and of the fallback holds of what is kept. -/
theorem viewOr_keeps {α : Type} [Shaped α] (Keeps : α → Prop) {kind mediaType : String}
    {fallback : String → α} {nested : Json} (reduced : Keeps (fallback mediaType))
    (viewed : ∀ v, (Shaped.shape α).view Kept.asValue nested = .ok v → Keeps (Shaped.ofVal v)) :
    Keeps (viewOr kind fallback nested mediaType).1 := by
  unfold viewOr
  cases view : (Shaped.shape α).view Kept.asValue nested with
  | error cause =>
    rw [Shaped.view, view]
    exact reduced
  | ok v =>
    rw [Shaped.view, view]
    exact viewed v view

theorem viewOr_image {kind mediaType : String} {nested : Json}
    (label : nested.get? "mediaType" = some (.text mediaType)) :
    (viewOr kind ImageManifest.ofMediaType nested mediaType).1.mediaType = some mediaType := by
  apply viewOr_keeps (fun manifest : ImageManifest => manifest.mediaType = some mediaType)
  · rfl
  · intro v viewed
    exact view_mediaType label viewed

theorem viewOr_index {kind mediaType : String} {nested : Json}
    (label : nested.get? "mediaType" = some (.text mediaType)) :
    (viewOr kind ImageIndex.ofMediaType nested mediaType).1.mediaType = some mediaType := by
  apply viewOr_keeps (fun index : ImageIndex => index.mediaType = some mediaType)
  · rfl
  · intro v viewed
    exact view_mediaType label viewed

/-- All that classification can do. -/
inductive Classified (v : Value) : Except Error (OciManifestResponse × List Event) → Prop where
  | image {mediaType : String} {manifest : ImageManifest} {log : List Event}
      (accepted : mediaType ∈ MediaType.imageManifests) (labels : Labels v.json "image" mediaType)
      (keeps : manifest.mediaType = some mediaType) : Classified v (.ok (.image manifest, log))
  | index {mediaType : String} {index : ImageIndex} {log : List Event}
      (noImage : ¬ HasImage v.json) (accepted : mediaType ∈ MediaType.imageIndexes)
      (labels : Labels v.json "index" mediaType) (keeps : index.mediaType = some mediaType) :
      Classified v (.ok (.index index, log))
  | neither (noImage : ¬ HasImage v.json) (noIndex : ¬ HasIndex v.json) :
      Classified v (.error (.decode "OciManifestResponse" "cannot decode response"))

theorem classify_classified (v : Value) : Classified v (classify v) := by
  unfold classify
  cases image : labelled? "image" MediaType.isImageManifest v.json with
  | some found =>
    obtain ⟨nested, mediaType⟩ := found
    obtain ⟨accepted, labels, label⟩ := labelled?_some v.canonical image
    exact .image accepted labels (viewOr_image label)
  | none =>
    have noImage : ¬ HasImage v.json := labelled?_none v.canonical image
    cases index : labelled? "index" MediaType.isImageIndex v.json with
    | some found =>
      obtain ⟨nested, mediaType⟩ := found
      obtain ⟨accepted, labels, label⟩ := labelled?_some v.canonical index
      exact .index noImage accepted labels (viewOr_index label)
    | none => exact .neither noImage (labelled?_none v.canonical index)

theorem classify_image_iff (v : Value) :
    (∃ manifest log, classify v = .ok (.image manifest, log)) ↔ HasImage v.json := by
  have classified := classify_classified v
  generalize classify v = result at classified
  constructor
  · rintro ⟨manifest, log, rfl⟩
    cases classified with
    | image accepted labels => exact ⟨_, accepted, labels⟩
  · intro has
    cases classified with
    | image => exact ⟨_, _, rfl⟩
    | index noImage => exact absurd has noImage
    | neither noImage => exact absurd has noImage

theorem classify_index_iff (v : Value) :
    (∃ index log, classify v = .ok (.index index, log)) ↔ ¬ HasImage v.json ∧ HasIndex v.json := by
  have classified := classify_classified v
  generalize classify v = result at classified
  constructor
  · rintro ⟨index, log, rfl⟩
    cases classified with
    | index noImage accepted labels => exact ⟨noImage, _, accepted, labels⟩
  · rintro ⟨none, has⟩
    cases classified with
    | image accepted labels => exact absurd ⟨_, accepted, labels⟩ none
    | index => exact ⟨_, _, rfl⟩
    | neither _ noIndex => exact absurd has noIndex

theorem classify_error_iff (v : Value) :
    classify v = .error (.decode "OciManifestResponse" "cannot decode response") ↔
      ¬ HasImage v.json ∧ ¬ HasIndex v.json := by
  have classified := classify_classified v
  generalize classify v = result at classified
  constructor
  · rintro rfl
    cases classified with
    | neither noImage noIndex => exact ⟨noImage, noIndex⟩
  · rintro ⟨noImage, noIndex⟩
    cases classified with
    | image accepted labels => exact absurd ⟨_, accepted, labels⟩ noImage
    | index _ accepted labels => exact absurd ⟨_, accepted, labels⟩ noIndex
    | neither => rfl

theorem classify_mediaType {v : Value} {response : OciManifestResponse} {log : List Event}
    (classified : classify v = .ok (response, log)) :
    ∃ mediaType, response.mediaType? = some mediaType ∧ Labels v.json response.kind mediaType := by
  have every := classify_classified v
  rw [classified] at every
  cases every with
  | image _ labels keeps => exact ⟨_, keeps, labels⟩
  | index _ _ labels keeps => exact ⟨_, keeps, labels⟩

/-- What a classification says about a reply: its kind and its media type, or the failure. -/
def summary (result : Except Error (OciManifestResponse × List Event)) :
    Except Error (String × Option String) :=
  result.map fun (response, _) => (response.kind, response.mediaType?)

theorem Classified.summary_eq {v : Value}
    {first second : Except Error (OciManifestResponse × List Event)} (one : Classified v first)
    (other : Classified v second) : summary first = summary second := by
  cases one with
  | image accepted labels keeps =>
    cases other with
    | image _ again keeps' =>
      obtain rfl := labels.unique v.canonical again
      simp only [summary, Except.map, mediaType?, kind, keeps, keeps']
    | index noImage => exact absurd ⟨_, accepted, labels⟩ noImage
    | neither noImage => exact absurd ⟨_, accepted, labels⟩ noImage
  | index noImage accepted labels keeps =>
    cases other with
    | image accepted labels => exact absurd ⟨_, accepted, labels⟩ noImage
    | index _ _ again keeps' =>
      obtain rfl := labels.unique v.canonical again
      simp only [summary, Except.map, mediaType?, kind, keeps, keeps']
    | neither _ noIndex => exact absurd ⟨_, accepted, labels⟩ noIndex
  | neither noImage noIndex =>
    cases other with
    | image accepted labels => exact absurd ⟨_, accepted, labels⟩ noImage
    | index _ accepted labels => exact absurd ⟨_, accepted, labels⟩ noIndex
    | neither => rfl

/-- Whether two replies have the same media types inside. -/
def LabelledAlike (first second : Json) : Prop :=
  ∀ name ∈ ["image", "index"], ∀ mediaType,
    Labels first name mediaType ↔ Labels second name mediaType

theorem Classified.of_alike {v w : Value} (alike : LabelledAlike v.json w.json)
    {result : Except Error (OciManifestResponse × List Event)} (classified : Classified v result) :
    Classified w result := by
  have image := alike "image" (by decide)
  have index := alike "index" (by decide)
  have hasImage : HasImage v.json ↔ HasImage w.json := by simp only [HasImage, image]
  have hasIndex : HasIndex v.json ↔ HasIndex w.json := by simp only [HasIndex, index]
  cases classified with
  | image accepted labels keeps => exact .image accepted ((image _).mp labels) keeps
  | index noImage accepted labels keeps =>
    exact .index (mt hasImage.mpr noImage) accepted ((index _).mp labels) keeps
  | neither noImage noIndex => exact .neither (mt hasImage.mpr noImage) (mt hasIndex.mpr noIndex)

theorem summary_classify_eq {v w : Value} (alike : LabelledAlike v.json w.json) :
    summary (classify v) = summary (classify w) :=
  ((classify_classified v).of_alike alike).summary_eq (classify_classified w)

/-- The media types inside decide everything that is said about a reply: a manifest goes before an
index, and what is neither fails in one way only. -/
theorem classify_exact :
    (∀ v : Value,
      ((∃ manifest log, classify v = .ok (.image manifest, log)) ↔ HasImage v.json) ∧
      ((∃ index log, classify v = .ok (.index index, log)) ↔
        ¬ HasImage v.json ∧ HasIndex v.json) ∧
      (classify v = .error (.decode "OciManifestResponse" "cannot decode response") ↔
        ¬ HasImage v.json ∧ ¬ HasIndex v.json) ∧
      ∀ response log, classify v = .ok (response, log) →
        ∃ mediaType, response.mediaType? = some mediaType ∧
          Labels v.json response.kind mediaType) ∧
    (∀ v w : Value, LabelledAlike v.json w.json → summary (classify v) = summary (classify w)) ∧
    ∀ bytes : Bytes,
      (∀ v, decode (α := Value) bytes = .ok v → classifyReply bytes = classify v) ∧
      ∀ e, decode (α := Value) bytes = .error e →
        classifyReply bytes = .error (.decode "OciManifestResponse" "cannot decode response") := by
  refine ⟨fun v => ⟨classify_image_iff v, classify_index_iff v, classify_error_iff v, ?_⟩, ?_, ?_⟩
  · intro response log classified
    exact classify_mediaType classified
  · intro v w alike
    exact summary_classify_eq alike
  · intro bytes
    unfold classifyReply
    constructor
    · intro v read
      rw [read]
    · intro e unread
      rw [unread]
      rfl

end OciManifestResponse

end AdmissionGuest
