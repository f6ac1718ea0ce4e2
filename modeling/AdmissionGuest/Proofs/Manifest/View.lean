import AdmissionGuest.Proofs.Manifest.Wrapped
import AdmissionGuest.Proofs.Shape.Alias
import AdmissionGuest.Proofs.Shape.Trim
/-!
What a classified reply keeps. It is all of the nested document, if that is a manifest or an index,
and otherwise the media type alone. Members that nobody knows are not seen, and a view that is
wrapped and classified again comes out as it went in. In an index the entries stand in the order of
the document, so that the first one for a platform is the one that is found.
-/

namespace AdmissionGuest

open Shaped

/-- The view of a nested document: what the document is as a whole, or what is known without it. -/
inductive ViewOf {α : Type} [Shaped α] (nested : Json) (known : α) : α → Prop where
  | whole {a : α} (viewed : view .asValue nested = .ok a) : ViewOf nested known a
  | nothing (malformed : ∀ a : α, view .asValue nested ≠ .ok a) : ViewOf nested known known

/-- A manifest of which only the media type is known. -/
def ImageManifest.unknown (mediaType : String) : ImageManifest where
  schemaVersion := 0
  mediaType := some mediaType
  artifactType := none
  config :=
    { mediaType := "", digest := "", size := 0, urls := none, annotations := none, data := none
      platform := none, artifactType := none }
  layers := []
  subject := none
  annotations := none

/-- An index of which only the media type is known. -/
def ImageIndex.unknown (mediaType : String) : ImageIndex where
  schemaVersion := 0
  mediaType := some mediaType
  artifactType := none
  manifests := []
  subject := none
  annotations := none

namespace OciManifestResponse

section ViewOr

variable {α : Type} [Shaped α] {kind mediaType : String} {fallback : String → α} {nested : Json}

theorem viewOr_malformed (malformed : ∀ a : α, view .asValue nested ≠ .ok a) :
    (viewOr kind fallback nested mediaType).1 = fallback mediaType := by
  unfold viewOr
  cases viewed : (view .asValue nested : Except Cause α) with
  | ok a => exact absurd viewed (malformed a)
  | error cause => rfl

theorem viewOr_viewOf :
    ViewOf nested (fallback mediaType) (viewOr kind fallback nested mediaType).1 := by
  by_cases whole : ∃ a : α, view .asValue nested = .ok a
  · obtain ⟨a, viewed⟩ := whole
    rw [viewOr, viewed]
    exact .whole viewed
  · have malformed : ∀ a : α, view .asValue nested ≠ .ok a := fun a viewed => whole ⟨a, viewed⟩
    rw [viewOr_malformed malformed]
    exact .nothing malformed

theorem viewOr_trim :
    viewOr kind fallback ((shape α).trim nested) mediaType =
      viewOr kind fallback nested mediaType := by
  rw [viewOr, viewOr, view, view, (shape α).view_trim]

end ViewOr

/-! What is looked at -/

section Nested

variable {v : Value} {nested : Json} {mediaType : String}

theorem classify_image (found : v.json.get? "image" = some nested)
    (label : nested.get? "mediaType" = some (.text mediaType))
    (accepted : mediaType ∈ MediaType.imageManifests) :
    classify v = .ok (.image (viewOr "manifest" ImageManifest.ofMediaType nested mediaType).1,
      (viewOr "manifest" ImageManifest.ofMediaType nested mediaType).2) := by
  rw [classify, show labelled? "image" MediaType.isImageManifest v.json = some (nested, mediaType)
    from labelled?_of_get found label accepted]

theorem classify_index (noImage : ¬ HasImage v.json) (found : v.json.get? "index" = some nested)
    (label : nested.get? "mediaType" = some (.text mediaType))
    (accepted : mediaType ∈ MediaType.imageIndexes) :
    classify v = .ok (.index (viewOr "index" ImageIndex.ofMediaType nested mediaType).1,
      (viewOr "index" ImageIndex.ofMediaType nested mediaType).2) := by
  have none : labelled? "image" MediaType.isImageManifest v.json = none := by
    cases image : labelled? "image" MediaType.isImageManifest v.json with
    | none => rfl
    | some found =>
      have types : labelled? "image" MediaType.imageManifests.contains v.json = some found := image
      obtain ⟨accepted, labels, _⟩ := labelled?_some v.canonical types
      exact absurd ⟨_, accepted, labels⟩ noImage
  rw [classify, none, show labelled? "index" MediaType.isImageIndex v.json =
    some (nested, mediaType) from labelled?_of_get found label accepted]

/-- The nested document that was looked at, with its media type and its view. -/
inductive Looked (v : Value) : OciManifestResponse → Prop where
  | image {nested : Json} {mediaType : String} {manifest : ImageManifest}
    (found : v.json.get? "image" = some nested)
    (label : nested.get? "mediaType" = some (.text mediaType))
    (accepted : mediaType ∈ MediaType.imageManifests)
    (kept : ViewOf nested (ImageManifest.unknown mediaType) manifest) : Looked v (.image manifest)
  | index {nested : Json} {mediaType : String} {index : ImageIndex}
    (noImage : ¬ HasImage v.json) (found : v.json.get? "index" = some nested)
    (label : nested.get? "mediaType" = some (.text mediaType))
    (accepted : mediaType ∈ MediaType.imageIndexes)
    (kept : ViewOf nested (ImageIndex.unknown mediaType) index) : Looked v (.index index)

theorem looked_of_classify {response : OciManifestResponse} {log : List Event}
    (classified : classify v = .ok (response, log)) : Looked v response := by
  cases response with
  | image manifest =>
    obtain ⟨mediaType, accepted, labels⟩ := (classify_image_iff v).mp ⟨_, _, classified⟩
    obtain ⟨nested, found, label⟩ := (labels_iff v.canonical).mp labels
    cases classified.symm.trans (classify_image found label accepted)
    exact .image found label accepted viewOr_viewOf
  | index index =>
    obtain ⟨noImage, mediaType, accepted, labels⟩ := (classify_index_iff v).mp ⟨_, _, classified⟩
    obtain ⟨nested, found, label⟩ := (labels_iff v.canonical).mp labels
    cases classified.symm.trans (classify_index noImage found label accepted)
    exact .index noImage found label accepted viewOr_viewOf

end Nested

/-! What is not looked at -/

/-- The names under which a reply wraps a document, with the shapes of the documents. -/
def wrappers : List (String × Shape) :=
  [("image", shape ImageManifest), ("index", shape ImageIndex)]

/-- Replies that differ in nothing but members that nobody knows, in the documents they wrap and
beside them. -/
def KnownAlike (one other : Json) : Prop :=
  ∀ w ∈ wrappers, (one.get? w.1).map w.2.trim = (other.get? w.1).map w.2.trim

/-- A nested document with its media type, trimmed. -/
def trimLabelled (s : Shape) (l : Json × String) : Json × String := (s.trim l.1, l.2)

section Alike

variable {one other : Json} {name : String} (accepted : String → Bool) {s : Shape}

theorem labelled?_trim
    (label : ∀ j : Json, (s.trim j).get? "mediaType" = j.get? "mediaType")
    (alike : (one.get? name).map s.trim = (other.get? name).map s.trim) :
    (labelled? name accepted one).map (trimLabelled s) =
      (labelled? name accepted other).map (trimLabelled s) := by
  have trimmed (reply : Json) :
      (labelled? name accepted reply).map (trimLabelled s) =
        ((reply.get? name).map s.trim).bind fun nested =>
          ((nested.get? "mediaType").bind Json.text?).bind fun mediaType =>
            if accepted mediaType then some (nested, mediaType) else none := by
    unfold labelled?
    cases reply.get? name with
    | none => rfl
    | some nested =>
      simp only [Option.bind_eq_bind, Option.bind_some, Option.map_some, label]
      cases nested.get? "mediaType" with
      | none => rfl
      | some x =>
        simp only [Option.bind_some]
        cases x.text? with
        | none => rfl
        | some mediaType => simp only [Option.bind_some]; split <;> rfl
  rw [trimmed, trimmed, alike]

theorem get?_trim_mediaType {noun : String} {others : Fields} (j : Json) :
    ((Shape.record noun (labelledFields others)).trim j).get? "mediaType" =
      j.get? "mediaType" := by
  have text : Shape.text.trim = id := by
    funext x
    cases x <;> rfl
  have known : (labelledFields others).find? "mediaType" =
      some (⟨"mediaType", .optional, []⟩, .text) := rfl
  rw [Shape.get?_trim known, text, Option.map_id]
  rfl

theorem classify_trimmed (v : Value) :
    classify v =
      match (labelled? "image" MediaType.isImageManifest v.json).map
          (trimLabelled (shape ImageManifest)) with
      | some (nested, mediaType) =>
        let (manifest, log) := viewOr "manifest" ImageManifest.ofMediaType nested mediaType
        .ok (.image manifest, log)
      | none =>
        match (labelled? "index" MediaType.isImageIndex v.json).map
            (trimLabelled (shape ImageIndex)) with
        | some (nested, mediaType) =>
          let (view, log) := viewOr "index" ImageIndex.ofMediaType nested mediaType
          .ok (.index view, log)
        | none => .error rejected := by
  unfold classify
  cases labelled? "image" MediaType.isImageManifest v.json with
  | some l => simp only [Option.map_some, trimLabelled, viewOr_trim]
  | none =>
    cases labelled? "index" MediaType.isImageIndex v.json with
    | some l => simp only [Option.map_none, Option.map_some, trimLabelled, viewOr_trim]
    | none => rfl

theorem classify_alike {v w : Value} (alike : KnownAlike v.json w.json) :
    classify v = classify w := by
  have image : (labelled? "image" MediaType.isImageManifest v.json).map
        (trimLabelled (shape ImageManifest)) =
      (labelled? "image" MediaType.isImageManifest w.json).map
        (trimLabelled (shape ImageManifest)) :=
    labelled?_trim _ get?_trim_mediaType (alike ("image", shape ImageManifest) (.head _))
  have index : (labelled? "index" MediaType.isImageIndex v.json).map
        (trimLabelled (shape ImageIndex)) =
      (labelled? "index" MediaType.isImageIndex w.json).map (trimLabelled (shape ImageIndex)) :=
    labelled?_trim _ get?_trim_mediaType (alike ("index", shape ImageIndex) (.tail _ (.head _)))
  rw [classify_trimmed, classify_trimmed, image, index]

end Alike

/-! Classifying again -/

theorem classify_again {v : Value} {response : OciManifestResponse} {log : List Event}
    (classified : classify v = .ok (response, log)) :
    classifyReply (wrapped response.kind response.json).write = .ok (response, []) := by
  have every := classify_classified v
  rw [classified] at every
  cases every with
  | image accepted _ keeps => exact classifyReply_image keeps accepted
  | index _ accepted _ keeps => exact classifyReply_index keeps accepted

theorem classifyReply_view (response : OciManifestResponse) :
    classifyReply (wrapped response.kind response.json).write =
      classify (Value.ofJson (wrapped response.kind response.json)) := by
  cases response with
  | image manifest => exact classifyReply_wrapped rfl (by decide) "image" manifest
  | index index => exact classifyReply_wrapped rfl (by decide) "index" index

end OciManifestResponse

/-! Entries of an index -/

namespace Field

variable (field : Field) {other : Field}

/-- What stands under the one name of a field. -/
theorem get?_own (alone : field.aliases = []) (ms : List (String × Json)) :
    (Json.object ms).get? field.name = (field.own ms).head?.map Prod.snd := by
  simp only [Json.get?, own, List.head?_filter, answersTo, alone, List.contains_nil, Bool.or_false]

/-- A field finds its members among those that are left for it. -/
theorem own_others (alone : field.aliases = []) (apart : other.answersTo field.name = false)
    (ms : List (String × Json)) : field.own (other.others ms) = field.own ms := by
  rw [own, others, List.filter_filter]
  refine List.filter_congr fun m _ => ?_
  by_cases named : m.1 = field.name
  · rw [named, apart, Bool.not_false, Bool.and_true]
  · have mine : field.answersTo m.1 = false := by
      rw [answersTo, alone, List.contains_nil, Bool.or_false]
      exact beq_false_of_ne named
    rw [mine, Bool.false_and]

end Field

namespace ImageIndex

/-- The documents of the entries. -/
def entries (nested : Json) : List Json :=
  match nested.get? "manifests" with
  | some (.list xs) => xs
  | _ => []

/-- An entry for an operating system and an architecture. -/
def Runs (os architecture : String) (d : Descriptor) : Prop :=
  ∃ p, d.platform = some p ∧ p.os = os ∧ p.architecture = architecture

/-- The entries are views of the documents in their order. -/
theorem entries_of_view {ms : List (String × Json)} {i : ImageIndex}
    (viewed : view .asValue (.object ms) = .ok i) :
    List.Forall₂ (fun x d => view .asValue x = .ok d) (entries (.object ms)) i.manifests := by
  have yields := (Fields.takes_iff_yields _).mp (view_object_iff.mp (view_ok_iff.mp viewed))
  obtain ⟨_, _, _, given, _⟩ := yields
  have found : (Json.object ms).get? "manifests" =
      (Field.own ⟨"manifests", .defaulted, []⟩ ms).head?.map Prod.snd :=
    Field.get?_own ⟨"manifests", .defaulted, []⟩ rfl ms
  rw [Field.own_others _ rfl rfl, Field.own_others _ rfl rfl, Field.own_others _ rfl rfl] at given
  rw [entries, found]
  obtain ⟨none, default⟩ | ⟨⟨name, x⟩, own, viewed⟩ := given.inv
  · have empty : i.manifests = [] := List.map_eq_nil_iff.mp (Option.some.inj default).symm
    rw [none, empty]
    exact .nil
  · rw [own]
    cases x with
    | list xs =>
      have each := mapM_ok_iff.mp viewed
      exact (List.forall₂_map_right_iff.mp each).imp fun _ _ => view_ok_iff.mpr
    | _ => exact nomatch viewed

/-- The entry that is found is the first one for the platform. -/
theorem findPlatform?_eq_some_iff {i : ImageIndex} {os architecture : String} {d : Descriptor} :
    i.findPlatform? os architecture = some d ↔
      ∃ before after, i.manifests = before ++ d :: after ∧ Runs os architecture d ∧
        ∀ e ∈ before, ¬ Runs os architecture e := by
  have runs (e : Descriptor) :
      (e.platform.any (·.runs os architecture)) = true ↔ Runs os architecture e := by
    unfold Runs
    cases e.platform with
    | none => exact ⟨nofun, nofun⟩
    | some p =>
      simp only [Option.any_some, Platform.runs, Bool.and_eq_true, beq_iff_eq, Option.some.injEq,
        exists_eq_left']
  rw [findPlatform?, List.find?_eq_some_iff_append, runs]
  constructor
  · rintro ⟨here, before, after, split, first⟩
    refine ⟨before, after, split, here, fun e earlier runs' => ?_⟩
    have other := first e earlier
    rw [(runs e).mpr runs'] at other
    exact nomatch other
  · rintro ⟨before, after, split, here, first⟩
    refine ⟨here, before, after, split, fun e earlier => ?_⟩
    rw [Bool.not_eq_true']
    exact Bool.eq_false_iff.mpr fun runs' => first e earlier ((runs e).mp runs')

end ImageIndex

namespace OciManifestResponse

/-- The index of a reply, with the document it is a view of. -/
theorem index_of_classify {v : Value} {index : ImageIndex} {log : List Event}
    (classified : classify v = .ok (.index index, log)) :
    ∃ nested, v.json.get? "index" = some nested ∧
      ((∀ i : ImageIndex, view .asValue nested ≠ .ok i) → index.manifests = []) ∧
      (∀ i : ImageIndex, view .asValue nested = .ok i → i = index ∧
        List.Forall₂ (fun x d => view .asValue x = .ok d) (ImageIndex.entries nested)
          index.manifests) := by
  cases looked_of_classify classified with
  | @index nested mediaType _ _ found label _ kept =>
    refine ⟨nested, found, ?_, ?_⟩
    · intro malformed
      cases kept with
      | whole viewed => exact absurd viewed (malformed index)
      | nothing => rfl
    · intro i viewed
      cases kept with
      | nothing malformed => exact absurd viewed (malformed i)
      | whole viewed' =>
        cases Except.ok.inj (viewed.symm.trans viewed')
        cases nested with
        | object ms => exact ⟨rfl, ImageIndex.entries_of_view viewed⟩
        | _ => exact nomatch label

/-- A classified reply is viewed as a whole or by its media type alone, never in part, and nothing
that is unknown changes the view. Wrapped under the same name and classified again, the view comes
back with all its fields. An index that is known by its media type has nothing for any platform; in
any other index, what is found is the first entry of the document for the platform. -/
theorem view_exact :
    (∀ (v : Value) (response : OciManifestResponse) (log : List Event),
      classify v = .ok (response, log) →
        Looked v response ∧
        classify (Value.ofJson (wrapped response.kind response.json)) = .ok (response, []) ∧
        classifyReply (wrapped response.kind response.json).write = .ok (response, [])) ∧
    (∀ v w : Value, KnownAlike v.json w.json → classify v = classify w) ∧
    ∀ (v : Value) (index : ImageIndex) (log : List Event),
      classify v = .ok (.index index, log) →
      ∃ nested, v.json.get? "index" = some nested ∧
        ((∀ i : ImageIndex, view .asValue nested ≠ .ok i) →
          ∀ os architecture, index.findPlatform? os architecture = none) ∧
        ∀ i : ImageIndex, view .asValue nested = .ok i → i = index ∧
          List.Forall₂ (fun x d => view .asValue x = .ok d) (ImageIndex.entries nested)
            index.manifests ∧
          ∀ os architecture,
            (∀ d, index.findPlatform? os architecture = some d ↔
              ∃ before after, index.manifests = before ++ d :: after ∧
                ImageIndex.Runs os architecture d ∧
                ∀ e ∈ before, ¬ ImageIndex.Runs os architecture e) := by
  refine ⟨fun v response log classified => ?_, fun v w => classify_alike, ?_⟩
  · have again := classify_again classified
    exact ⟨looked_of_classify classified, (classifyReply_view response).symm.trans again, again⟩
  · intro v index log classified
    obtain ⟨nested, found, nothing, whole⟩ := index_of_classify classified
    refine ⟨nested, found, fun malformed os architecture => ?_, fun i viewed => ?_⟩
    · rw [ImageIndex.findPlatform?, nothing malformed]
      rfl
    · obtain ⟨same, entries⟩ := whole i viewed
      exact ⟨same, entries, fun os architecture d => ImageIndex.findPlatform?_eq_some_iff⟩

/-! An index with several entries for one platform, and one with a field of the wrong type -/

def sampleEntry (os architecture digest : String) : Json :=
  .object [("digest", .text digest), ("note", .list []),
    ("platform", .object [("architecture", .text architecture), ("os", .text os),
      ("os.note", .null)])]

def sampleNested (version : Json) : Json :=
  .object [("manifests", .list [sampleEntry "linux" "amd64" "a", sampleEntry "linux" "arm64" "b",
      sampleEntry "linux" "arm64" "c"]),
    ("mediaType", .text MediaType.ociImageIndex), ("schemaVersion", version)]

def sampleReply (version : Json) : Value := Value.ofJson (wrapped "index" (sampleNested version))

/-- What is known of an entry. -/
def sampleDescriptor (os architecture digest : String) : Descriptor :=
  { mediaType := "", digest, size := 0, urls := none, annotations := none, data := none
    platform := some
      { architecture, os, osVersion := none, osFeatures := none, variant := none }
    artifactType := none }

def sampleIndex : ImageIndex :=
  { ImageIndex.unknown MediaType.ociImageIndex with
    schemaVersion := 2
    manifests := [sampleDescriptor "linux" "amd64" "a", sampleDescriptor "linux" "arm64" "b",
      sampleDescriptor "linux" "arm64" "c"] }

theorem sampleReply_viewed :
    sampleIndex.findPlatform? "linux" "arm64" = some (sampleDescriptor "linux" "arm64" "b") ∧
      classifyReply (wrapped "index" (Shaped.json sampleIndex)).write =
        .ok (.index sampleIndex, []) ∧
      (ImageIndex.unknown MediaType.ociImageIndex).findPlatform? "linux" "arm64" = none := by
  have whole : classify (sampleReply (.number (.int 2))) = .ok (.index sampleIndex, []) := rfl
  have reduced : ∃ log, classify (sampleReply (.text "2")) =
      .ok (.index (ImageIndex.unknown MediaType.ociImageIndex), log) := ⟨_, rfl⟩
  obtain ⟨log, reduced⟩ := reduced
  have again := (view_exact.1 _ _ _ whole).2.2
  obtain ⟨nested, found, _, viewed⟩ := view_exact.2.2 _ _ _ whole
  obtain ⟨nested', found', nothing, _⟩ := view_exact.2.2 _ _ _ reduced
  cases found
  cases found'
  obtain ⟨_, _, first⟩ := viewed sampleIndex rfl
  refine ⟨((first "linux" "arm64") _).mpr ⟨[_], [_], rfl, ⟨_, rfl, rfl, rfl⟩, ?_⟩, again,
    nothing (fun i => nofun) "linux" "arm64"⟩
  rintro e here ⟨p, platform, _, architecture⟩
  cases List.mem_singleton.mp here
  cases platform
  exact absurd architecture (by decide)

end OciManifestResponse

end AdmissionGuest
