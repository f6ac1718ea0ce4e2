import AdmissionGuest.Proofs.Document
import AdmissionGuest.Proofs.Manifest.Classification
import AdmissionGuest.Proofs.Shape.Canonical
/-!
A manifest or an index that stands under its own name in a reply, labelled with an accepted media
type, comes out of the reply as it is: nothing of it is reduced.
-/

namespace AdmissionGuest

open Shaped

/-- A media type that was viewed stands in the document. -/
theorem mediaType_of_takes {kept : Kept} {others : Fields} {ms : List (String × Json)}
    {v : (labelledFields others).Val} {mediaType : String}
    (takes : (labelledFields others).Takes kept ms v) (typed : v.2.1 = some mediaType) :
    ("mediaType", .text mediaType) ∈ ms := by
  obtain ⟨version, label, rest⟩ := v
  cases typed
  obtain ⟨_, ⟨slot, fills, given⟩, _⟩ := takes
  cases slot with
  | none => cases given
  | some label =>
    cases given
    obtain ⟨name, x, own, viewed⟩ : ∃ name x, Field.own ⟨"mediaType", .optional, []⟩
        (Field.others ⟨"schemaVersion", .defaulted, []⟩ ms) = [(name, x)] ∧
        Shape.viewPresent (Shape.text.view kept) .optional x = .ok (some mediaType) := by
      generalize Field.own _ _ = own at fills
      cases fills with
      | present viewed => exact ⟨_, _, rfl, viewed⟩
    have member := own ▸ List.mem_singleton_self (name, x)
    obtain ⟨member, answers⟩ := List.mem_filter.mp member
    have named : name = "mediaType" := by simpa [Field.answersTo] using answers
    cases x with
    | text t =>
      cases viewed
      exact named ▸ (List.mem_filter.mp member).1
    | _ => cases viewed

/-- What was written is viewed in the same way after it was carried. -/
theorem Shape.view_carried (kept : Kept) (s : Shape) (plain : s.plain = true) (proper : s.Proper)
    (v : s.Val) : s.view kept (s.json v).canonical = .ok v := by
  have written := s.view_json kept v proper
  rw [s.settle_of_plain plain] at written
  exact s.view_canonical kept written

theorem get?_mediaType {noun mediaType : String} {others : Fields} {v : (labelledFields others).Val}
    (plain : (labelledFields others).plain = true)
    (proper : (Shape.record noun (labelledFields others)).Proper)
    (typed : v.2.1 = some mediaType) :
    ((Shape.record noun (labelledFields others)).json v).canonical.get? "mediaType" =
      some (.text mediaType) := by
  have viewed := (Shape.record noun (labelledFields others)).view_carried .asValue plain proper v
  have member := mediaType_of_takes (view_object_iff.mp viewed) typed
  exact (Json.get?_object (Entries.ascending_ofList _)).mpr member

namespace OciManifestResponse

/-- The reply that has a document under a name. -/
def wrapped (name : String) (j : Json) : Json := .object [(name, j)]

section Wrapped

variable {α : Type} [Shaped α] (plain : (shape α).plain = true)

include plain

theorem viewOr_carried (proper : (shape α).Proper) {kind mediaType : String}
    {fallback : String → α} (a : α) :
    viewOr kind fallback (Shaped.json a).canonical mediaType = (a, []) := by
  have viewed := (shape α).view_carried .asValue plain proper (toVal a)
  rw [viewOr, Shaped.view, Shaped.json, viewed]
  exact congrArg (·, []) (ofVal_toVal a)

theorem classifyReply_wrapped (fits : (shape α).extent + 1 ≤ Json.nestingLimit) (name : String)
    (a : α) :
    classifyReply (wrapped name (Shaped.json a)).write =
      classify (Value.ofJson (wrapped name (Shaped.json a))) := by
  have whole : (wrapped name (Shaped.json a)).Whole := Json.wholeMembers_iff.mpr <|
    List.forall_mem_singleton.mpr (json_inherits_of_plain plain Json.whole_inherited a)
  have inside : (Shaped.json a).height ≤ (shape α).extent + 0 :=
    (shape α).height_json _ ((shape α).carries_of_plain plain _)
  have height : (wrapped name (Shaped.json a)).height ≤ Json.nestingLimit :=
    (Nat.succ_le_succ (Json.heightMembers_le_iff.mpr (List.forall_mem_singleton.mpr inside))).trans
      fits
  rw [classifyReply, decode_write whole height]

end Wrapped

/-- A manifest with an accepted media type is what a reply that wraps it is taken for. -/
theorem classifyReply_image {m : ImageManifest} {mediaType : String}
    (typed : m.mediaType = some mediaType) (accepted : mediaType ∈ MediaType.imageManifests) :
    classifyReply (wrapped "image" (Shaped.json m)).write = .ok (.image m, []) := by
  have label : (Shaped.json m).canonical.get? "mediaType" = some (.text mediaType) :=
    get?_mediaType rfl (by decide) typed
  have found : labelled? "image" MediaType.isImageManifest
      (Value.ofJson (wrapped "image" (Shaped.json m))).json =
        some ((Shaped.json m).canonical, mediaType) :=
    labelled?_of_get rfl label accepted
  rw [classifyReply_wrapped rfl (by decide), classify, found]
  simp only [viewOr_carried (α := ImageManifest) rfl (by decide)]

/-- An index with an accepted media type is what a reply that wraps it is taken for. -/
theorem classifyReply_index {i : ImageIndex} {mediaType : String}
    (typed : i.mediaType = some mediaType) (accepted : mediaType ∈ MediaType.imageIndexes) :
    classifyReply (wrapped "index" (Shaped.json i)).write = .ok (.index i, []) := by
  have label : (Shaped.json i).canonical.get? "mediaType" = some (.text mediaType) :=
    get?_mediaType rfl (by decide) typed
  have other : labelled? "image" MediaType.isImageManifest
      (Value.ofJson (wrapped "index" (Shaped.json i))).json = none := rfl
  have found : labelled? "index" MediaType.isImageIndex
      (Value.ofJson (wrapped "index" (Shaped.json i))).json =
        some ((Shaped.json i).canonical, mediaType) :=
    labelled?_of_get rfl label accepted
  rw [classifyReply_wrapped rfl (by decide), classify, other, found]
  simp only [viewOr_carried (α := ImageIndex) rfl (by decide)]

end OciManifestResponse

end AdmissionGuest
