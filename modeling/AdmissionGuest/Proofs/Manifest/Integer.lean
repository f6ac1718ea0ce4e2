import AdmissionGuest.Proofs.Admission.Integer
import AdmissionGuest.Proofs.Manifest.View
/-!
Integers in replies of a registry. A reply is carried before it is classified, so that an integer may
be too great for its field and still be held; the manifest or the index is then known by its media
type alone. An integer that is not even held makes the reply no document.
-/

namespace AdmissionGuest

open Shaped Spelling

section Carried

variable (before after : List Blank)

/-- A value is decoded to what its text is read as. -/
theorem decode_value_iff (d : Spelling) (v : Value) :
    decode (document before d after) = .ok v ↔
      ∃ j, (Json.read Json.nestingLimit).on d = .ok j ∧ v = Value.ofJson j := by
  have finds : Reader.Finds (Value.ofJson <$> Json.read Json.nestingLimit) d
      (Value.ofJson <$> (Json.read Json.nestingLimit).on d) :=
    fun bs rest stops => (read_uniform Json.nestingLimit d bs rest stops).map Value.ofJson
  exact (decode_document_iff before d after v).trans (finds.ok_iff.trans map_ok_iff)

/-- Values that are decoded with a part left open. -/
inductive Carries (place : List Layer) (steps : List Step) : Prop where
  /-- what surrounds the part is at fault -/
  | shut (never : ∀ d (v : Value), decode (document before (fill place d) after) ≠ .ok v)
  /-- the part is put into a value, where it is found -/
  | put (inner : Nat) (put : Json → Value)
    (reads : ∀ d (v : Value), decode (document before (fill place d) after) = .ok v ↔
      ∃ x, (Json.read inner).on d = .ok x ∧ v = put x)
    (layers : List Json.Layer) (same : layers.map Json.Layer.step = steps)
    (found : ∀ f ∈ layers, f.Found) (filled : ∀ x, (put x).json = Json.fill layers x.canonical)

theorem Spelling.Way.carries {place : List Layer} {steps : List Step} (way : Way place steps) :
    Carries before after place steps := by
  cases holds Json.nestingLimit place with
  | shut never =>
    refine .shut fun d v decoded => ?_
    obtain ⟨j, read, _⟩ := (decode_value_iff before after _ v).mp decoded
    exact never d j read
  | put inner layers around reads =>
    obtain ⟨rfl, counts⟩ := way.reads around
    obtain ⟨ordered, same, found, filled⟩ := Json.canonical_fill counts
    refine .put inner (fun x => Value.ofJson (Json.fill layers x)) (fun d v => ?_)
      ordered same found filled
    rw [decode_value_iff]
    simp only [reads]
    constructor
    · rintro ⟨_, ⟨x, read, rfl⟩, rfl⟩
      exact ⟨x, read, rfl⟩
    · rintro ⟨x, read, rfl⟩
      exact ⟨_, ⟨x, read, rfl⟩, rfl⟩

end Carried

/-- What is read of a value other than null is not null. -/
theorem Spelling.read_ne_null {depth : Nat} {d : Spelling} {x : Json} (there : d ≠ .null)
    (read : (Json.read depth).on d = .ok x) : x.canonical ≠ .null := by
  have made := (read_finds depth d).ok_iff.mp read
  rw [ne_eq, ← Json.isNull_iff, Json.isNull_canonical, Json.isNull_iff]
  rintro rfl
  cases d with
  | null => exact there rfl
  | flag b => exact nomatch made
  | number | text =>
    obtain ⟨_, _, same⟩ := map_ok_iff.mp made
    exact nomatch same
  | list | object =>
    cases depth with
    | zero => exact nomatch made
    | succ depth =>
      obtain ⟨_, _, same⟩ := map_ok_iff.mp made
      exact nomatch same

/-- Whether a value can hold a numeral. -/
def Spelling.Numeral.Held (numeral : Numeral) : Prop :=
  ∃ v : Value, decode (document [] (.number numeral) []) = .ok v

theorem held_iff {numeral : Numeral} : numeral.Held ↔ ∃ x, numberOf numeral = .ok x := by
  unfold Numeral.Held
  simp only [decode_value_iff, read_number_iff]
  constructor
  · rintro ⟨_, _, ⟨x, held, _⟩, _⟩
    exact ⟨x, held⟩
  · rintro ⟨x, held⟩
    exact ⟨_, _, ⟨x, held, rfl⟩, rfl⟩

/-- A value that cannot hold a part is not decoded. -/
theorem not_decoded_of_not_held {numeral : Numeral} (unheld : ¬ numeral.Held) (place : List Layer)
    (before after : List Blank) (v : Value) :
    decode (document before (fill place (.number numeral)) after) ≠ .ok v := by
  intro decoded
  obtain ⟨j, read, _⟩ := (decode_value_iff before after _ v).mp decoded
  obtain ⟨inner, x, part⟩ := part_read read
  obtain ⟨number, held, _⟩ := read_number_iff.mp part
  exact unheld (held_iff.mpr ⟨number, held⟩)

/-! The media type beside an integer -/

/-- No integer stands in place of a media type. -/
theorem Shape.Reaches.get?_mediaType {noun : String} {others : Fields} {layers : List Json.Layer}
    {path : List Step} {width : Width}
    (within : Reaches (.record noun (labelledFields others)) layers path (.int width)) (x x' : Json) :
    (Json.fill layers x).get? "mediaType" = (Json.fill layers x').get? "mediaType" := by
  cases within with
  | @member _ _ _ _ name field shape _ _ _ known inner =>
    refine Json.Layer.get?_fill_other (Ne.symm ?_) _ _
    rintro rfl
    cases known
    exact nomatch inner
  | field => rfl

namespace OciManifestResponse

/-- A reply of which only the media type is kept. -/
def labelOnly : OciManifestResponse → OciManifestResponse
  | image m => image { ImageManifest.unknown "" with mediaType := m.mediaType }
  | index i => index { ImageIndex.unknown "" with mediaType := i.mediaType }

/-- What becomes of a classification when an integer is put into the document. -/
structure Reclassifies (width : Width) (path : List Step) (n : Int)
    (old new : OciManifestResponse × List Event) : Prop where
  kind : new.1.kind = old.1.kind
  mediaType : new.1.mediaType? = old.1.mediaType?
  /-- all but the media type is lost, and the log says so -/
  reduced : ¬ width.Fits n →
    new.1 = old.1.labelOnly ∧ ∃ noun cause, new.2 = [.manifestReduced noun cause]
  /-- what was viewed as a whole is viewed with the integer in it -/
  whole : width.Fits n → old.2 = [] →
    new.2 = [] ∧ new.1.json.follow? path = some (.number (.int n))

/-! The view of a document with an integer in it -/

section Views

variable {α : Type} [Shaped α] {kind mediaType : String} {fallback : String → α}

theorem viewOr_whole {nested : Json} {a : α} (viewed : view .asValue nested = .ok a) :
    viewOr kind fallback nested mediaType = (a, []) := by
  rw [viewOr, viewed]

theorem viewOr_reduced {nested : Json} (malformed : ∀ a : α, view .asValue nested ≠ .ok a) :
    ∃ cause, viewOr kind fallback nested mediaType =
      (fallback mediaType, [.manifestReduced kind cause]) := by
  unfold viewOr
  cases viewed : (view .asValue nested : Except Cause α) with
  | ok a => exact absurd viewed (malformed a)
  | error cause => exact ⟨cause.message, rfl⟩

variable {layers : List Json.Layer} {path : List Step} {width : Width}
  (within : Shape.Reaches (shape α) layers path (.int width)) (proper : (shape α).Proper)
  {numeral : Numeral} {n : Int} (writes : numeral.Writes n) {x : Number}
  (held : numberOf numeral = .ok x)

include within proper writes held

theorem integer_of_view {a : α} (viewed : view .asValue (Json.fill layers (.number x)) = .ok a) :
    width.Fits n ∧ (Shaped.json a).follow? path = some (.number (.int n)) := by
  have some : Json.number x ≠ .null := nofun
  exact (within.opens proper .asValue).integer some
    (fun kept _ => Shape.view_int_iff writes kept held) (view_ok_iff.mp viewed)

/-- Where anything is viewed, every integer that fits is viewed. -/
theorem view_of_integer {y : Json} {a : α} (there : y ≠ .null)
    (viewed : view .asValue (Json.fill layers y) = .ok a) (fits : width.Fits n) :
    ∃ b : α, view .asValue (Json.fill layers (.number x)) = .ok b := by
  have some : Json.number x ≠ .null := nofun
  obtain ⟨v, made⟩ := (within.opens proper .asValue).integer_makes some
    (fun kept _ => Shape.view_int_iff writes kept held) there (view_ok_iff.mp viewed) fits
  refine ⟨ofVal v, view_ok_iff.mpr ?_⟩
  rw [toVal_ofVal]
  exact made

theorem viewOr_misfit (misfit : ¬ width.Fits n) :
    ∃ cause, viewOr kind fallback (Json.fill layers (.number x)) mediaType =
      (fallback mediaType, [.manifestReduced kind cause]) :=
  viewOr_reduced fun _ viewed =>
    misfit (integer_of_view within proper writes held viewed).1

theorem viewOr_fits (fits : width.Fits n) {y : Json} (there : y ≠ .null)
    (whole : (viewOr kind fallback (Json.fill layers y) mediaType).2 = []) :
    ∃ a : α, viewOr kind fallback (Json.fill layers (.number x)) mediaType = (a, []) ∧
      (Shaped.json a).follow? path = some (.number (.int n)) := by
  cases viewed : (view .asValue (Json.fill layers y) : Except Cause α) with
  | error cause =>
    rw [viewOr, viewed] at whole
    cases whole
  | ok a =>
    obtain ⟨b, viewed'⟩ := view_of_integer within proper writes held there viewed fits
    exact ⟨b, viewOr_whole viewed', (integer_of_view within proper writes held viewed').2⟩

/-- A view that is wrapped, and the view with the integer. -/
theorem reclassifies (wrap : α → OciManifestResponse) {y : Json} (there : y ≠ .null)
    (kinds : ∀ a b, (wrap a).kind = (wrap b).kind) (jsons : ∀ a, (wrap a).json = Shaped.json a)
    (labels : ∀ z, (wrap (viewOr kind fallback (Json.fill layers z) mediaType).1).mediaType? =
      some mediaType)
    (only : ∀ a, (wrap a).mediaType? = some mediaType →
      wrap (fallback mediaType) = (wrap a).labelOnly) :
    Reclassifies width path n
      (Prod.map wrap id (viewOr kind fallback (Json.fill layers y) mediaType))
      (Prod.map wrap id (viewOr kind fallback (Json.fill layers (.number x)) mediaType)) where
  kind := kinds _ _
  mediaType := (labels _).trans (labels y).symm
  reduced misfit := by
    obtain ⟨cause, same⟩ : ∃ cause, viewOr kind fallback _ mediaType =
        (fallback mediaType, [.manifestReduced kind cause]) :=
      viewOr_misfit within proper writes held misfit
    rw [same]
    exact ⟨only _ (labels y), kind, cause, rfl⟩
  whole fits whole := by
    obtain ⟨a, same, integer⟩ := viewOr_fits within proper writes held fits there whole
    rw [same]
    exact ⟨rfl, (congrArg (Json.follow? path) (jsons a)).trans integer⟩

end Views

section Replaced

variable {layers : List Json.Layer} {path : List Step} {width : Width} {numeral : Numeral} {n : Int}
  (writes : numeral.Writes n) {x : Number} (held : numberOf numeral = .ok x)
  {earlier later : List (String × Json)} {name : String}
  (found : (Json.Layer.member earlier name later).Found) {y : Json} (there : y ≠ .null)
  {v w : Value} (before : v.json = (Json.Layer.member earlier name later).fill (Json.fill layers y))
  (after : w.json = (Json.Layer.member earlier name later).fill (Json.fill layers (.number x)))
  {log : List Event}

include writes held found there before after

theorem classify_integer_image {manifest : ImageManifest} (wraps : name = "image")
    (within : Shape.Reaches (shape ImageManifest) layers path (.int width))
    (classified : classify v = .ok (.image manifest, log)) :
    ∃ new, classify w = .ok new ∧ Reclassifies width path n (.image manifest, log) new := by
  subst wraps
  obtain ⟨mediaType, accepted, labels⟩ := (classify_image_iff v).mp ⟨_, _, classified⟩
  obtain ⟨nested, here, label⟩ := (labels_iff v.canonical).mp labels
  cases classified.symm.trans (classify_image here label accepted)
  rw [before, Json.Layer.get?_fill found] at here
  cases here
  have here' : w.json.get? "image" = some (Json.fill layers (.number x)) := by
    rw [after, Json.Layer.get?_fill found]
  have label' (z : Json) := (within.get?_mediaType z y).trans label
  refine ⟨_, classify_image here' (label' _) accepted, ?_⟩
  refine reclassifies within (by decide) writes held .image there (fun _ _ => rfl) (fun _ => rfl)
    (fun z => viewOr_image (label' z)) fun a known => ?_
  simp only [mediaType?] at known
  simp only [labelOnly, known]
  rfl

theorem classify_integer_index {index : ImageIndex} (wraps : name = "index")
    (within : Shape.Reaches (shape ImageIndex) layers path (.int width))
    (classified : classify v = .ok (.index index, log)) :
    ∃ new, classify w = .ok new ∧ Reclassifies width path n (.index index, log) new := by
  subst wraps
  obtain ⟨noImage, mediaType, accepted, labels⟩ := (classify_index_iff v).mp ⟨_, _, classified⟩
  obtain ⟨nested, here, label⟩ := (labels_iff v.canonical).mp labels
  cases classified.symm.trans (classify_index noImage here label accepted)
  rw [before, Json.Layer.get?_fill found] at here
  cases here
  have here' : w.json.get? "index" = some (Json.fill layers (.number x)) := by
    rw [after, Json.Layer.get?_fill found]
  have label' (z : Json) := (within.get?_mediaType z y).trans label
  have noImage' : ¬ HasImage w.json := by
    rintro ⟨mediaType, accepted, labels⟩
    obtain ⟨nested, there, label⟩ := (labels_iff w.canonical).mp labels
    rw [after, Json.Layer.get?_fill_other (by decide) _ (Json.fill layers y), ← before] at there
    exact noImage ⟨mediaType, accepted, (labels_iff v.canonical).mpr ⟨nested, there, label⟩⟩
  refine ⟨_, classify_index noImage' here' (label' _) accepted, ?_⟩
  refine reclassifies within (by decide) writes held .index there (fun _ _ => rfl) (fun _ => rfl)
    (fun z => viewOr_index (label' z)) fun a known => ?_
  simp only [mediaType?] at known
  simp only [labelOnly, known]
  rfl

end Replaced

/-! The text of a reply with an integer in it -/

theorem shape_of_image {s : Shape} (wrapper : ("image", s) ∈ wrappers) :
    s = shape ImageManifest := by
  rcases List.mem_cons.mp wrapper with same | other
  · exact (Prod.mk.inj same).2
  · exact absurd (Prod.mk.inj (List.mem_singleton.mp other)).1 (by decide)

theorem shape_of_index {s : Shape} (wrapper : ("index", s) ∈ wrappers) : s = shape ImageIndex := by
  rcases List.mem_cons.mp wrapper with same | other
  · exact absurd (Prod.mk.inj same).1 (by decide)
  · exact (Prod.mk.inj (List.mem_singleton.mp other)).2

theorem classifyReply_ok_iff {reply : Bytes} {found : OciManifestResponse × List Event} :
    classifyReply reply = .ok found ↔ ∃ v, decode reply = .ok v ∧ classify v = .ok found := by
  unfold classifyReply
  cases (decode reply : Except Error Value) with
  | ok v =>
    constructor
    · intro classified
      exact ⟨v, rfl, classified⟩
    · rintro ⟨_, ⟨⟩, classified⟩
      exact classified
  | error e => exact ⟨nofun, fun ⟨_, decoded, _⟩ => nomatch decoded⟩

section Replies

variable (before after : List Blank) {numeral : Numeral} {n : Int}

/-- With an integer that is held, a reply is still classified by its media type. -/
theorem classifyReply_integer {s : Shape} {f : Layer} {place : List Layer} {path steps : List Step}
    {width : Width} {d : Spelling} {response : OciManifestResponse} {log : List Event}
    (leads : Shape.Leads s place path (.int width)) (writes : numeral.Writes n)
    (held : numeral.Held) (wrapper : (response.kind, s) ∈ wrappers)
    (way : Way (f :: place) (.member response.kind :: steps)) (there : d ≠ .null)
    (classified :
      classifyReply (document before (fill (f :: place) d) after) = .ok (response, log)) :
    ∃ new, classifyReply (document before (fill (f :: place) (.number numeral)) after) = .ok new ∧
      Reclassifies width path n (response, log) new := by
  obtain ⟨x, held⟩ := held_iff.mp held
  obtain ⟨v, decoded, known⟩ := classifyReply_ok_iff.mp classified
  cases way.carries before after with
  | shut never => exact absurd decoded (never d v)
  | put inner put reads layers same found filled =>
    obtain ⟨y, read, rfl⟩ := (reads d v).mp decoded
    have decoded' := (reads (.number numeral) _).mpr ⟨_, read_number_iff.mpr ⟨x, held, rfl⟩, rfl⟩
    obtain ⟨outer, layers, rfl, step, others⟩ := List.map_eq_cons_iff.mp same
    have first := (List.forall_mem_cons.mp found).1
    have there := read_ne_null there read
    cases way with
    | member named last way =>
      have within := leads.reaches way others
      cases outer with
      | item => exact nomatch step
      | member earlier name later =>
        have wraps := Step.member.inj step
        suffices reclassified : ∃ new, classify (put (.number x)) = .ok new ∧
            Reclassifies width path n (response, log) new by
          obtain ⟨new, classified', same⟩ := reclassified
          exact ⟨new, classifyReply_ok_iff.mpr ⟨_, decoded', classified'⟩, same⟩
        cases response with
        | image manifest =>
          obtain rfl := shape_of_image wrapper
          exact classify_integer_image writes held first there (filled y) (filled _) wraps within
            known
        | index index =>
          obtain rfl := shape_of_index wrapper
          exact classify_integer_index writes held first there (filled y) (filled _) wraps within
            known

/-- With an integer that is not held, a reply is neither a manifest nor an index. -/
theorem classifyReply_not_held (unheld : ¬ numeral.Held) (place : List Layer) :
    classifyReply (document before (fill place (.number numeral)) after) = .error rejected := by
  unfold classifyReply
  cases decoded : (decode _ : Except Error Value) with
  | ok v => exact absurd decoded (not_decoded_of_not_held unheld place before after v)
  | error e => rfl

end Replies

end OciManifestResponse

end AdmissionGuest
