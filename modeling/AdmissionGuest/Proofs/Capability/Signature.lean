import AdmissionGuest.Proofs.Capability.Tag
import AdmissionGuest.Proofs.Shape.Skipped
/-!
A request to verify an image is read back from its text. Its members may stand in any order and
beside any others, for no other member has the name of the tag, and the others are viewed as the
mode of the tag has them. A text that breaks off is no such request.
-/

namespace AdmissionGuest

open Scan Ascii

namespace VerifyMode

theorem proper (mode : VerifyMode) : mode.shape.Proper := by
  cases mode <;> decide

theorem plain (mode : VerifyMode) : mode.shape.plain = true := by
  cases mode <;> rfl

theorem shallow (mode : VerifyMode) : mode.fields.extent ≤ 2 := by
  cases mode <;> decide

theorem tagName_not_mem (mode : VerifyMode) : VerifyRequest.tagName ∉ mode.fields.names := by
  cases mode <;> decide

/-- A member with a foreign name belongs to no field. -/
theorem find?_eq_none {mode : VerifyMode} {name : String} (foreign : name ∉ mode.fields.names) :
    mode.fields.find? name = none := by
  cases mode <;> simp_all [fields, Fields.names, Fields.find?, Field.answersTo]

end VerifyMode

namespace VerifyRequest

variable (r : VerifyRequest)

theorem carries {P : Json → Prop} : r.mode.fields.Carries P r.toVal :=
  r.mode.fields.carries_of_plain r.mode.plain r.toVal

theorem members_inherit {P : Json → Prop} (inherited : Json.Inherited P) :
    ∀ m ∈ r.mode.fields.members r.toVal, P m.2 :=
  r.mode.fields.members_inherit inherited r.toVal r.carries

theorem json_inherits {P : Json → Prop} (inherited : Json.Inherited P) : P r.json :=
  inherited.object _ (List.forall_mem_cons.mpr ⟨inherited.text _, r.members_inherit inherited⟩)

theorem height_members : Json.heightMembers (r.mode.fields.members r.toVal) ≤ 2 := by
  have shallow := r.mode.shallow
  have height := r.mode.fields.height_members r.toVal (d := 0) r.carries
  exact Json.heightMembers_le_iff.mpr fun m member => (height m member).trans shallow

theorem shallow_of_mem {own : List (String × Json)} (encoded : r.json = .object own) :
    ∀ m ∈ own, m.2.Whole ∧ m.2.height < Json.nestingLimit := by
  cases encoded
  have limit : 2 < Json.nestingLimit := by decide
  refine List.forall_mem_cons.mpr ⟨⟨trivial, Nat.zero_lt_of_lt limit⟩, fun m here => ?_⟩
  have height := Json.heightMembers_le_iff.mp r.height_members m here
  exact ⟨r.members_inherit Json.whole_inherited m here, height.trans_lt limit⟩

theorem height_json : r.json.height ≤ Json.nestingLimit := by
  have height := r.height_members
  have limit : 3 ≤ Json.nestingLimit := by decide
  simp only [json, Json.height, Json.heightMembers]
  omega

theorem view_members (kept : Kept) :
    r.mode.shape.view kept (.object (r.mode.fields.members r.toVal)) = .ok r.toVal :=
  (r.mode.shape.view_json kept r.toVal r.mode.proper).trans
    (congrArg Except.ok (r.mode.shape.settle_of_plain r.mode.plain r.toVal))

/-- Members with other names are of no matter, and neither is the order. -/
theorem view_of_perm {r : VerifyRequest} {more others : List (String × Json)}
    (foreign : ∀ m ∈ more, m.1 ∉ r.mode.fields.names)
    (perm : others.Perm (r.mode.fields.members r.toVal ++ more)) :
    r.mode.shape.view .inBuffer (.object others) = .ok r.toVal := by
  have own := (Fields.takes_iff_yields _).mp (view_object_iff.mp (r.view_members .inBuffer))
  have unknown : ∀ m ∈ more, r.mode.fields.find? m.1 = none :=
    fun m here => VerifyMode.find?_eq_none (foreign m here)
  refine view_object_iff.mpr ((Fields.takes_iff_yields _).mpr ?_)
  exact ((Fields.yields_foreign unknown).mpr own).perm (List.perm_append_comm.trans perm.symm)

/-- A text is decoded to a request if it has the members of the request in any order, the tag
wherever it stands, beside any others. -/
theorem decode_of_perm {r : VerifyRequest} {bytes : Bytes} {own more all : List (String × Json)}
    (encoded : r.json = .object own)
    (foreign : ∀ m ∈ more, m.1 ≠ tagName ∧ m.1 ∉ r.mode.fields.names)
    (perm : all.Perm (own ++ more))
    (document : (Json.read Json.nestingLimit).whole bytes = .ok (.object all)) :
    decode bytes = .ok r := by
  cases encoded
  obtain ⟨before, after, rfl⟩ := List.append_of_mem (perm.mem_iff.mpr List.mem_cons_self)
  have perm : (before ++ after).Perm (r.mode.fields.members r.toVal ++ more) :=
    (List.perm_middle.symm.trans perm).cons_inv
  have others : ∀ m ∈ before ++ after, m.1 ≠ tagName := by
    intro m here
    rcases List.mem_append.mp (perm.mem_iff.mp here) with own | more
    · exact fun same => r.mode.tagName_not_mem (same ▸ Fields.names_of_members own)
    · exact (foreign m more).1
  exact decode_iff.mpr ⟨_, _, document, .object ⟨before, after, rfl, rfl, others⟩,
    view_of_perm (fun m here => (foreign m here).2) perm⟩

/-- What is sent is what arrives. -/
theorem decode_json : decode r.json.write = .ok r := by
  have none : ∀ m ∈ ([] : List (String × Json)), m.1 ≠ tagName ∧ m.1 ∉ r.mode.fields.names := nofun
  refine decode_of_perm rfl none ?_
    (whole_document (r.json_inherits Json.whole_inherited) r.height_json)
  rw [List.append_nil]

/-- Without a tag, or with one that names no mode, nothing is decoded. -/
theorem not_decoded_of_untagged {bytes : Bytes} {all : List (String × Json)}
    (document : (Json.read Json.nestingLimit).whole bytes = .ok (.object all))
    (untagged : (∀ m ∈ all, m.1 ≠ tagName) ∨
      ∃ m ∈ all, m.1 = tagName ∧ ∀ mode : VerifyMode, m.2 ≠ .text mode.tag) :
    decode bytes ≠ .ok r := by
  intro decoded
  obtain ⟨j, left, same, tagged, _⟩ := decode_iff.mp decoded
  cases document.symm.trans same
  cases tagged with
  | object tags =>
    obtain ⟨before, after, rfl, rfl, others⟩ := tags
    simp only [List.perm_middle.mem_iff, List.mem_cons] at untagged
    rcases untagged with missing | ⟨m, rfl | other, named, wrong⟩
    · exact missing _ (.inl rfl) rfl
    · exact wrong r.mode rfl
    · exact others m other named

/-- The members of a request decode to it in every order, wherever among them the tag stands, and
beside any others; these may even be members of another mode. Where no tag is, or one that names no
mode, or no document at all, decoding fails. -/
theorem tag_decides :
    (∀ (r : VerifyRequest) (own more all : List (String × Json)), r.json = .object own →
      (∀ m ∈ more, m.1 ≠ tagName ∧ m.1 ∉ r.mode.fields.names) → all.Perm (own ++ more) →
      ((∀ m ∈ more, m.2.Whole ∧ m.2.height < Json.nestingLimit) →
        decode (Json.object all).write = .ok r) ∧
      ∀ bytes, (Json.read Json.nestingLimit).whole bytes = .ok (.object all) →
        decode bytes = .ok r) ∧
    (∀ bytes all, (Json.read Json.nestingLimit).whole bytes = .ok (.object all) →
      ((∀ m ∈ all, m.1 ≠ tagName) ∨
        ∃ m ∈ all, m.1 = tagName ∧ ∀ mode : VerifyMode, m.2 ≠ .text mode.tag) →
      ∃ e, (decode bytes : Except Error VerifyRequest) = .error e) ∧
    ∀ bytes, (∀ j, (Json.read Json.nestingLimit).whole bytes ≠ .ok j) →
      ∃ e, (decode bytes : Except Error VerifyRequest) = .error e := by
  refine ⟨fun r own more all encoded foreign perm => ⟨fun shallow => ?_, fun bytes document => ?_⟩,
    fun bytes all document untagged => ?_, fun bytes none => ?_⟩
  · have each : ∀ m ∈ all, m.2.Whole ∧ m.2.height < Json.nestingLimit := by
      intro m here
      rcases List.mem_append.mp (perm.mem_iff.mp here) with member | other
      · exact r.shallow_of_mem encoded m member
      · exact shallow m other
    have whole : (Json.object all).Whole := Json.wholeMembers_iff.mpr fun m here => (each m here).1
    have heights : Json.heightMembers all ≤ Json.nestingLimit - 1 :=
      Json.heightMembers_le_iff.mpr fun m here => Nat.le_pred_of_lt (each m here).2
    have fits : (Json.object all).height ≤ Json.nestingLimit :=
      Nat.add_le_of_le_sub (by decide) heights
    exact decode_of_perm encoded foreign perm (whole_document whole fits)
  · exact decode_of_perm encoded foreign perm document
  · exact error_of_not_decoded fun r => r.not_decoded_of_untagged document untagged
  · refine error_of_not_decoded fun r decoded => ?_
    obtain ⟨j, _, document, _⟩ := decode_iff.mp decoded
    exact none j document

def sample : VerifyRequest := .pubKeys "app" ["key"] none

def sampleOwn : List (String × Json) :=
  [("type", .text "SigstorePubKeyVerify"), ("image", .text "app"),
    ("pub_keys", .list [.text "key"])]

/-- Members that requests of other modes have. -/
def sampleForeign : List (String × Json) :=
  [("owner", .text "org"), ("keyless", .list [.object [("issuer", .null)]]),
    ("owner", .number (.int 7))]

/-- The members of both, with the tag last. -/
def sampleAll : List (String × Json) :=
  [("owner", .number (.int 7)), ("keyless", .list [.object [("issuer", .null)]]),
    ("owner", .text "org"), ("pub_keys", .list [.text "key"]), ("image", .text "app"),
    ("type", .text "SigstorePubKeyVerify")]

def sampleUnknown : List (String × Json) := [("image", .text "app"), ("type", .text "Sigstore")]

theorem tag_decides_sample :
    decode (Json.object sampleAll).write = .ok sample ∧
      (∃ e, (decode (Json.object sampleUnknown).write : Except Error VerifyRequest) = .error e) ∧
      ∃ e, (decode [] : Except Error VerifyRequest) = .error e := by
  obtain ⟨decodes, refuses, unread⟩ := tag_decides
  refine ⟨?_, ?_, unread [] nofun⟩
  · have foreign : ∀ m ∈ sampleForeign, m.1 ≠ tagName ∧ m.1 ∉ sample.mode.fields.names := by
      decide
    have perm : sampleAll.Perm (sampleOwn ++ sampleForeign) :=
      List.reverse_perm (sampleOwn ++ sampleForeign)
    refine (decodes sample sampleOwn sampleForeign sampleAll rfl foreign perm).1 ?_
    intro m here
    have whole : Json.WholeMembers sampleForeign :=
      ⟨trivial, ⟨⟨trivial, trivial⟩, trivial⟩, ⟨by decide, by decide⟩, trivial⟩
    have heights : Json.heightMembers sampleForeign < Json.nestingLimit := by decide
    exact ⟨Json.wholeMembers_iff.mp whole m here,
      (Json.heightMembers_le_iff.mp (Nat.le_refl _) m here).trans_lt heights⟩
  · have whole : (Json.object sampleUnknown).Whole := ⟨trivial, trivial, trivial⟩
    have wrong (mode : VerifyMode) : Json.text "Sigstore" ≠ .text mode.tag := by
      intro same
      cases mode <;> exact absurd (Json.text.inj same) (by decide)
    exact refuses _ sampleUnknown (whole_document whole (by decide))
      (.inr ⟨_, .tail _ (.head _), rfl, wrong⟩)

def annotations : VerifyRequest → Option (Dict String String)
  | pubKeys _ _ annotations => annotations
  | keyless _ _ annotations => annotations
  | keylessPrefix _ _ annotations => annotations
  | githubActions _ _ _ annotations => annotations

/-- The repository that a request asks for; only one mode has any. -/
def repo : VerifyRequest → Option String
  | githubActions _ _ repo _ => repo
  | _ => none

theorem isSome_get? {s : Shape} {name : String} {x : Option s.Val} (other : name ≠ tagName)
    (gives : r.mode.fields.Gives s name x r.toVal) : (r.json.get? name).isSome = x.isSome := by
  have found : r.json.get? name = (r.mode.shape.json r.toVal).get? name := by
    change (List.find? (fun m => m.1 == name) (_ :: r.mode.fields.members r.toVal)).map _ = _
    rw [List.find?_cons_of_neg (by simpa using other.symm)]
    rfl
  rw [found]
  exact Shape.isSome_get?_json r.mode.proper gives

theorem isSome_annotations : (r.json.get? "annotations").isSome = r.annotations.isSome := by
  have gives : r.mode.fields.Gives (.dict .text) "annotations" r.annotations r.toVal := by
    cases r with
    | pubKeys | keyless | keylessPrefix => exact .there (.there (.here rfl))
    | githubActions => exact .there (.there (.there (.here rfl)))
  exact r.isSome_get? (by decide) gives

theorem isSome_repo : (r.json.get? "repo").isSome = r.repo.isSome := by
  cases r with
  | githubActions image owner repo annotations =>
    have gives : VerifyMode.githubActions.fields.Gives .text "repo" repo
        (VerifyRequest.githubActions image owner repo annotations).toVal :=
      .there (.there (.here rfl))
    exact isSome_get? (.githubActions image owner repo annotations) (by decide) gives
  | pubKeys _ _ annotations | keyless _ _ annotations | keylessPrefix _ _ annotations =>
    cases annotations <;> rfl

/-! Skipping -/

open Skip

variable {depth : Nat}

theorem skippable_readTag : Skippable readTag := by
  intro bytes rest mode read frames
  obtain ⟨⟨tag, left⟩, text, read⟩ := ok_of_bind read
  obtain ⟨tail, visible, body⟩ := Shape.text_of_read text
  dsimp only at read
  split at read
  next =>
    cases read
    exact skips_text visible body
  next => exact nomatch read

theorem readMember_skips {name : String}
    {state state' : Option VerifyMode × List (String × Json)} {bytes rest : Bytes}
    (read : readMember depth name state bytes = .ok (state', rest)) : SkipsMember bytes rest := by
  match state with
  | (some mode, members) =>
    by_cases tag : name = tagName
    · rw [readMember, if_pos tag] at read
      exact absurd read not_faultOver
    · rw [readMember, if_neg tag] at read
      obtain ⟨⟨⟨⟩, value⟩, separated, read⟩ := ok_of_bind read
      obtain ⟨⟨j, _⟩, here, read⟩ := ok_of_bind read
      cases read
      exact skipsMember_of_colon (Skip.skippable_read depth) separated here
  | (none, members) =>
    obtain ⟨⟨⟨⟩, value⟩, separated, read⟩ := ok_of_bind read
    dsimp only at read
    split at read
    next =>
      obtain ⟨⟨mode, _⟩, here, read⟩ := ok_of_bind read
      cases read
      exact skipsMember_of_colon skippable_readTag separated here
    next =>
      obtain ⟨⟨j, _⟩, here, read⟩ := ok_of_bind read
      cases read
      exact skipsMember_of_colon (Skip.skippable_read depth) separated here

theorem skippable_readParts (depth : Nat) : Skippable (readParts depth) := by
  intro bytes rest parts read frames
  unfold readParts at read
  split at read
  next => cases read
  next b tail visible =>
    split at read
    next opened =>
      subst opened
      obtain ⟨d, _, read⟩ := Shape.inner_of_entering read
      obtain ⟨⟨⟨mode?, members⟩, left⟩, body, read⟩ := ok_of_bind read
      dsimp only at read
      split at read
      next =>
        cases read
        exact leaves_objectBody (fun _ _ _ _ _ => readMember_skips) body bytes visible
      next => cases read
    split at read
    next opened =>
      subst opened
      obtain ⟨d, _, read⟩ := Shape.inner_of_entering read
      obtain ⟨⟨more, next⟩, moved, read⟩ := ok_of_bind read
      dsimp only at read
      split at read
      next some =>
        subst some
        obtain ⟨⟨mode, left⟩, tag, read⟩ := ok_of_bind read
        obtain ⟨⟨xs, _⟩, others, read⟩ := ok_of_bind read
        cases read
        exact Leaves.item (nextItem_inv moved) (skippable_readTag tag _)
          (leaves_restOfList (Skip.skippable_read d) others) bytes visible
      next => exact absurd read not_faultOver
    next => exact absurd read Shape.not_mismatch

theorem skippable_read : Skippable VerifyRequest.read := by
  intro bytes rest request read frames
  obtain ⟨⟨⟨mode, j⟩, left⟩, parts, read⟩ := ok_of_bind read
  dsimp only at read
  split at read
  next =>
    cases read
    exact skippable_readParts _ parts frames
  next => exact nomatch read

end VerifyRequest

end AdmissionGuest
