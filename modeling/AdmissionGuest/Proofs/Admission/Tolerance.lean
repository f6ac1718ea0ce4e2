import AdmissionGuest.Admission.Request
import AdmissionGuest.Proofs.Document
import AdmissionGuest.Proofs.Json.Spelling.Complete
import AdmissionGuest.Proofs.Shape.Edit
import AdmissionGuest.Proofs.Shape.Skipped
/-!
Which documents decode to the same request: those that differ in the order of members, in members
that nobody asked for, and in optional members that are null or absent. The objects of a request are
the envelope, the request in it, and the kinds, the resources and the user inside the request.
Documents are compared as they are spelled; every text that decodes is spelled in some way.
-/

namespace AdmissionGuest

open Scan Spelling

/-- The text of a spelled document with blanks around it. -/
def Spelling.document (before : List Blank) (d : Spelling) (after : List Blank) : Bytes :=
  blanks before ++ (d.bytes ++ blanks after)

section Documents

theorem stops_after (after : List Blank) : Stops (blanks after) :=
  List.append_nil (blanks after) ▸ stops_blanks after .nil

/-- A document is decoded to what its reader makes of it. -/
theorem decode_iff_of_follows {α : Type} [Named α] [OfDocument α] {before after : List Blank}
    {d : Spelling} {view : Except Cause α}
    (follows : Follows (OfDocument.read (document before d after)) view (blanks after)) {a : α} :
    decode (document before d after) = .ok a ↔ view = .ok a := by
  have ended : Ascii.skipBlanks (blanks after) = [] := by
    rw [← List.append_nil (blanks after), skipBlanks_blanks]
    rfl
  rw [decode_iff_read]
  constructor
  · rintro ⟨rest, read, _⟩
    exact (follows.ok_iff.mp read).1
  · intro viewed
    exact ⟨_, follows.ok_iff.mpr ⟨viewed, rfl⟩, ended⟩

variable {α : Type} [Named α] [Shaped α]

/-- A spelled document is decoded to what its shape makes of it. -/
theorem decode_document_iff (before : List Blank) (d : Spelling) (after : List Blank) (a : α) :
    decode (document before d after) = .ok a ↔
      ((Shaped.shape α).read Json.nestingLimit).on d = .ok (Shaped.toVal a) := by
  have found := (Shaped.shape α).read_uniform Json.nestingLimit d before (blanks after)
    (stops_after after)
  refine (decode_iff_of_follows (found.map Shaped.ofVal)).trans ?_
  cases ((Shaped.shape α).read Json.nestingLimit).on d with
  | error cause => exact ⟨nofun, nofun⟩
  | ok v =>
    constructor
    · rintro ⟨⟩
      rw [Shaped.toVal_ofVal]
    · rintro ⟨⟩
      exact congrArg Except.ok (Shaped.ofVal_toVal a)

/-- Every text that decodes is a spelled document with blanks around it. -/
theorem document_of_decode {text : String} {a : α} (decoded : decode (Utf8.encode text) = .ok a) :
    ∃ before d after, Utf8.encode text = document before d after := by
  obtain ⟨rest, read, ended⟩ := decode_iff_read.mp decoded
  have skippable := ((Shaped.shape α).skippable Json.nestingLimit).map (Shaped.ofVal (α := α))
  obtain ⟨before, d, same⟩ := exists_spelling (skippable read []) (Utf8.wellFormed_encode text)
  obtain ⟨after, blank⟩ := exists_blanks ended
  refine ⟨before, d, after, ?_⟩
  rw [same, blank, List.append_nil]
  rfl

/-- Edits change nothing of what is decoded, in any number and order. -/
theorem decode_of_edits {d d' : Spelling}
    (edits : Relation.ReflTransGen (Edit (Shaped.shape α)) d d') (before after : List Blank)
    (a : α) :
    decode (document before d after) = .ok a ↔ decode (document before d' after) = .ok a := by
  induction edits with
  | refl => exact Iff.rfl
  | tail _ edit ih =>
    refine ih.trans ?_
    rw [decode_document_iff, decode_document_iff]
    exact edit.alike Json.nestingLimit (Shaped.toVal a)

theorem decode_of_repeats {d : Spelling} (repeats : Repeats (Shaped.shape α) d)
    (before after : List Blank) :
    ∃ e, (decode (document before d after) : Except Error α) = .error e :=
  error_of_not_decoded fun a decoded =>
    repeats.unread _ _ ((decode_document_iff before d after a).mp decoded)

end Documents

namespace ValidationRequest

open Shaped

/-- Every text that decodes is a spelled document, and what it decodes to does not depend on the
order of the members of the envelope, the request, its kinds and resources and its user, nor on
members with names that the object does not know, whatever they hold, nor on whether an optional
member is absent or null; this for all these differences at once and in every number. But a member
that is repeated in one of these objects makes decoding fail. -/
theorem edits_unseen (S : Type) [Shaped S] [Named (ValidationRequest S)] :
    (∀ (text : String) (r : ValidationRequest S), decode (Utf8.encode text) = .ok r →
      ∃ before d after, Utf8.encode text = document before d after) ∧
    ∀ (before : List Blank) (d : Spelling) (after : List Blank),
      (∀ d', Relation.ReflTransGen (Edit (shape (ValidationRequest S))) d d' →
        ∀ r : ValidationRequest S, decode (document before d after) = .ok r ↔
          decode (document before d' after) = .ok r) ∧
      (Repeats (shape (ValidationRequest S)) d →
        ∃ e, (decode (document before d after) : Except Error (ValidationRequest S)) =
          .error e) :=
  ⟨fun _ _ decoded => document_of_decode decoded, fun before _ after =>
    ⟨fun _ edits r => decode_of_edits edits before after r,
      fun repeats => decode_of_repeats repeats before after⟩⟩

/-! An envelope that is edited in all its objects -/

def sampleMember (name : String) (value : Spelling) : Member Spelling :=
  { name := marks name, value }

def sampleText (name text : String) : Member Spelling := sampleMember name (.text (marks text))

/-- Half of a surrogate pair inside so many lists: nothing that could be read. -/
def hostile : Nat → Spelling
  | 0 => .text [.code (.ofNat 0xD800)]
  | n + 1 => .list [] [{ value := hostile n }]

/-- A request with these kinds, resources and user. -/
def sampleRequest (kind resource requestKind requestResource userInfo : List (Member Spelling))
    (more : List (Member Spelling)) : Spelling :=
  .object [.lineFeed] <|
    [sampleText "uid" "42", sampleMember "kind" (.object [] kind),
      sampleMember "resource" (.object [] resource), sampleText "operation" "CREATE",
      sampleMember "requestKind" (.object [] requestKind),
      sampleMember "requestResource" (.object [] requestResource),
      sampleMember "userInfo" (.object [] userInfo)] ++ more

def sampleEnvelope (request : Spelling) (more : List (Member Spelling)) : Spelling :=
  .object [] (sampleMember "request" request :: sampleMember "settings" .null :: more)

def samplePods : List (Member Spelling) := [sampleText "version" "v1", sampleText "kind" "Pod"]

def sampleResources : List (Member Spelling) :=
  [sampleText "version" "v1", sampleText "resource" "pods"]

def sample : Spelling :=
  sampleEnvelope (sampleRequest samplePods sampleResources samplePods sampleResources [] []) []

def sampleValue : ValidationRequest Value where
  request :=
    { uid := "42", kind := ⟨"", "v1", "Pod"⟩, resource := ⟨"", "v1", "pods"⟩, subResource := none
      requestKind := some ⟨"", "v1", "Pod"⟩, requestResource := some ⟨"", "v1", "pods"⟩
      requestSubResource := none, name := none, inNamespace := none, operation := "CREATE"
      userInfo := ⟨none, none, none, none⟩, object := none, oldObject := none, dryRun := none
      options := none }
  settings := Value.null

/-- The sample with other orders, members nobody knows and nulls. -/
def sampleEdited : Spelling :=
  sampleEnvelope
    (sampleRequest samplePods.reverse (sampleMember "größe" (hostile 200) :: sampleResources)
      (samplePods ++ [sampleMember "Kind" (hostile 0)]) sampleResources.reverse
      [sampleMember "groups" .null] [sampleMember "dryRun" .null])
    [sampleMember "" (hostile 1)]

/-- The sample with a kind that has two versions. -/
def sampleRepeated : Spelling :=
  sampleEnvelope
    (sampleRequest (samplePods ++ [sampleText "version" "v2"]) sampleResources samplePods
      sampleResources [] []) []

theorem edit_request {request request' : Spelling}
    (edit : Edit (shape AdmissionRequest) request request') :
    Edit (shape (ValidationRequest Value)) (sampleEnvelope request [])
      (sampleEnvelope request' []) :=
  .member [] (sampleMember "request" request) _ (textOf_marks "request") rfl edit

/-- One edit after the other, from the innermost objects outwards. -/
theorem sample_edits :
    Relation.ReflTransGen (Edit (shape (ValidationRequest Value))) sample sampleEdited := by
  have kind : Edit (shape GroupVersionKind) (.object [] samplePods)
      (.object [] samplePods.reverse) := .order (List.reverse_perm _).symm
  have resource : Edit (shape GroupVersionResource) (.object [] sampleResources)
      (.object [] (sampleMember "größe" (hostile 200) :: sampleResources)) :=
    .unknown [] _ sampleResources (textOf_marks _) rfl
  have requestKind : Edit (shape GroupVersionKind) (.object [] (samplePods ++ []))
      (.object [] (samplePods ++ [sampleMember "Kind" (hostile 0)])) :=
    .unknown samplePods _ [] (textOf_marks _) rfl
  have requestResource : Edit (shape GroupVersionResource) (.object [] sampleResources)
      (.object [] sampleResources.reverse) := .order (List.reverse_perm _).symm
  have userInfo :
      Edit (shape UserInfo) (.object [] []) (.object [] [sampleMember "groups" .null]) :=
    .null [] _ [] (textOf_marks _) rfl rfl nofun rfl
  refine .head (edit_request (.member [_] (sampleMember "kind" _) _ (textOf_marks _) rfl kind)) ?_
  refine .head (edit_request (.member [_, _] (sampleMember "resource" _) _ (textOf_marks _) rfl
    resource)) ?_
  refine .head (edit_request (.member [_, _, _, _] (sampleMember "requestKind" _) _
    (textOf_marks _) rfl requestKind)) ?_
  refine .head (edit_request (.member [_, _, _, _, _] (sampleMember "requestResource" _) _
    (textOf_marks _) rfl requestResource)) ?_
  refine .head (edit_request (.member [_, _, _, _, _, _] (sampleMember "userInfo" _) _
    (textOf_marks _) rfl userInfo)) ?_
  refine .head (edit_request (.null [_, _, _, _, _, _, _] (sampleMember "dryRun" .null) []
    (textOf_marks _) rfl rfl ?_ rfl)) ?_
  · intro o here other named
    have other_of {name : String} (spelled : o.name = marks name) : other = name := by
      rw [spelled, textOf_marks] at named
      exact (Except.ok.inj named).symm
    simp only [List.append_nil, List.mem_cons, List.not_mem_nil, or_false] at here
    rcases here with rfl | rfl | rfl | rfl | rfl | rfl | rfl <;> rw [other_of rfl] <;> rfl
  · exact .single (.unknown [_, _] (sampleMember "" (hostile 1)) [] (textOf_marks _) rfl)

theorem sample_repeats : Repeats (shape (ValidationRequest Value)) sampleRepeated := by
  have versions : [sampleText "version" "v1", sampleText "version" "v2"].Sublist
      (samplePods ++ [sampleText "version" "v2"]) := by
    refine .cons_cons _ (.cons _ ?_)
    exact .refl _
  have kind : Repeats (shape GroupVersionKind)
      (.object [] (samplePods ++ [sampleText "version" "v2"])) :=
    .here versions (textOf_marks "version") (textOf_marks "version") rfl rfl
  have request : Repeats (shape AdmissionRequest)
      (sampleRequest (samplePods ++ [sampleText "version" "v2"]) sampleResources samplePods
        sampleResources [] []) :=
    .member (.tail _ (.head _)) (textOf_marks "kind") rfl kind
  exact .member (.head _) (textOf_marks "request") rfl request

/-- The text of the sample; all of it is ASCII. -/
def sampleWritten : String := String.ofList (sample.bytes.map fun b => Char.ofNat b.toNat)

theorem edits_unseen_sample :
    (∃ before d after, Utf8.encode sampleWritten = document before d after) ∧
      decode (document [] sampleEdited []) = .ok sampleValue ∧
      ∃ e, (decode (document [] sampleRepeated []) : Except Error (ValidationRequest Value)) =
        .error e := by
  obtain ⟨spelled, unseen⟩ := edits_unseen Value
  have written : Utf8.encode sampleWritten = document [] sample [] := by
    rw [Utf8.encode, sampleWritten, String.toList_ofList]
    decide +kernel
  refine ⟨spelled sampleWritten sampleValue ?_, ?_, (unseen [] sampleRepeated []).2 sample_repeats⟩
  · rw [written]
    rfl
  · exact ((unseen [] sample []).1 sampleEdited sample_edits sampleValue).mp rfl

end ValidationRequest

end AdmissionGuest
