import AdmissionGuest.Capability.Signature
import AdmissionGuest.Proofs.Document
import AdmissionGuest.Proofs.Shape.Members
/-!
The mode of a request to verify an image is what its tag says, wherever the tag stands. A request is
read in one pass, but it comes to reading a document first, taking the tag out of it, and viewing
what is left; so every member but the tag waits until the mode is known.
-/

namespace AdmissionGuest

open Scan Ascii

namespace VerifyMode

theorem ofTag?_tag (mode : VerifyMode) : ofTag? mode.tag = some mode := by
  cases mode <;> rfl

theorem ofTag?_eq_some_iff {tag : String} {mode : VerifyMode} :
    ofTag? tag = some mode ↔ tag = mode.tag := by
  constructor
  · intro found
    have same := List.find?_some
      (show VerifyMode.all.find? (fun known => known.tag == tag) = some mode from found)
    exact (beq_iff_eq.mp same).symm
  · rintro rfl
    exact mode.ofTag?_tag

end VerifyMode

namespace VerifyRequest

variable {depth : Nat} {bytes rest : Bytes} {mode : VerifyMode}

/-! One member after the other -/

/-- The mode that a document names. -/
def tagOf : Json → Except Cause VerifyMode
  | .text tag => (VerifyMode.ofTag? tag).elim (.error .expectedValue) .ok
  | _ => .error .expectedValue

/-- What a member adds to the mode and the members known before it. -/
def step : Option VerifyMode × List (String × Json) → String × Json →
    Except Cause (Option VerifyMode × List (String × Json))
  | (some mode, kept), m =>
    if m.1 = tagName then .error (.repeatedMember tagName) else .ok (some mode, m :: kept)
  | (none, kept), m =>
    if m.1 = tagName then (fun mode => (some mode, kept)) <$> tagOf m.2 else .ok (none, m :: kept)

theorem tagOf_eq_ok_iff {x : Json} : tagOf x = .ok mode ↔ x = .text mode.tag := by
  constructor
  · intro named
    cases x with
    | text tag =>
      simp only [tagOf] at named
      cases found : VerifyMode.ofTag? tag with
      | none =>
        rw [found] at named
        exact nomatch named
      | some mode' =>
        rw [found] at named
        cases named
        rw [VerifyMode.ofTag?_eq_some_iff.mp found]
    | null | flag | number | list | object => exact nomatch named
  · rintro rfl
    rw [tagOf, mode.ofTag?_tag]
    rfl

theorem readTag_follows {x : Json} (read : Json.read depth bytes = .ok (x, rest)) :
    Follows (readTag bytes) (tagOf x) rest := by
  have text : Follows (Shape.readText "variant identifier" bytes) (Shape.text.view .asValue x)
      rest := Shape.readText_follows _ read
  cases x with
  | text tag =>
    have found := text.ok_iff.mpr ⟨rfl, rfl⟩
    simp only [readTag, found, tagOf, bind, Except.bind]
    cases VerifyMode.ofTag? tag with
    | none => exact .failed
    | some mode => exact .done
  | null | flag | number | list | object =>
    exact text.stuck

theorem document_of_readTag (depth : Nat) (read : readTag bytes = .ok (mode, rest)) :
    Json.read depth bytes = .ok (.text mode.tag, rest) := by
  obtain ⟨⟨tag, left⟩, text, read⟩ := ok_of_bind read
  obtain ⟨tail, visible, body⟩ := Shape.text_of_read text
  obtain ⟨inner, same⟩ := Json.read_eq_readValue depth
  dsimp only at read
  split at read
  next found =>
    cases read
    rw [← Json.read_skipBlanks, visible, same, Json.readValue_quote, body,
      VerifyMode.ofTag?_eq_some_iff.mp found]
    rfl
  next => exact nomatch read

/-- Reading a member comes to a step on it. -/
theorem readMember_tracks (depth : Nat) :
    Shape.TracksMembers (Json.read depth) (readMember depth) step := by
  intro name state bytes value rest x colon document
  have kept (mode? : Option VerifyMode) (members : List (String × Json)) :
      Follows ((do
          memberColon
          return (mode?, (name, ← Json.read depth) :: members) :
            Reader (Option VerifyMode × List (String × Json))) bytes)
        (.ok (mode?, (name, x) :: members)) rest := by
    change Follows (memberColon bytes >>= _) _ rest
    rw [colon]
    change Follows (Json.read depth value >>= _) _ rest
    rw [document]
    exact .done
  obtain ⟨mode?, members⟩ := state
  cases mode? with
  | some mode =>
    simp only [readMember, step]
    split
    next => exact faultOver_follows
    next => exact kept _ _
  | none =>
    by_cases tag : name = tagName
    · simp only [readMember, step, if_pos tag]
      change Follows (memberColon bytes >>= _) _ rest
      rw [colon]
      exact (readTag_follows document).map fun mode => (some mode, members)
    · simp only [readMember, step, if_neg tag]
      exact kept _ _

theorem readMember_kept (depth : Nat) (name : String)
    (state state' : Option VerifyMode × List (String × Json)) (bytes rest : Bytes)
    (read : readMember depth name state bytes = .ok (state', rest)) :
    ∃ value x, memberColon bytes = .ok ((), value) ∧ Json.read depth value = .ok (x, rest) := by
  have kept {f : Json → Option VerifyMode × List (String × Json)}
      (read : (do
          memberColon
          return f (← Json.read depth) :
            Reader (Option VerifyMode × List (String × Json))) bytes = .ok (state', rest)) :
      ∃ value x, memberColon bytes = .ok ((), value) ∧ Json.read depth value = .ok (x, rest) := by
    obtain ⟨⟨⟨⟩, value⟩, colon, read⟩ := ok_of_bind read
    obtain ⟨⟨x, _⟩, document, read⟩ := ok_of_bind read
    cases read
    exact ⟨value, x, colon, document⟩
  obtain ⟨mode?, members⟩ := state
  cases mode? with
  | some mode =>
    simp only [readMember] at read
    split at read
    next => exact absurd read not_faultOver
    next => exact kept read
  | none =>
    by_cases tag : name = tagName
    · simp only [readMember, if_pos tag] at read
      obtain ⟨⟨⟨⟩, value⟩, colon, read⟩ := ok_of_bind read
      obtain ⟨⟨mode, _⟩, named, read⟩ := ok_of_bind read
      cases read
      exact ⟨value, _, colon, document_of_readTag depth named⟩
    · simp only [readMember, if_neg tag] at read
      exact kept read

/-! All members, and all items -/

variable {ms kept kept' : List (String × Json)} {others : Json}

theorem foldlM_step_some {mode? : Option VerifyMode} :
    ms.foldlM step (some mode, kept) = .ok (mode?, kept') ↔
      mode? = some mode ∧ (∀ m ∈ ms, m.1 ≠ tagName) ∧ kept' = ms.reverse ++ kept := by
  induction ms generalizing kept with
  | nil =>
    constructor
    · rintro ⟨⟩
      exact ⟨rfl, nofun, rfl⟩
    · rintro ⟨rfl, _, rfl⟩
      rfl
  | cons m ms ih =>
    rw [List.foldlM_cons, step, List.forall_mem_cons]
    by_cases tag : m.1 = tagName
    · rw [if_pos tag]
      exact iff_of_false nofun fun same => same.2.1.1 tag
    · rw [if_neg tag, List.reverse_cons, List.append_assoc]
      refine ih.trans (and_congr_right fun _ => and_congr_left fun _ => ?_)
      exact ⟨fun others => ⟨tag, others⟩, And.right⟩

/-- Among these members the tag of a mode is the only one of its name; these are the others. -/
def Tags (mode : VerifyMode) (ms others : List (String × Json)) : Prop :=
  ∃ before after, ms = before ++ (tagName, .text mode.tag) :: after ∧ others = before ++ after ∧
    ∀ m ∈ others, m.1 ≠ tagName

theorem not_tags_nil {others : List (String × Json)} : ¬ Tags mode [] others := by
  rintro ⟨before, after, empty, _⟩
  cases before <;> exact nomatch empty

theorem tags_tag_iff {x : Json} {others : List (String × Json)} :
    Tags mode ((tagName, x) :: ms) others ↔
      x = .text mode.tag ∧ others = ms ∧ ∀ m ∈ ms, m.1 ≠ tagName := by
  constructor
  · rintro ⟨before, after, whole, rfl, different⟩
    cases before with
    | nil =>
      cases whole
      exact ⟨rfl, rfl, different⟩
    | cons first before =>
      cases whole
      exact absurd rfl (different _ List.mem_cons_self)
  · rintro ⟨rfl, rfl, different⟩
    exact ⟨[], others, rfl, rfl, different⟩

theorem tags_cons_iff {m : String × Json} (other : m.1 ≠ tagName)
    {others : List (String × Json)} :
    Tags mode (m :: ms) others ↔ ∃ later, Tags mode ms later ∧ others = m :: later := by
  constructor
  · rintro ⟨before, after, whole, rfl, different⟩
    cases before with
    | nil =>
      cases whole
      exact absurd rfl other
    | cons first before =>
      cases whole
      exact ⟨_, ⟨before, after, rfl, rfl, (List.forall_mem_cons.mp different).2⟩, rfl⟩
  · rintro ⟨_, ⟨before, after, rfl, rfl, different⟩, rfl⟩
    exact ⟨m :: before, after, rfl, rfl, List.forall_mem_cons.mpr ⟨other, different⟩⟩

/-- What is kept are the members beside the tag in their order. -/
theorem foldlM_step_none :
    ms.foldlM step (none, kept) = .ok (some mode, kept') ↔
      ∃ others, Tags mode ms others ∧ kept' = others.reverse ++ kept := by
  induction ms generalizing kept with
  | nil => exact iff_of_false nofun fun ⟨_, tags, _⟩ => not_tags_nil tags
  | cons m ms ih =>
    obtain ⟨name, x⟩ := m
    rw [List.foldlM_cons, step]
    by_cases tag : name = tagName
    · subst tag
      rw [if_pos rfl]
      constructor
      · intro run
        obtain ⟨state, named, run⟩ := ok_of_bind run
        cases found : tagOf x with
        | error cause =>
          rw [found] at named
          exact nomatch named
        | ok mode' =>
          rw [found] at named
          cases named
          obtain ⟨same, different, kept⟩ := foldlM_step_some.mp run
          cases same
          exact ⟨ms, tags_tag_iff.mpr ⟨tagOf_eq_ok_iff.mp found, rfl, different⟩, kept⟩
      · rintro ⟨others, tags, rfl⟩
        obtain ⟨rfl, rfl, different⟩ := tags_tag_iff.mp tags
        rw [tagOf_eq_ok_iff.mpr rfl]
        exact foldlM_step_some.mpr ⟨rfl, different, rfl⟩
    · rw [if_neg tag]
      refine ih.trans ?_
      constructor
      · rintro ⟨others, tags, rfl⟩
        refine ⟨(name, x) :: others, (tags_cons_iff tag).mpr ⟨others, tags, rfl⟩, ?_⟩
        rw [List.reverse_cons, List.append_assoc]
        rfl
      · rintro ⟨_, tags, rfl⟩
        obtain ⟨later, inner, rfl⟩ := (tags_cons_iff tag).mp tags
        rw [List.reverse_cons, List.append_assoc]
        exact ⟨later, inner, rfl⟩

/-- Reading the members of a request comes to reading the members of a document. -/
theorem objectBody_iff :
    objectBody (readMember depth) (none, []) bytes = .ok ((some mode, kept), rest) ↔
      ∃ ms others, objectBody (Json.keepMember (Json.read depth)) [] bytes =
          .ok (ms.reverse, rest) ∧ Tags mode ms others ∧ kept = others.reverse := by
  constructor
  · intro read
    obtain ⟨ms, document⟩ := objectBody_kept (readMember_kept depth) read
    have follows := Shape.objectBody_follows (s := (none, [])) (readMember_tracks depth) document
    obtain ⟨others, tags, same⟩ := foldlM_step_none.mp (follows.ok_iff.mp read).1
    rw [List.append_nil] at same
    refine ⟨ms.reverse, others, ?_, tags, same⟩
    rw [List.reverse_reverse]
    exact document
  · rintro ⟨ms, others, document, tags, rfl⟩
    have follows := Shape.objectBody_follows (s := (none, [])) (readMember_tracks depth) document
    refine follows.ok_iff.mpr ⟨?_, rfl⟩
    rw [List.reverse_reverse]
    exact foldlM_step_none.mpr ⟨others, tags, (List.append_nil _).symm⟩

/-- Reading the items of a request comes to reading the items of a document. -/
theorem listBody_iff {xs : List Json} :
    (∃ next left, nextItem true bytes = .ok (true, next) ∧ readTag next = .ok (mode, left) ∧
        restOfList false (Json.read depth) left = .ok (xs, rest)) ↔
      listBody (Json.read depth) bytes = .ok (.text mode.tag :: xs, rest) := by
  have skippable := Skip.skippable_read depth
  constructor
  · rintro ⟨next, left, moved, tag, others⟩
    have document := document_of_readTag depth tag
    obtain ⟨count, shorter, _⟩ := skippable document []
    have within := length_of_nextItem (nextItem_inv moved)
    obtain ⟨⟨xs, last⟩, later, closing⟩ := ok_of_bind others
    obtain ⟨⟨⟨⟩, _⟩, ended, closing⟩ := ok_of_bind closing
    cases closing
    have enough : left.length < bytes.length := by omega
    have later := Skip.items_of_enough skippable enough later
    have run : items (Json.read depth) (openList :: bytes) true bytes =
        .ok (.text mode.tag :: xs, last) := by
      simp only [items, moved, document, later, bind, Except.bind, if_true]
      rfl
    simp only [listBody, restOfList, run, ended, bind, Except.bind]
    rfl
  · intro read
    obtain ⟨⟨ys, last⟩, read, closing⟩ := ok_of_bind read
    obtain ⟨⟨⟨⟩, _⟩, ended, closing⟩ := ok_of_bind closing
    cases closing
    obtain ⟨⟨more, next⟩, moved, read⟩ := ok_of_bind read
    cases more with
    | false => cases read
    | true =>
      obtain ⟨⟨x, left⟩, here, read⟩ := ok_of_bind (show Json.read depth next >>= _ = _ from read)
      obtain ⟨⟨ys, _⟩, later, read⟩ := ok_of_bind read
      cases read
      have tag := (readTag_follows here).ok_iff.mpr ⟨tagOf_eq_ok_iff.mpr rfl, rfl⟩
      have enough : left.length < (openList :: left).length := Nat.lt_succ_self _
      have later := Skip.items_of_enough skippable enough later
      refine ⟨next, left, moved, tag, ?_⟩
      simp only [restOfList, later, ended, bind, Except.bind]
      rfl

/-! Documents -/

/-- What a document is as a request: a mode, and what is left without the tag. -/
inductive Tagged : Json → VerifyMode → Json → Prop where
  | object {mode : VerifyMode} {ms others : List (String × Json)} (tags : Tags mode ms others) :
    Tagged (.object ms) mode (.object others)
  /-- a list in which the tag comes first -/
  | list {mode : VerifyMode} (xs : List Json) :
    Tagged (.list (.text mode.tag :: xs)) mode (.list xs)

theorem tagged_of_readParts (read : readParts depth bytes = .ok ((mode, others), rest)) :
    ∃ j, Json.read depth bytes = .ok (j, rest) ∧ Tagged j mode others := by
  unfold readParts at read
  split at read
  next => cases read
  next b tail visible =>
    rw [← Json.read_skipBlanks, visible]
    split at read
    next opened =>
      subst opened
      obtain ⟨inner, rfl, read⟩ := Shape.inner_of_entering read
      obtain ⟨⟨⟨mode?, members⟩, left⟩, body, read⟩ := ok_of_bind read
      cases mode? with
      | none => exact nomatch read
      | some mode =>
        cases read
        obtain ⟨ms, others, document, tags, rfl⟩ := objectBody_iff.mp body
        refine ⟨.object ms, ?_, ?_⟩
        · rw [List.tail_cons] at document
          rw [Json.read_openObject, document]
          change Except.ok (Json.object ms.reverse.reverse, rest) = _
          rw [List.reverse_reverse]
        · rw [List.reverse_reverse]
          exact .object tags
    split at read
    next opened =>
      subst opened
      obtain ⟨inner, rfl, read⟩ := Shape.inner_of_entering read
      obtain ⟨⟨more, next⟩, moved, read⟩ := ok_of_bind read
      cases more with
      | false => exact absurd read not_faultOver
      | true =>
        obtain ⟨⟨mode, left⟩, tag, read⟩ := ok_of_bind read
        obtain ⟨⟨xs, _⟩, others, read⟩ := ok_of_bind read
        cases read
        rw [List.tail_cons] at moved
        refine ⟨_, ?_, .list xs⟩
        rw [Json.read_openList, listBody_iff.mp ⟨next, left, moved, tag, others⟩]
        rfl
    next => exact absurd read Shape.not_mismatch

theorem readParts_of_tagged {j : Json} (read : Json.read depth bytes = .ok (j, rest))
    (tagged : Tagged j mode others) : readParts depth bytes = .ok ((mode, others), rest) := by
  cases tagged with
  | @object _ ms others tags =>
    obtain ⟨inner, tail, rfl, visible, members⟩ := Json.object_of_read read
    have body := objectBody_iff.mpr ⟨ms, others, members, tags, rfl⟩
    unfold readParts
    rw [visible]
    change objectBody (readMember inner) (none, []) tail >>= _ = _
    rw [body]
    change Except.ok ((mode, Json.object others.reverse.reverse), rest) = _
    rw [List.reverse_reverse]
  | list xs =>
    obtain ⟨inner, tail, rfl, visible, items⟩ := Json.list_of_read read
    obtain ⟨next, left, moved, tag, others⟩ := listBody_iff.mpr items
    unfold readParts
    rw [visible]
    change nextItem true tail >>= _ = _
    rw [moved]
    change readTag next >>= _ = _
    rw [tag]
    change restOfList false (Json.read inner) left >>= _ = _
    rw [others]
    rfl

/-! Texts -/

theorem ofVal_toVal (r : VerifyRequest) : ofVal r.mode r.toVal = r := by
  cases r <;> simp [toVal, ofVal, mode]

/-- A request that is made of a mode and its values has that mode and those values. -/
theorem holds_ofVal {P : (mode : VerifyMode) → mode.fields.Val → Prop} {v : mode.fields.Val}
    (holds : P mode v) : P (ofVal mode v).mode (ofVal mode v).toVal := by
  cases mode with
  | pubKeys | githubActions => exact holds
  | keyless =>
    obtain ⟨image, signers, annotations, _⟩ := v
    change P .keyless (image, Shaped.toVal (Shaped.ofVal signers), annotations, ())
    rwa [Shaped.toVal_ofVal]
  | keylessPrefix =>
    obtain ⟨image, signers, annotations, _⟩ := v
    change P .keylessPrefix (image, Shaped.toVal (Shaped.ofVal signers), annotations, ())
    rwa [Shaped.toVal_ofVal]

theorem read_iff {r : VerifyRequest} :
    VerifyRequest.read bytes = .ok (r, rest) ↔
      ∃ others, readParts Json.nestingLimit bytes = .ok ((r.mode, others), rest) ∧
        r.mode.shape.view .inBuffer others = .ok r.toVal := by
  constructor
  · intro read
    obtain ⟨⟨⟨mode, others⟩, left⟩, parts, read⟩ := ok_of_bind read
    dsimp only at read
    split at read
    next v viewed =>
      cases read
      let P (mode : VerifyMode) (v : mode.fields.Val) : Prop :=
        readParts Json.nestingLimit bytes = .ok ((mode, others), rest) ∧
          mode.shape.view .inBuffer others = .ok v
      exact ⟨others, holds_ofVal (P := P) ⟨parts, viewed⟩⟩
    next => exact nomatch read
  · rintro ⟨others, parts, viewed⟩
    simp only [read, parts, bind, Except.bind, viewed, ofVal_toVal]
    rfl

/-- A text is a request if it is a document that tells a mode, and the rest is what the mode has. -/
theorem decode_iff {r : VerifyRequest} :
    decode bytes = .ok r ↔
      ∃ j others, (Json.read Json.nestingLimit).whole bytes = .ok j ∧ Tagged j r.mode others ∧
        r.mode.shape.view .inBuffer others = .ok r.toVal := by
  rw [decode_iff_read]
  constructor
  · rintro ⟨rest, read, ended⟩
    obtain ⟨others, parts, viewed⟩ := read_iff.mp read
    obtain ⟨j, document, tagged⟩ := tagged_of_readParts parts
    exact ⟨j, others, Reader.whole_ok_iff.mpr ⟨rest, document, ended⟩, tagged, viewed⟩
  · rintro ⟨j, others, document, tagged, viewed⟩
    obtain ⟨rest, document, ended⟩ := Reader.whole_ok_iff.mp document
    exact ⟨rest, read_iff.mpr ⟨others, readParts_of_tagged document tagged, viewed⟩, ended⟩

end VerifyRequest

end AdmissionGuest
