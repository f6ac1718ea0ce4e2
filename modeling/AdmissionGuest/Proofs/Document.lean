import AdmissionGuest.Admission.Response
import AdmissionGuest.Proofs.Shape.Rereading
import AdmissionGuest.Proofs.Shape.Tidy
/-!
Documents that were written as a whole are decoded as a whole: as values that are carried, as
responses, and as values of every type that has a shape.
-/

namespace AdmissionGuest

theorem Reader.whole_ok_iff {α : Type} {reader : Reader α} {bytes : Bytes} {a : α} :
    reader.whole bytes = .ok a ↔
      ∃ rest, reader bytes = .ok (a, rest) ∧ Ascii.skipBlanks rest = [] := by
  constructor
  · intro whole
    obtain ⟨⟨b, rest⟩, read, ended⟩ := ok_of_bind whole
    dsimp only at ended
    split at ended
    next left =>
      cases ended
      exact ⟨rest, read, left⟩
    next => cases ended
  · rintro ⟨rest, read, left⟩
    simp only [whole, read, left, bind, Except.bind]
    rfl

theorem decode_iff_read {α : Type} [Named α] [OfDocument α] {bytes : Bytes} {a : α} :
    decode bytes = .ok a ↔
      ∃ rest, OfDocument.read bytes = .ok (a, rest) ∧ Ascii.skipBlanks rest = [] := by
  rw [← Reader.whole_ok_iff, decode]
  cases (OfDocument.read (α := α)).whole bytes with
  | error fault => exact ⟨nofun, nofun⟩
  | ok b => rw [Except.ok.injEq, Except.ok.injEq]

theorem decode_of_read {α : Type} [Named α] [OfDocument α] {bytes : Bytes} {a : α}
    (read : OfDocument.read bytes = .ok (a, [])) : decode bytes = .ok a :=
  decode_iff_read.mpr ⟨[], read, rfl⟩

theorem readable_of_decode {α : Type} [Named α] [OfDocument α] {bytes : Bytes} {a : α}
    (decoded : decode bytes = .ok a) : ∃ rest, OfDocument.read bytes = .ok (a, rest) := by
  obtain ⟨rest, read, _⟩ := decode_iff_read.mp decoded
  exact ⟨rest, read⟩

theorem error_of_not_decoded {α : Type} [Named α] [OfDocument α] {bytes : Bytes}
    (unread : ∀ a : α, decode bytes ≠ .ok a) :
    ∃ e, (decode bytes : Except Error α) = .error e := by
  cases decoded : (decode bytes : Except Error α) with
  | error e => exact ⟨e, rfl⟩
  | ok a => exact absurd decoded (unread a)

section Documents

variable {j : Json} (whole : j.Whole) (fits : j.height ≤ Json.nestingLimit)

include whole fits

theorem read_document : Json.read Json.nestingLimit j.write = .ok (j, []) := by
  have reads := Json.read_write j whole fits [] .nil
  rwa [List.append_nil] at reads

theorem whole_document : (Json.read Json.nestingLimit).whole j.write = .ok j :=
  Reader.whole_ok_iff.mpr ⟨[], read_document whole fits, rfl⟩

/-- What was written is carried with its members in order. -/
theorem decode_write : decode j.write = .ok (Value.ofJson j) := by
  apply decode_of_read
  have read := read_document whole fits
  simp only [OfDocument.read, Shaped.read, Shaped.shape, Shape.read, bind, StateT.bind,
    Functor.map, StateT.map, read, Except.bind]
  rfl

theorem decode_response {response : PolicyResponse} (view : PolicyResponse.view j = .ok response) :
    decode j.write = .ok response := by
  apply decode_of_read
  have read := read_document whole fits
  simp only [OfDocument.read, bind, read, Except.bind, view]
  rfl

end Documents

/-! Types with a shape -/

section Shaped

variable {α : Type} [Named α] [Shaped α] {a : α}

theorem encode_shaped (a : α) : encode a = .ok (Shaped.json a).write := rfl

omit [Named α] in
theorem Shaped.view_ok_iff {kept : Kept} {j : Json} {a : α} :
    Shaped.view kept j = .ok a ↔ (Shaped.shape α).view kept j = .ok (Shaped.toVal a) := by
  rw [Shaped.view]
  cases (Shaped.shape α).view kept j with
  | error cause => constructor <;> intro contrary <;> cases contrary
  | ok v =>
    change Except.ok (Shaped.ofVal v) = _ ↔ _
    rw [Except.ok.injEq, Except.ok.injEq]
    constructor
    · rintro rfl
      exact (Shaped.toVal_ofVal v).symm
    · rintro rfl
      exact Shaped.ofVal_toVal a

omit [Named α] in
/-- What is left of a value is viewed in its document. -/
theorem view_shaped {b : α} (proper : (Shaped.shape α).Proper)
    (left : (Shaped.shape α).settle (Shaped.toVal a) = Shaped.toVal b) (kept : Kept) :
    Shaped.view kept (Shaped.json a) = .ok b := by
  have viewed := (Shaped.shape α).view_json kept (Shaped.toVal a) proper
  rw [left] at viewed
  rw [Shaped.view, Shaped.json, viewed]
  exact congrArg Except.ok (Shaped.ofVal_toVal b)

/-- A document that was read decides what its text is decoded to. -/
theorem decode_of_view {bytes : Bytes} {j : Json}
    (read : Json.read Json.nestingLimit bytes = .ok (j, []))
    (viewed : (Shaped.shape α).view .asValue j = .ok (Shaped.toVal a)) : decode bytes = .ok a := by
  have follows := (Shaped.shape α).read_follows .asValue Json.nestingLimit bytes [] j read
  apply decode_of_read
  change (Shaped.shape α).read Json.nestingLimit bytes >>= _ = _
  rw [follows.ok_iff.mpr ⟨viewed, rfl⟩]
  change Except.ok (Shaped.ofVal (Shaped.toVal a), ([] : Bytes)) = _
  rw [Shaped.ofVal_toVal]

theorem decode_json (proper : (Shaped.shape α).Proper)
    (settled : (Shaped.shape α).settle (Shaped.toVal a) = Shaped.toVal a)
    (read : Json.read Json.nestingLimit (Shaped.json a).write = .ok (Shaped.json a, [])) :
    decode (Shaped.json a).write = .ok a := by
  have viewed := (Shaped.shape α).view_json .asValue (Shaped.toVal a) proper
  rw [settled] at viewed
  exact decode_of_view read viewed

section Plain

variable (plain : (Shaped.shape α).plain = true)

include plain

omit [Named α] in
theorem json_inherits_of_plain {P : Json → Prop} (inherited : Json.Inherited P) (a : α) :
    P (Shaped.json a) :=
  (Shaped.shape α).json_inherits inherited _ ((Shaped.shape α).carries_of_plain plain _)

variable (fits : (Shaped.shape α).extent ≤ Json.nestingLimit) (a : α)

include fits

omit [Named α] in
theorem read_json_of_plain :
    Json.read Json.nestingLimit (Shaped.json a).write = .ok (Shaped.json a, []) := by
  have height : (Shaped.json a).height ≤ (Shaped.shape α).extent + 0 :=
    (Shaped.shape α).height_json _ ((Shaped.shape α).carries_of_plain plain _)
  exact read_document (json_inherits_of_plain plain Json.whole_inherited a) (height.trans fits)

/-- A type whose shape carries nothing: what is sent is what arrives. -/
theorem decode_json_of_plain (proper : (Shaped.shape α).Proper) :
    decode (Shaped.json a).write = .ok a :=
  decode_json proper ((Shaped.shape α).settle_of_plain plain _) (read_json_of_plain plain fits a)

end Plain

theorem read_of_decode {bytes : Bytes} (decoded : decode bytes = .ok a) :
    ∃ rest, (Shaped.shape α).read Json.nestingLimit bytes = .ok (Shaped.toVal a, rest) := by
  obtain ⟨rest, read⟩ := readable_of_decode decoded
  obtain ⟨⟨v, _⟩, found, here⟩ := ok_of_bind
    (show (Shaped.shape α).read Json.nestingLimit bytes >>=
      (fun r => pure (Shaped.ofVal r.1, r.2)) = _ from read)
  cases here
  rw [Shaped.toVal_ofVal]
  exact ⟨_, found⟩

theorem rereads_of_decode (fits : (Shaped.shape α).extent ≤ Json.nestingLimit) {bytes : Bytes}
    (decoded : decode bytes = .ok a) :
    (Shaped.shape α).Rereads Json.nestingLimit (Shaped.toVal a) := by
  obtain ⟨_, read⟩ := read_of_decode decoded
  exact (Shaped.shape α).rereads_of_read fits read

/-- The text that a value was decoded from decides the document that is written of it. -/
theorem json_of_decode {bytes rest : Bytes} {j : Json} (decoded : decode bytes = .ok a)
    (document : Json.read Json.nestingLimit bytes = .ok (j, rest)) :
    Shaped.json a = (Shaped.shape α).tidy j := by
  obtain ⟨_, read⟩ := read_of_decode decoded
  have follows := (Shaped.shape α).read_follows .asValue Json.nestingLimit bytes rest j document
  exact (Shaped.shape α).json_of_view .asValue (follows.ok_iff.mp read).1

end Shaped

end AdmissionGuest
