import AdmissionGuest.Proofs.Shape.Slots
import AdmissionGuest.Proofs.Shape.View
/-!
The members of an object are viewed one after the other, but what a record makes of them does not
depend on how members of different fields are mixed: each field looks at its own members only.
-/

namespace AdmissionGuest

namespace Fields

/-- What the members of a field put into its slot: one of them its value, none of them nothing. -/
inductive Fills (kept : Kept) (p : Presence) (shape : Shape) :
    List (String × Json) → Option (p.Val shape.Val) → Prop where
  | absent : Fills kept p shape [] none
  | present {name : String} {x : Json} {v : p.Val shape.Val}
    (viewed : Shape.viewPresent (shape.view kept) p x = .ok v) :
    Fills kept p shape [(name, x)] (some v)

/-- Whether the fields have these values by the members of an object. -/
def Takes (kept : Kept) : (fields : Fields) → List (String × Json) → fields.Val → Prop
  | .nil, _, _ => True
  | .cons field shape rest, ms, (v, vs) =>
    (∃ slot, Fills kept field.presence shape (field.own ms) slot ∧
      (slot <|> absent? field.presence shape) = some v) ∧
    rest.Takes kept (field.others ms) vs

variable {kept : Kept} {field : Field} {shape : Shape} {rest fields : Fields}
  {slot : Option (field.presence.Val shape.Val)} {slots : rest.Slots}

/-- What a field makes of the value of a member. -/
def viewing (kept : Kept) (p : Presence) (s : Shape) (x : Json) : Except Cause (p.Val s.Val) :=
  Shape.viewPresent (s.view kept) p x

theorem viewMember?_eq (fields : Fields) (name : String) (x : Json) (slots : fields.Slots) :
    fields.viewMember? kept name x slots = fields.place? (viewing kept) name x slots := by
  match fields, slots with
  | .nil, _ => rfl
  | .cons field shape rest, (slot, slots) =>
    simp only [viewMember?, place?, viewMember?_eq rest]
    rfl

theorem viewMember_eq : viewMember kept fields = place (viewing kept) fields := by
  funext slots m
  rw [viewMember, place, viewMember?_eq]

theorem viewMember_others {m : String × Json} (other : field.answersTo m.1 = false) :
    viewMember kept (.cons field shape rest) (slot, slots) m =
      (viewMember kept rest slots m).map fun s => (slot, s) := by
  rw [viewMember_eq, viewMember_eq]
  exact place_others other

theorem given_of_fills {own : List (String × Json)} {v : field.presence.Val shape.Val} :
    (∃ slot, Fills kept field.presence shape own slot ∧
      (slot <|> absent? field.presence shape) = some v) ↔
      Given (viewing kept) field.presence shape own v := by
  constructor
  · rintro ⟨slot, fills, given⟩
    cases fills with
    | absent => exact .absent given
    | present viewed =>
      cases given
      exact .present viewed
  · intro given
    cases given with
    | absent default => exact ⟨none, .absent, default⟩
    | present found => exact ⟨some v, .present found, rfl⟩

theorem takes_iff_yields (fields : Fields) {ms : List (String × Json)} {v : fields.Val} :
    fields.Takes kept ms v ↔ fields.Yields (viewing kept) ms v := by
  match fields, v with
  | .nil, _ => exact Iff.rfl
  | .cons field shape rest, (v, vs) => exact and_congr given_of_fills (takes_iff_yields rest)

/-- The slots filled by an object are finished to what it gives. -/
theorem takes_iff (fields : Fields) {ms : List (String × Json)} {v : fields.Val} :
    (∃ slots, ms.foldlM (viewMember kept fields) fields.noSlots = .ok slots ∧
      fields.finish slots = .ok v) ↔ fields.Takes kept ms v := by
  rw [viewMember_eq, takes_iff_yields, yields_iff]

/-- A required field has its value from the one member that belongs to it. -/
theorem takes_required_iff {name : String} {ms : List (String × Json)} {m : String × Json}
    {v : shape.Val} {vs : rest.Val} (own : Field.own ⟨name, .required, []⟩ ms = [m]) :
    (required name shape rest).Takes kept ms (v, vs) ↔
      shape.view kept m.2 = .ok v ∧ rest.Takes kept (Field.others ⟨name, .required, []⟩ ms) vs := by
  refine and_congr_left fun _ => ?_
  rw [own]
  constructor
  · rintro ⟨slot, fills, given⟩
    cases fills with
    | present viewed =>
      cases given
      exact viewed
  · intro viewed
    exact ⟨some v, .present viewed, rfl⟩

end Fields

theorem view_object_iff {kept : Kept} {noun : String} {fields : Fields}
    {ms : List (String × Json)} {v : fields.Val} :
    (Shape.record noun fields).view kept (.object ms) = .ok v ↔ fields.Takes kept ms v := by
  rw [← Fields.takes_iff]
  constructor
  · exact view_object_ok
  · rintro ⟨slots, run, finished⟩
    rw [view_object, run]
    change (fields.finish slots).mapError _ = _
    rw [finished]
    rfl

/-- The fields viewed off a list, with nothing left of it. -/
theorem Fields.viewItems_iff {kept : Kept} (fields : Fields) (expected : String) (index : Nat)
    {xs : List Json} {v : fields.Val} :
    fields.viewItems kept expected index xs = .ok (v, []) ↔
      fields.YieldsItems (viewing kept) xs v := by
  match fields, v, xs with
  | .nil, (), [] => exact ⟨fun _ => rfl, fun _ => rfl⟩
  | .nil, (), _ :: _ => exact ⟨nofun, nofun⟩
  | .cons field shape rest, (v, vs), [] =>
    simp only [viewItems, YieldsItems, ← rest.viewItems_iff expected (index + 1)]
    cases absent? field.presence shape with
    | none => exact ⟨nofun, nofun⟩
    | some w =>
      constructor
      · intro viewed
        obtain ⟨⟨ws, _⟩, later, viewed⟩ := ok_of_bind viewed
        cases viewed
        exact ⟨rfl, later⟩
      · rintro ⟨⟨⟩, later⟩
        simp only [later]
        rfl
  | .cons field shape rest, (v, vs), x :: xs =>
    simp only [viewItems, YieldsItems, ← rest.viewItems_iff expected (index + 1)]
    constructor
    · intro viewed
      obtain ⟨w, first, viewed⟩ := ok_of_bind viewed
      obtain ⟨⟨ws, _⟩, later, viewed⟩ := ok_of_bind viewed
      cases viewed
      exact ⟨first, later⟩
    · rintro ⟨first, later⟩
      simp only [viewing] at first
      simp only [first, later]
      rfl

theorem view_list_iff {kept : Kept} {noun : String} {fields : Fields} {xs : List Json}
    {v : fields.Val} :
    (Shape.record noun fields).view kept (.list xs) = .ok v ↔
      fields.YieldsItems (Fields.viewing kept) xs v := by
  rw [← fields.viewItems_iff (fields.expected noun) 0]
  constructor
  · intro viewed
    obtain ⟨⟨ws, left⟩, items, viewed⟩ := ok_of_bind viewed
    cases left with
    | nil =>
      cases viewed
      exact items
    | cons => exact nomatch viewed
  · intro items
    change (fields.viewItems kept _ 0 xs >>= _) = _
    rw [items]
    rfl

end AdmissionGuest
