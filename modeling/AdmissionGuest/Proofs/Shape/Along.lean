import AdmissionGuest.Proofs.Json.Spelling.Place
import AdmissionGuest.Proofs.Shape.Written
/-!
Ways through documents, as a shape sees them. A document that is viewed has every part viewed by the
shape of that part; and every part of a document that was written is itself what was written of some
value.
-/

namespace AdmissionGuest

/-- The shape of what stands where a way through a document ends. -/
def Shape.along? : List Step → Shape → Option Shape
  | [], s => some s
  | .member name :: path, .record _ fields => do (← fields.find? name).2.along? path
  | .item index :: path, .record _ fields => do (← fields.at? index).2.along? path
  | .item _ :: path, .list item => item.along? path
  | .member _ :: path, .dict item => item.along? path
  | _ :: _, _ => none

theorem Json.mem_of_get? {ms : List (String × Json)} {name : String} {x : Json}
    (found : (Json.object ms).get? name = some x) : (name, x) ∈ ms := by
  obtain ⟨m, first, rfl⟩ := Option.map_eq_some_iff.mp found
  exact mem_of_find? first

/-- A relation that holds item by item relates an item to one at the same place. -/
theorem exists_of_getElem? {α β : Type} {R : α → β → Prop} {xs : List α} {ys : List β}
    (each : List.Forall₂ R xs ys) {index : Nat} {x : α} (here : xs[index]? = some x) :
    ∃ y, ys[index]? = some y ∧ R x y := by
  induction each generalizing index with
  | nil => exact nomatch here
  | @cons a b _ _ first _ ih =>
    cases index with
    | zero =>
      cases here
      exact ⟨b, rfl, first⟩
    | succ index => exact ih here

theorem Fields.proper_of_find? (fields : Fields) {name : String} {field : Field} {shape : Shape}
    (proper : fields.Proper) (known : fields.find? name = some (field, shape)) : shape.Proper := by
  match fields with
  | .nil => exact nomatch known
  | .cons f s rest =>
    simp only [find?] at known
    split at known
    next =>
      cases known
      exact proper.1
    next => exact rest.proper_of_find? proper.2.2 known

theorem Fields.proper_of_at? (fields : Fields) {index : Nat} {field : Field} {shape : Shape}
    (proper : fields.Proper) (known : fields.at? index = some (field, shape)) : shape.Proper := by
  match fields, index with
  | .nil, _ => exact nomatch known
  | .cons f s rest, 0 =>
    cases known
    exact proper.1
  | .cons f s rest, index + 1 => exact rest.proper_of_at? proper.2.2 known

namespace Fields

variable {kept : Kept} {fields : Fields} {field : Field} {shape : Shape} {v : fields.Val}

/-- Every member of a field is viewed. -/
theorem viewing_of_mem {ms : List (String × Json)} {name : String} {x : Json}
    (yields : fields.Yields (viewing kept) ms v) (here : (name, x) ∈ ms)
    (known : fields.find? name = some (field, shape)) :
    ∃ w, viewing kept field.presence shape x = .ok w := by
  obtain ⟨before, after, rfl⟩ := List.append_of_mem here
  by_contra none
  refine not_yields_of_unread known (fun w found => none ⟨w, found⟩)
    (yields.perm List.perm_middle)

/-- Every item of a record that is written as a list is viewed. -/
theorem viewing_of_item (fields : Fields) {v : fields.Val} {expected : String} {start index : Nat}
    {xs left : List Json} {x : Json}
    (viewed : fields.viewItems kept expected start xs = .ok (v, left)) (here : xs[index]? = some x)
    (known : fields.at? index = some (field, shape)) :
    ∃ w, viewing kept field.presence shape x = .ok w := by
  match fields, v, xs, index with
  | .cons f s rest, (v, vs), y :: ys, 0 =>
    cases here
    cases known
    obtain ⟨w, first, _⟩ := ok_of_bind viewed
    exact ⟨w, first⟩
  | .cons f s rest, (v, vs), y :: ys, index + 1 =>
    obtain ⟨w, _, viewed⟩ := ok_of_bind viewed
    obtain ⟨⟨ws, _⟩, later, viewed⟩ := ok_of_bind viewed
    exact rest.viewing_of_item later here known
  | .nil, _, _, _ => exact nomatch known
  | .cons _ _ _, _, [], _ => exact nomatch here

/-- What stands under the name of a field was written of a value of that field. -/
theorem json_of_mem (fields : Fields) {v : fields.Val} {name : String} {x : Json}
    (proper : fields.Proper) (here : (name, x) ∈ fields.members v)
    (known : fields.find? name = some (field, shape)) : ∃ w, x = shape.json w := by
  match fields, v with
  | .nil, _ => exact nomatch here
  | .cons f s rest, (v, vs) =>
    rcases mem_members_cons.mp here with ⟨w, _, same⟩ | later
    · cases same
      simp only [find?, f.answersTo_name, if_true, Option.some.injEq] at known
      cases known
      exact ⟨w, rfl⟩
    · have other := proper.2.1 _ (names_of_members later)
      simp only [find?, other, Bool.false_eq_true, if_false] at known
      exact rest.json_of_mem proper.2.2 later known

end Fields

namespace Shape

variable {kept : Kept}

/-- What a field makes of a value other than null is what its shape makes of it. -/
theorem viewing_iff {p : Presence} {s : Shape} {x : Json} (some : x ≠ .null)
    {w : p.Val s.Val} :
    Fields.viewing kept p s x = .ok w ↔ ∃ a, s.view kept x = .ok a ∧ w = p.hold a := by
  cases p with
  | required | defaulted =>
    constructor
    · intro viewed
      exact ⟨w, viewed, rfl⟩
    · rintro ⟨a, viewed, rfl⟩
      exact viewed
  | optional =>
    rw [Fields.viewing, viewPresent_optional some]
    exact map_ok_iff

theorem ne_null_of_follow? {path : List Step} {j x : Json} (found : j.follow? path = some x)
    (some : x ≠ .null) : j ≠ .null := by
  rintro rfl
  match path with
  | [] => exact some (Option.some.inj found).symm
  | .member _ :: _ => exact nomatch found
  | .item _ :: _ => exact nomatch found

/-- Every part of a document that is viewed is viewed by its shape. -/
theorem view_part {s t : Shape} {path : List Step} {j x : Json} {v : s.Val}
    (viewed : s.view kept j = .ok v) (along : s.along? path = some t)
    (found : j.follow? path = some x) (notNull : x ≠ .null) : ∃ w, t.view kept x = .ok w := by
  induction path generalizing s j with
  | nil =>
    cases along
    cases found
    exact ⟨v, viewed⟩
  | cons step path ih =>
    match s, step, j with
    | .record noun fields, .member name, .object ms =>
      obtain ⟨⟨field, shape⟩, known, along⟩ := Option.bind_eq_some_iff.mp along
      obtain ⟨y, here, found⟩ := Option.bind_eq_some_iff.mp found
      have yields := (fields.takes_iff_yields).mp (view_object_iff.mp viewed)
      obtain ⟨w, part⟩ := Fields.viewing_of_mem yields (Json.mem_of_get? here) known
      obtain ⟨a, part, _⟩ := (viewing_iff (ne_null_of_follow? found notNull)).mp part
      exact ih part along found
    | .record noun fields, .item index, .list xs =>
      obtain ⟨⟨field, shape⟩, known, along⟩ := Option.bind_eq_some_iff.mp along
      obtain ⟨y, here, found⟩ := Option.bind_eq_some_iff.mp found
      obtain ⟨⟨vs, left⟩, items, _⟩ := ok_of_bind viewed
      obtain ⟨w, part⟩ := fields.viewing_of_item items here known
      obtain ⟨a, part, _⟩ := (viewing_iff (ne_null_of_follow? found notNull)).mp part
      exact ih part along found
    | .list item, .item index, .list xs =>
      obtain ⟨y, here, found⟩ := Option.bind_eq_some_iff.mp found
      obtain ⟨w, _, part⟩ := exists_of_getElem? (mapM_ok_iff.mp viewed) here
      exact ih part along found
    | .dict item, .member name, .object ms =>
      obtain ⟨y, here, found⟩ := Option.bind_eq_some_iff.mp found
      obtain ⟨es, each, _⟩ := foldlM_insert_iff.mp viewed
      obtain ⟨index, here⟩ := List.mem_iff_getElem?.mp (Json.mem_of_get? here)
      obtain ⟨_, _, part⟩ := exists_of_getElem? each here
      exact ih part.value along found

/-- Every part of a document that was written was written of a value of its shape. -/
theorem json_part {s t : Shape} {path : List Step} {x : Json} {v : s.Val} (proper : s.Proper)
    (along : s.along? path = some t) (found : (s.json v).follow? path = some x) :
    ∃ w, x = t.json w := by
  induction path generalizing s with
  | nil =>
    cases along
    cases found
    exact ⟨v, rfl⟩
  | cons step path ih =>
    match s, step with
    | .record noun fields, .member name =>
      obtain ⟨⟨field, shape⟩, known, along⟩ := Option.bind_eq_some_iff.mp along
      obtain ⟨y, here, found⟩ := Option.bind_eq_some_iff.mp found
      obtain ⟨w, rfl⟩ := fields.json_of_mem proper (Json.mem_of_get? here) known
      exact ih (fields.proper_of_find? proper known) along found
    | .list item, .item index =>
      obtain ⟨y, here, found⟩ := Option.bind_eq_some_iff.mp found
      obtain ⟨w, _, rfl⟩ := List.mem_map.mp (List.mem_of_getElem? here)
      exact ih (s := item) proper along found
    | .dict item, .member name =>
      obtain ⟨y, here, found⟩ := Option.bind_eq_some_iff.mp found
      obtain ⟨e, _, same⟩ := List.mem_map.mp (Json.mem_of_get? here)
      cases same
      exact ih (s := item) proper along found

end Shape

end AdmissionGuest
