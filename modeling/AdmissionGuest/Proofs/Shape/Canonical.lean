import AdmissionGuest.Proofs.Json.Nesting
import AdmissionGuest.Proofs.Shape.Written
/-!
A document that is carried has its members put in order. No shape depends on their order, so a
document that is viewed as a value is still viewed as the same value after it was carried.
-/

namespace AdmissionGuest

theorem Json.canonicalItems_eq_map (xs : List Json) : canonicalItems xs = xs.map canonical := by
  induction xs with
  | nil => rfl
  | cons x xs ih => rw [canonicalItems, ih, List.map_cons]

theorem Json.canonicalMembers_eq_map (ms : List (String × Json)) :
    canonicalMembers ms = ms.map fun m => (m.1, m.2.canonical) := by
  induction ms with
  | nil => rfl
  | cons m ms ih => rw [canonicalMembers, ih, List.map_cons]

/-! Members of a field -/

namespace Field

variable (field : Field) (ms : List (String × Json))

theorem own_canonical :
    field.own (Entries.ofList (Json.canonicalMembers ms)) =
      Entries.ofList (Json.canonicalMembers (field.own ms)) := by
  rw [Field.own, Entries.filter_ofList, Json.canonicalMembers_eq_map, Json.canonicalMembers_eq_map,
    List.filter_map]
  rfl

theorem others_canonical :
    field.others (Entries.ofList (Json.canonicalMembers ms)) =
      Entries.ofList (Json.canonicalMembers (field.others ms)) := by
  rw [Field.others, Entries.filter_ofList (p := fun name => !field.answersTo name),
    Json.canonicalMembers_eq_map, Json.canonicalMembers_eq_map, List.filter_map]
  rfl

end Field

theorem Shape.viewPresent_canonical {α : Type} {view : Json → Except Cause α} {j : Json}
    (each : ∀ a, view j = .ok a → view j.canonical = .ok a) {p : Presence} {v : p.Val α}
    (viewed : viewPresent view p j = .ok v) : viewPresent view p j.canonical = .ok v := by
  cases p with
  | required | defaulted => exact each v viewed
  | optional =>
    by_cases null : j = .null
    · subst null
      exact viewed
    · have there : j.canonical ≠ .null := by
        rwa [ne_eq, ← Json.isNull_iff, Json.isNull_canonical, Json.isNull_iff]
      rw [viewPresent_optional null] at viewed
      rw [viewPresent_optional there]
      cases found : view j with
      | error cause =>
        rw [found] at viewed
        exact nomatch viewed
      | ok a =>
        rw [each a found, ← found]
        exact viewed

mutual

/-- The canonical form of a document is viewed as the same value. The converse fails: of repeated
members the canonical form keeps the last, while a record with one of them twice is at fault. -/
theorem Shape.view_canonical (kept : Kept) (s : Shape) {j : Json} {v : s.Val}
    (viewed : s.view kept j = .ok v) : s.view kept j.canonical = .ok v := by
  match s, j, v with
  | .text, .text _, _ | .flag, .flag _, _ | .int _, .number _, _ => exact viewed
  | .any, j, v =>
    cases viewed
    exact congrArg Except.ok (Value.ofJson_json (Value.ofJson j))
  | .choice _ _, .text _, _ => exact viewed
  | .choice _ _, .object [(_, x)], _ =>
    obtain ⟨i, chosen, ended⟩ := ok_of_bind viewed
    cases x with
    | null => exact viewed
    | _ => exact nomatch ended
  | .list item, .list xs, vs =>
    have each := (mapM_ok_iff.mp viewed).imp fun _ _ here => item.view_canonical kept here
    have done := mapM_ok_iff.mpr (List.forall₂_map_left_iff.mpr each)
    rwa [← Json.canonicalItems_eq_map] at done
  | .dict item, .object ms, d =>
    obtain ⟨es, each, built⟩ := foldlM_insert_iff.mp viewed
    have same : List.Forall₂ (Entries.Same fun x y => item.view kept x = .ok y)
        (Json.canonicalMembers ms) es := by
      rw [Json.canonicalMembers_eq_map, List.forall₂_map_left_iff]
      exact each.imp fun _ _ entry => ⟨entry.key, item.view_canonical kept entry.value⟩
    refine foldlM_insert_iff.mpr ⟨_, Entries.same_ofList same, ?_⟩
    -- Putting entries in order first does not change the map they build.
    rw [← built]
    apply Dict.ext
    rw [Dict.entries_foldl_insert, Dict.entries_foldl_insert]
    exact Entries.ofList_of_ascending (Entries.ascending_ofList es)
  | .record _ fields, .object ms, v =>
    exact view_object_iff.mpr (fields.takes_canonical kept (view_object_iff.mp viewed))
  | .record noun fields, .list xs, v =>
    obtain ⟨⟨vs, left⟩, items, ended⟩ := ok_of_bind viewed
    cases left with
    | nil =>
      cases ended
      change (fields.viewItems kept _ 0 (Json.canonicalItems xs) >>= _) = _
      rw [Json.canonicalItems_eq_map, fields.viewItems_canonical kept items]
      rfl
    | cons _ _ => exact nomatch ended

theorem Fields.takes_canonical (kept : Kept) (fields : Fields) {ms : List (String × Json)}
    {v : fields.Val} (takes : fields.Takes kept ms v) :
    fields.Takes kept (Entries.ofList (Json.canonicalMembers ms)) v := by
  match fields, v with
  | .nil, _ => trivial
  | .cons field shape rest, (v, vs) =>
    obtain ⟨⟨slot, fills, given⟩, later⟩ := takes
    constructor
    · refine ⟨slot, ?_, given⟩
      rw [field.own_canonical]
      generalize field.own ms = own at fills
      cases fills with
      | absent => exact .absent
      | present viewed =>
        exact .present (Shape.viewPresent_canonical (fun _ => shape.view_canonical kept) viewed)
    · rw [field.others_canonical]
      exact rest.takes_canonical kept later

theorem Fields.viewItems_canonical (kept : Kept) (fields : Fields) {expected : String}
    {index : Nat} {xs left : List Json} {v : fields.Val}
    (viewed : fields.viewItems kept expected index xs = .ok (v, left)) :
    fields.viewItems kept expected index (xs.map Json.canonical) =
      .ok (v, left.map Json.canonical) := by
  match fields, v, xs with
  | .nil, _, _ =>
    cases viewed
    rfl
  | .cons field shape rest, (v, vs), [] =>
    simp only [Fields.viewItems, List.map_nil] at viewed ⊢
    cases absent : absent? field.presence shape with
    | none =>
      simp only [absent] at viewed
      exact nomatch viewed
    | some w =>
      simp only [absent] at viewed
      obtain ⟨⟨ws, _⟩, later, viewed⟩ := ok_of_bind viewed
      cases viewed
      have again := rest.viewItems_canonical kept later
      rw [List.map_nil] at again
      rw [again]
      rfl
  | .cons field shape rest, (v, vs), x :: xs =>
    obtain ⟨w, here, viewed⟩ := ok_of_bind viewed
    obtain ⟨⟨ws, _⟩, later, viewed⟩ := ok_of_bind viewed
    cases viewed
    rw [List.map_cons, Fields.viewItems,
      Shape.viewPresent_canonical (fun _ => shape.view_canonical kept) here]
    change (rest.viewItems kept expected (index + 1) (xs.map Json.canonical) >>= _) = _
    rw [rest.viewItems_canonical kept later]
    rfl

end

end AdmissionGuest
