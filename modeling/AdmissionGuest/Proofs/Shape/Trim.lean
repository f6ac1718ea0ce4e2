import AdmissionGuest.Proofs.Shape.Written
/-!
Documents without the members that no field knows, in every record. What is viewed is the same, and
so is the fault if nothing is viewed.
-/

namespace AdmissionGuest

mutual

/-- A document without the members that a shape does not look at. -/
def Shape.trim : Shape → Json → Json
  | .list item, .list xs => .list (xs.map item.trim)
  | .dict item, .object ms => .object (ms.map fun m => (m.1, item.trim m.2))
  | .record _ fields, .object ms => .object (ms.filterMap fun m => fields.trimMember? m.1 m.2)
  | .record _ fields, .list xs => .list (fields.trimItems xs)
  | _, j => j

/-- A member, if it belongs to one of the fields. -/
def Fields.trimMember? : Fields → String → Json → Option (String × Json)
  | .nil, _, _ => none
  | .cons field shape rest, name, x =>
    if field.answersTo name then some (name, shape.trim x) else rest.trimMember? name x

def Fields.trimItems : Fields → List Json → List Json
  | .cons _ shape rest, x :: xs => shape.trim x :: rest.trimItems xs
  | _, xs => xs

end

theorem Fields.trimMember?_eq (fields : Fields) (name : String) (x : Json) :
    fields.trimMember? name x = (fields.find? name).map fun f => (name, f.2.trim x) := by
  cases fields with
  | nil => rfl
  | cons field shape rest =>
    simp only [trimMember?, find?]
    split
    next => rfl
    next => exact rest.trimMember?_eq name x

theorem Shape.trim_ne_null {s : Shape} {j : Json} (some : j ≠ .null) : s.trim j ≠ .null := by
  cases s <;> cases j <;> first | exact absurd rfl some | exact nofun

theorem Fields.length_trimItems (fields : Fields) (xs : List Json) :
    (fields.trimItems xs).length = xs.length := by
  match fields, xs with
  | .nil, _ | .cons _ _ _, [] => rfl
  | .cons _ shape rest, x :: xs =>
    rw [trimItems, List.length_cons, rest.length_trimItems, List.length_cons]

theorem Shape.viewPresent_trim {s : Shape} {kept : Kept} {x : Json}
    (same : s.view kept (s.trim x) = s.view kept x) (p : Presence) :
    viewPresent (s.view kept) p (s.trim x) = viewPresent (s.view kept) p x := by
  cases p with
  | required | defaulted => exact same
  | optional =>
    by_cases null : x = .null
    · subst null
      cases s <;> rfl
    · rw [viewPresent_optional null, viewPresent_optional (trim_ne_null null), same]

/-! Runs that make the same of trimmed members -/

section Runs

variable {α β σ ε : Type}

theorem mapM_map_of_same {f : α → α} {g : α → Except ε β} (same : ∀ x, g (f x) = g x)
    (xs : List α) : (xs.map f).mapM g = xs.mapM g := by
  induction xs with
  | nil => rfl
  | cons x xs ih => rw [List.map_cons, List.mapM_cons, List.mapM_cons, same, ih]

/-- A run makes the same of a list from which items are left out that it passes over, while the
others are replaced by items of which it makes the same. -/
theorem foldlM_filterMap_of_same {f : α → Option α} {step : σ → α → Except ε σ}
    (kept : ∀ a b, f a = some b → ∀ s, step s b = step s a)
    (dropped : ∀ a, f a = none → ∀ s, step s a = .ok s) (as : List α) (s : σ) :
    (as.filterMap f).foldlM step s = as.foldlM step s := by
  induction as generalizing s with
  | nil => rfl
  | cons a as ih =>
    cases found : f a with
    | none =>
      rw [List.filterMap_cons_none found, List.foldlM_cons, dropped a found, ih]
      rfl
    | some b =>
      rw [List.filterMap_cons_some found, List.foldlM_cons, List.foldlM_cons, kept a b found]
      exact congrArg _ (funext ih)

end Runs

theorem Fields.viewMember?_unknown {kept : Kept} (fields : Fields) {name : String} {x : Json}
    (unknown : fields.find? name = none) (slots : fields.Slots) :
    fields.viewMember? kept name x slots = none := by
  cases fields with
  | nil => rfl
  | cons field shape rest =>
    obtain ⟨slot, slots⟩ := slots
    simp only [find?] at unknown
    split at unknown
    next => cases unknown
    next other =>
      simp only [viewMember?, if_neg other, rest.viewMember?_unknown unknown]
      rfl

mutual

/-- The trimmed document is viewed as the document is. -/
theorem Shape.view_trim (kept : Kept) (s : Shape) (j : Json) :
    s.view kept (s.trim j) = s.view kept j := by
  match s with
  | .text | .flag | .int _ | .any | .choice _ _ => rfl
  | .list item =>
    cases j with
    | list xs => exact mapM_map_of_same (fun x => item.view_trim kept x) xs
    | _ => rfl
  | .dict item =>
    cases j with
    | object ms =>
      change (ms.map _).foldlM _ _ = _
      rw [← List.filterMap_eq_map]
      refine foldlM_filterMap_of_same ?_ nofun ms _
      rintro ⟨name, x⟩ _ ⟨⟩ d
      exact congrArg (· >>= _) (item.view_trim kept x)
    | _ => rfl
  | .record noun fields =>
    cases j with
    | object ms =>
      rw [Shape.trim, view_object, view_object]
      refine congrArg (· >>= _) (foldlM_filterMap_of_same ?_ ?_ ms _)
      · rintro ⟨name, x⟩ m found slots
        obtain ⟨named, same⟩ := fields.viewMember?_trim kept found slots
        rw [Fields.viewMember, named, same]
        rfl
      · rintro ⟨name, x⟩ dropped slots
        rw [Fields.trimMember?_eq, Option.map_eq_none_iff] at dropped
        rw [Fields.viewMember, fields.viewMember?_unknown dropped]
        rfl
    | list xs =>
      change (fields.viewItems kept _ 0 (fields.trimItems xs) >>= _) =
        (fields.viewItems kept _ 0 xs >>= _)
      rw [fields.viewItems_trim kept, fields.length_trimItems]
    | _ => rfl

theorem Fields.viewMember?_trim (kept : Kept) (fields : Fields) {name : String} {x : Json}
    {m : String × Json} (found : fields.trimMember? name x = some m) (slots : fields.Slots) :
    m.1 = name ∧ fields.viewMember? kept name m.2 slots = fields.viewMember? kept name x slots := by
  match fields, slots with
  | .nil, _ => exact nomatch found
  | .cons field shape rest, (slot, slots) =>
    simp only [Fields.trimMember?] at found
    by_cases own : field.answersTo name = true
    · rw [if_pos own] at found
      cases found
      refine ⟨rfl, ?_⟩
      simp only [Fields.viewMember?, if_pos own, Shape.viewPresent_trim (shape.view_trim kept x)]
    · rw [if_neg own] at found
      obtain ⟨named, same⟩ := rest.viewMember?_trim kept found slots
      refine ⟨named, ?_⟩
      simp only [Fields.viewMember?, if_neg own, same]

theorem Fields.viewItems_trim (kept : Kept) (fields : Fields) (expected : String) (index : Nat)
    (xs : List Json) :
    fields.viewItems kept expected index (fields.trimItems xs) =
      fields.viewItems kept expected index xs := by
  match fields, xs with
  | .nil, _ | .cons _ _ _, [] => rfl
  | .cons field shape rest, x :: xs =>
    simp only [Fields.trimItems, Fields.viewItems,
      Shape.viewPresent_trim (shape.view_trim kept x), rest.viewItems_trim kept]

end

/-- What stands under the name of a field stays there, trimmed itself. -/
theorem Shape.get?_trim {noun name : String} {fields : Fields} {field : Field} {shape : Shape}
    (known : fields.find? name = some (field, shape)) (j : Json) :
    ((Shape.record noun fields).trim j).get? name = (j.get? name).map shape.trim := by
  cases j with
  | object ms =>
    rw [Shape.trim, Json.get?, Json.get?]
    induction ms with
    | nil => rfl
    | cons m ms ih =>
      obtain ⟨other, x⟩ := m
      by_cases named : other = name
      · subst named
        have own : fields.trimMember? other x = some (other, shape.trim x) := by
          rw [Fields.trimMember?_eq, known, Option.map_some]
        simp [own]
      · have mine : ((other, x).1 == name) = false := beq_false_of_ne named
        rw [List.find?_cons, mine, List.filterMap_cons, Fields.trimMember?_eq]
        cases fields.find? other with
        | none => exact ih
        | some found => simpa [List.find?_cons, mine] using ih
  | _ => rfl

end AdmissionGuest
