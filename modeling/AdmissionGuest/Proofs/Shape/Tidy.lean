import AdmissionGuest.Proofs.Shape.Written
/-!
What becomes of a document that is read by a shape and written again: members that no field answers
to are dropped, the others stand in the order of the fields under the names those are written with.
-/

namespace AdmissionGuest

/-- What is written for a field, given what was found for it. -/
def Field.tidy (field : Field) (tidy : Json → Json) (empty : Json) :
    Option Json → Option (String × Json)
  | none => if field.presence = .defaulted then some (field.name, empty) else none
  | some x => if field.presence = .optional ∧ x.isNull then none else some (field.name, tidy x)

mutual

/-- The document that is written after a document was read. -/
def Shape.tidy : Shape → Json → Json
  | .any, j => j.canonical
  | .choice _ _, .object [(name, _)] => .text name
  | .list item, .list xs => .list (xs.map item.tidy)
  | .dict item, .object ms => .object (Entries.ofList (ms.map fun m => (m.1, item.tidy m.2)))
  | .record _ fields, .object ms => .object (fields.tidyMembers ms)
  | .record _ fields, .list xs => .object (fields.tidyItems xs)
  | _, j => j

/-- The members that are written after an object was read. -/
def Fields.tidyMembers : Fields → List (String × Json) → List (String × Json)
  | .nil, _ => []
  | .cons field shape rest, ms =>
    (field.tidy shape.tidy (shape.json shape.empty) ((field.own ms).head?.map Prod.snd)).toList ++
      rest.tidyMembers (field.others ms)

/-- The members that are written after a list of the fields was read. -/
def Fields.tidyItems : Fields → List Json → List (String × Json)
  | .nil, _ => []
  | .cons field shape rest, xs =>
    (field.tidy shape.tidy (shape.json shape.empty) xs.head?).toList ++ rest.tidyItems xs.tail

end

theorem Width.toInt_of_ofInt? {w : Width} {n : Int} {v : w.Val} (fits : w.ofInt? n = some v) :
    w.toInt v = n := by
  unfold ofInt? at fits
  split at fits
  next within =>
    cases fits
    cases w with
    | u8 =>
      simp only [least, greatest] at within
      simp only [toInt, wrap, UInt8.toNat_ofNat']
      omega
    | u16 =>
      simp only [least, greatest] at within
      simp only [toInt, wrap, UInt16.toNat_ofNat']
      omega
    | u32 =>
      simp only [least, greatest] at within
      simp only [toInt, wrap, UInt32.toNat_ofNat']
      omega
    | i64 =>
      simp only [least, greatest] at within
      exact Int64.toInt_ofInt_of_le within.1 (by omega)
  next => cases fits

theorem choice_get {first : String} {others : List String} {name : String}
    {i : Fin (others.length + 1)} (chosen : Shape.choiceOf first others name = .ok i) :
    (first :: others).get i = name := by
  unfold Shape.choiceOf at chosen
  cases found : (first :: others).finIdxOf? name with
  | none =>
    rw [found] at chosen
    exact nomatch chosen
  | some k =>
    rw [found] at chosen
    cases chosen
    exact (List.finIdxOf?_eq_some_iff.mp found).1

theorem map_eq_map {α β γ : Type} {f : α → γ} {g : β → γ} {xs : List α} {ys : List β}
    (each : List.Forall₂ (fun x y => f x = g y) xs ys) : xs.map f = ys.map g := by
  induction each with
  | nil => rfl
  | cons here _ ih => rw [List.map_cons, List.map_cons, here, ih]

/-! Records -/

namespace Field

variable {field : Field} {shape : Shape} {kept : Kept} {v : field.presence.Val shape.Val}

theorem tidy_some {x : Json}
    (tidies : ∀ w, shape.view kept x = .ok w → shape.json w = shape.tidy x)
    (viewed : Shape.viewPresent (shape.view kept) field.presence x = .ok v) :
    (field.presence.given v).map (fun w => (field.name, shape.json w)) =
      field.tidy shape.tidy (shape.json shape.empty) (some x) := by
  obtain ⟨name, presence, aliases⟩ := field
  cases presence with
  | required | defaulted => exact congrArg (fun j => some (name, j)) (tidies v viewed)
  | optional =>
    by_cases null : x = .null
    · subst null
      cases viewed
      rfl
    · have there : x.isNull = false := Bool.eq_false_iff.mpr (mt Json.isNull_iff.mp null)
      rw [Shape.viewPresent_optional null] at viewed
      cases found : shape.view kept x with
      | error cause =>
        rw [found] at viewed
        exact nomatch viewed
      | ok w =>
        rw [found] at viewed
        cases viewed
        simp only [Field.tidy, there, Bool.false_eq_true, and_false, if_false]
        exact congrArg (fun j => some (name, j)) (tidies w found)

theorem tidy_none (absent : absent? field.presence shape = some v) :
    (field.presence.given v).map (fun w => (field.name, shape.json w)) =
      field.tidy shape.tidy (shape.json shape.empty) none := by
  obtain ⟨name, presence, aliases⟩ := field
  cases presence with
  | required => exact nomatch absent
  | optional | defaulted =>
    cases absent
    rfl

end Field

mutual

/-- What is written after a document was read is the tidy document. -/
theorem Shape.json_of_view (kept : Kept) (s : Shape) {j : Json} {v : s.Val}
    (viewed : s.view kept j = .ok v) : s.json v = s.tidy j := by
  match s, j, v with
  | .text, .text _, _ | .flag, .flag _, _ | .any, _, _ =>
    cases viewed
    rfl
  | .int width, .number (.int n), v =>
    change (match width.ofInt? n with
      | some v => .ok v
      | none => .error (Cause.integerOutOfRange n width.name)) = Except.ok v at viewed
    cases fits : width.ofInt? n with
    | none =>
      rw [fits] at viewed
      exact nomatch viewed
    | some w =>
      rw [fits] at viewed
      cases viewed
      exact congrArg (fun n => Json.number (.int n)) (Width.toInt_of_ofInt? fits)
  | .choice first others, .text name, v => exact congrArg Json.text (choice_get viewed)
  | .choice first others, .object [(name, x)], v =>
    obtain ⟨i, chosen, ended⟩ := ok_of_bind viewed
    cases x with
    | null =>
      cases ended
      exact congrArg Json.text (choice_get chosen)
    | _ => exact nomatch ended
  | .list item, .list xs, vs =>
    have each := (mapM_ok_iff.mp viewed).imp fun _ _ here => (item.json_of_view kept here).symm
    exact congrArg Json.list (map_eq_map each).symm
  | .dict item, .object ms, v =>
    obtain ⟨es, each, rfl⟩ := foldlM_insert_iff.mp viewed
    have same : List.Forall₂ (Entries.Same fun x w => x = item.json w)
        (ms.map fun m => (m.1, item.tidy m.2)) es := by
      rw [List.forall₂_map_left_iff]
      exact each.imp fun _ _ entry => ⟨entry.key, (item.json_of_view kept entry.value).symm⟩
    change Json.object (List.map _ (Dict.entries (es.foldl _ Dict.empty))) = _
    rw [Dict.entries_foldl_insert]
    exact congrArg Json.object (Entries.map_of_same (Entries.same_ofList same))
  | .record _ fields, .object ms, v =>
    exact congrArg Json.object (fields.members_of_takes kept (view_object_iff.mp viewed))
  | .record noun fields, .list xs, v =>
    obtain ⟨⟨vs, left⟩, items, ended⟩ := ok_of_bind viewed
    cases left with
    | nil =>
      cases ended
      exact congrArg Json.object (fields.members_of_items kept items)
    | cons _ _ => exact nomatch ended

theorem Fields.members_of_takes (kept : Kept) (fields : Fields) {ms : List (String × Json)}
    {v : fields.Val} (takes : fields.Takes kept ms v) :
    fields.members v = fields.tidyMembers ms := by
  match fields, v with
  | .nil, _ => rfl
  | .cons field shape rest, (v, vs) =>
    obtain ⟨⟨slot, fills, given⟩, takes⟩ := takes
    rw [Fields.members_cons, Fields.tidyMembers, rest.members_of_takes kept takes]
    generalize field.own ms = own at fills
    cases fills with
    | absent =>
      rw [Field.tidy_none given]
      rfl
    | present viewed =>
      cases given
      rw [Field.tidy_some (fun w => shape.json_of_view kept) viewed]
      rfl

theorem Fields.members_of_items (kept : Kept) (fields : Fields) {expected : String} {index : Nat}
    {xs left : List Json} {v : fields.Val}
    (viewed : fields.viewItems kept expected index xs = .ok (v, left)) :
    fields.members v = fields.tidyItems xs := by
  match fields, v, xs with
  | .nil, _, _ => rfl
  | .cons field shape rest, (v, vs), [] =>
    simp only [Fields.viewItems] at viewed
    cases absent : absent? field.presence shape with
    | none =>
      simp only [absent] at viewed
      exact nomatch viewed
    | some w =>
      simp only [absent] at viewed
      obtain ⟨⟨ws, _⟩, later, viewed⟩ := ok_of_bind viewed
      cases viewed
      rw [Fields.members_cons, Field.tidy_none absent, rest.members_of_items kept later]
      rfl
  | .cons field shape rest, (v, vs), x :: xs =>
    obtain ⟨w, here, viewed⟩ := ok_of_bind viewed
    obtain ⟨⟨ws, _⟩, later, viewed⟩ := ok_of_bind viewed
    cases viewed
    rw [Fields.members_cons, Field.tidy_some (fun w => shape.json_of_view kept) here,
      rest.members_of_items kept later]
    rfl

end

/-! Looking a member up -/

/-- Whether a field with a shape is one of the fields. -/
def Fields.Has (field : Field) (shape : Shape) : Fields → Prop
  | .nil => False
  | .cons f s rest => (f = field ∧ s = shape) ∨ rest.Has field shape

namespace Fields

variable {field : Field} {shape : Shape}

theorem name_of_has {fields : Fields} (has : fields.Has field shape) :
    field.name ∈ fields.names := by
  match fields with
  | .cons f s rest =>
    rcases has with ⟨rfl, _⟩ | later
    · exact List.mem_cons_self
    · exact List.mem_cons_of_mem _ (name_of_has later)

theorem name_of_tidy {tidy : Json → Json} {empty : Json} {x? : Option Json} {m : String × Json}
    (written : field.tidy tidy empty x? = some m) : m.1 = field.name := by
  unfold Field.tidy at written
  split at written <;> split at written <;> cases written <;> rfl

theorem names_of_tidyMembers (fields : Fields) {ms : List (String × Json)} {m : String × Json}
    (member : m ∈ fields.tidyMembers ms) : m.1 ∈ fields.names := by
  match fields with
  | .nil => exact nomatch member
  | .cons f s rest =>
    rcases List.mem_append.mp member with here | later
    · rw [name_of_tidy (Option.mem_toList.mp here)]
      exact List.mem_cons_self
    · exact List.mem_cons_of_mem _ (rest.names_of_tidyMembers later)

/-- What stands under the name of a field is decided by what stood there. -/
theorem get?_tidyMembers {fields : Fields} {ms : List (String × Json)} (proper : fields.Proper)
    (has : fields.Has field shape) (alone : field.aliases = []) :
    (Json.object (fields.tidyMembers ms)).get? field.name =
      (field.tidy shape.tidy (shape.json shape.empty) ((Json.object ms).get? field.name)).map
        Prod.snd := by
  match fields with
  | .cons f s rest =>
    rw [Json.get?, tidyMembers, List.find?_append]
    rcases has with ⟨rfl, rfl⟩ | later
    · have own : (f.own ms).head? = ms.find? fun m => m.1 == f.name := by
        simp only [Field.own, List.head?_filter, Field.answersTo, alone, List.contains_nil,
          Bool.or_false]
      have theirs : (rest.tidyMembers (f.others ms)).find? (fun m => m.1 == f.name) = none := by
        apply Json.find?_none
        intro m member same
        exact name_not_mem proper (same ▸ rest.names_of_tidyMembers member)
      rw [own, theirs, Option.or_none, Json.get?]
      cases written : f.tidy s.tidy (s.json s.empty)
          ((ms.find? fun m => m.1 == f.name).map Prod.snd) with
      | none => rfl
      | some m =>
        have named := name_of_tidy written
        simp only [Option.toList_some, List.find?_cons, named, beq_self_eq_true]
    · have answers := proper.2.1 _ (name_of_has later)
      have mine : (f.tidy s.tidy (s.json s.empty) ((f.own ms).head?.map Prod.snd)).toList.find?
          (fun m => m.1 == field.name) = none := by
        apply Json.find?_none
        intro m member same
        rw [name_of_tidy (Option.mem_toList.mp member)] at same
        exact name_not_mem proper (same ▸ name_of_has later)
      have kept : (f.others ms).find? (fun m => m.1 == field.name) =
          ms.find? fun m => m.1 == field.name := by
        rw [Field.others, List.find?_filter]
        refine congrArg (ms.find? ·) (funext fun m => ?_)
        by_cases named : m.1 = field.name
        · simp [named, answers]
        · simp [named]
      rw [mine, Option.none_or, ← Json.get?, get?_tidyMembers proper.2.2 later alone, Json.get?,
        kept, ← Json.get?]

end Fields

def Shape.fields : Shape → Fields
  | .record _ fields => fields
  | _ => .nil

theorem Shape.tidy_text : Shape.text.tidy = id := by
  funext j
  cases j <;> rfl

theorem Shape.tidy_texts : (Shape.list .text).tidy = id := by
  funext j
  cases j with
  | list xs =>
    change Json.list (xs.map Shape.text.tidy) = _
    rw [tidy_text, List.map_id]
    rfl
  | _ => rfl

section Lookup

variable {s shape : Shape} {name : String} {presence : Presence} {ms : List (String × Json)}

theorem Shape.get?_tidy (proper : s.Proper) (has : s.fields.Has ⟨name, presence, []⟩ shape) :
    (s.tidy (.object ms)).get? name =
      (Field.tidy ⟨name, presence, []⟩ shape.tidy (shape.json shape.empty)
        ((Json.object ms).get? name)).map Prod.snd := by
  cases s with
  | record noun fields => exact Fields.get?_tidyMembers proper has rfl
  | _ => exact nomatch has

/-- A member that was there and is not an optional null is tidied itself. -/
theorem Shape.get?_tidy_some {x : Json} (proper : s.Proper)
    (has : s.fields.Has ⟨name, presence, []⟩ shape) (found : (Json.object ms).get? name = some x)
    (notNull : presence = .optional → x ≠ .null) :
    (s.tidy (.object ms)).get? name = some (shape.tidy x) := by
  have there : ¬ (presence = .optional ∧ x.isNull = true) := fun lost =>
    notNull lost.1 (Json.isNull_iff.mp lost.2)
  rw [Shape.get?_tidy proper has, found, Field.tidy, if_neg there]
  rfl

/-- A defaulted member that was absent is written as its default. -/
theorem Shape.get?_tidy_defaulted (proper : s.Proper)
    (has : s.fields.Has ⟨name, .defaulted, []⟩ shape) (absent : (Json.object ms).get? name = none) :
    (s.tidy (.object ms)).get? name = some (shape.json shape.empty) := by
  rw [Shape.get?_tidy proper has, absent]
  rfl

/-- An optional member is left out if it was absent or null. -/
theorem Shape.get?_tidy_optional (proper : s.Proper)
    (has : s.fields.Has ⟨name, .optional, []⟩ shape) :
    (s.tidy (.object ms)).get? name = none ↔
      (Json.object ms).get? name = none ∨ (Json.object ms).get? name = some .null := by
  rw [Shape.get?_tidy proper has]
  cases (Json.object ms).get? name with
  | none => exact iff_of_true rfl (.inl rfl)
  | some x =>
    by_cases null : x = .null
    · subst null
      exact iff_of_true rfl (.inr rfl)
    · have there : ¬ (Presence.optional = .optional ∧ x.isNull = true) := fun lost =>
        null (Json.isNull_iff.mp lost.2)
      rw [Field.tidy, if_neg there]
      constructor
      · exact nofun
      · rintro (absent | same)
        · exact nomatch absent
        · exact absurd (Option.some.inj same) null

end Lookup

end AdmissionGuest
