import AdmissionGuest.Proofs.Shape.Written
/-!
What a value carries without interpreting it. Everything else of a document is decided by its shape,
so a document has what is asked of it as soon as the carried documents have it.
-/

namespace AdmissionGuest

theorem Width.whole_toInt (w : Width) (n : w.Val) : (Number.int (w.toInt n)).Whole := by
  cases w with
  | u8 =>
    have bound := UInt8.toNat_lt n
    simp only [Number.Whole, toInt]
    omega
  | u16 =>
    have bound := UInt16.toNat_lt n
    simp only [Number.Whole, toInt]
    omega
  | u32 =>
    have bound := UInt32.toNat_lt n
    simp only [Number.Whole, toInt]
    omega
  | i64 =>
    have low := Int64.le_toInt n
    have high := Int64.toInt_lt n
    simp only [Number.Whole, toInt]
    omega

mutual

/-- Whether every document that a value carries has a property. -/
def Shape.Carries (P : Json → Prop) : (s : Shape) → s.Val → Prop
  | .any, v => P (Value.json v)
  | .list item, v => ∀ x, List.Mem x v → item.Carries P x
  | .dict item, v => ∀ e ∈ Dict.entries v, item.Carries P e.2
  | .record _ fields, v => fields.Carries P v
  | _, _ => True

/-- Whether every document that the fields carry has a property. -/
def Fields.Carries (P : Json → Prop) : (fields : Fields) → fields.Val → Prop
  | .nil, _ => True
  | .cons field shape rest, (v, vs) =>
    (∀ x, field.presence.given v = some x → shape.Carries P x) ∧ rest.Carries P vs

end

mutual

/-- How many lists and objects a shape puts around what is carried. -/
def Shape.extent : Shape → Nat
  | .list item => item.extent + 1
  | .dict item => item.extent + 1
  | .record _ fields => fields.extent + 1
  | _ => 0

def Fields.extent : Fields → Nat
  | .nil => 0
  | .cons _ shape rest => max shape.extent rest.extent

end

mutual

/-- Whether nothing is carried. -/
def Shape.plain : Shape → Bool
  | .any => false
  | .list item => item.plain
  | .dict item => item.plain
  | .record _ fields => fields.plain
  | _ => true

def Fields.plain : Fields → Bool
  | .nil => true
  | .cons _ shape rest => shape.plain && rest.plain

end

/-- Whether a document of the shape is carried as it is. -/
def Shape.isAny : Shape → Bool
  | .any => true
  | _ => false

mutual

/-- Whether no optional member can be null. -/
def Shape.steady : Shape → Bool
  | .list item => item.steady
  | .dict item => item.steady
  | .record _ fields => fields.steady
  | _ => true

def Fields.steady : Fields → Bool
  | .nil => true
  | .cons field shape rest =>
    (field.presence != .optional || !shape.isAny) && shape.steady && rest.steady

end

theorem Shape.isAny_of_plain {s : Shape} (plain : s.plain = true) : s.isAny = false := by
  cases s with
  | any => exact nomatch plain
  | _ => rfl

mutual

theorem Shape.steady_of_plain (s : Shape) (plain : s.plain = true) : s.steady = true := by
  match s with
  | .text | .flag | .int _ | .choice _ _ => rfl
  | .any => exact nomatch plain
  | .list item => exact item.steady_of_plain plain
  | .dict item => exact item.steady_of_plain plain
  | .record _ fields => exact fields.steady_of_plain plain

theorem Fields.steady_of_plain (fields : Fields) (plain : fields.plain = true) :
    fields.steady = true := by
  match fields with
  | .nil => rfl
  | .cons field shape rest =>
    obtain ⟨here, there⟩ := (Bool.and_eq_true _ _).mp plain
    simp only [Fields.steady, Shape.isAny_of_plain here, shape.steady_of_plain here,
      rest.steady_of_plain there, Bool.not_false, Bool.or_true, Bool.and_true]

end

section Parts

variable {P : Json → Prop}

mutual

theorem Shape.json_inherits (inherited : Json.Inherited P) (s : Shape) (v : s.Val)
    (carries : s.Carries P v) : P (s.json v) := by
  match s, v with
  | .text, v => exact inherited.text v
  | .flag, v => exact inherited.flag v
  | .int width, v => exact inherited.int _ (width.whole_toInt v)
  | .any, _ => exact carries
  | .choice _ _, _ => exact inherited.text _
  | .list item, v =>
    refine inherited.list _ fun x member => ?_
    obtain ⟨v, inside, rfl⟩ := List.mem_map.mp member
    exact item.json_inherits inherited v (carries v inside)
  | .dict item, v =>
    refine inherited.object _ fun m member => ?_
    obtain ⟨e, inside, rfl⟩ := List.mem_map.mp member
    exact item.json_inherits inherited e.2 (carries e inside)
  | .record _ fields, v =>
    exact inherited.object _ (fields.members_inherit inherited v carries)

theorem Fields.members_inherit (inherited : Json.Inherited P) (fields : Fields) (v : fields.Val)
    (carries : fields.Carries P v) : ∀ m ∈ fields.members v, P m.2 := by
  intro m member
  match fields, v with
  | .nil, _ => exact nomatch member
  | .cons field shape rest, (v, vs) =>
    rcases Fields.mem_members_cons.mp member with ⟨x, given, rfl⟩ | later
    · exact shape.json_inherits inherited x (carries.1 x given)
    · exact rest.members_inherit inherited vs carries.2 m later

end

mutual

theorem Shape.height_json {d : Nat} (s : Shape) (v : s.Val)
    (carries : s.Carries (fun j => j.height ≤ d) v) : (s.json v).height ≤ s.extent + d := by
  match s, v with
  | .text, _ | .flag, _ | .int _, _ | .choice _ _, _ => exact Nat.zero_le _
  | .any, v =>
    change (Value.json v).height ≤ 0 + d
    rw [Nat.zero_add]
    exact carries
  | .list item, v =>
    change Json.heightItems (List.map item.json v) + 1 ≤ item.extent + 1 + d
    rw [Nat.add_right_comm]
    refine Nat.succ_le_succ (Json.heightItems_le_iff.mpr fun x member => ?_)
    obtain ⟨v, inside, rfl⟩ := List.mem_map.mp member
    exact item.height_json v (carries v inside)
  | .dict item, v =>
    change Json.heightMembers ((Dict.entries v).map fun e => (e.1, item.json e.2)) + 1 ≤
      item.extent + 1 + d
    rw [Nat.add_right_comm]
    refine Nat.succ_le_succ (Json.heightMembers_le_iff.mpr fun m member => ?_)
    obtain ⟨e, inside, rfl⟩ := List.mem_map.mp member
    exact item.height_json e.2 (carries e inside)
  | .record _ fields, v =>
    change Json.heightMembers (fields.members v) + 1 ≤ fields.extent + 1 + d
    rw [Nat.add_right_comm]
    exact Nat.succ_le_succ (Json.heightMembers_le_iff.mpr (fields.height_members v carries))

theorem Fields.height_members {d : Nat} (fields : Fields) (v : fields.Val)
    (carries : fields.Carries (fun j => j.height ≤ d) v) :
    ∀ m ∈ fields.members v, m.2.height ≤ fields.extent + d := by
  intro m member
  match fields, v with
  | .nil, _ => exact nomatch member
  | .cons field shape rest, (v, vs) =>
    have extent : (Fields.cons field shape rest).extent = max shape.extent rest.extent := rfl
    rcases Fields.mem_members_cons.mp member with ⟨x, given, rfl⟩ | later
    · have here := shape.height_json x (carries.1 x given)
      change (shape.json x).height ≤ _
      omega
    · have there := rest.height_members vs carries.2 m later
      omega

end

mutual

theorem Shape.carries_of_plain (s : Shape) (plain : s.plain = true) (v : s.Val) :
    s.Carries P v := by
  match s, v with
  | .text, _ | .flag, _ | .int _, _ | .choice _ _, _ => trivial
  | .any, _ => exact nomatch plain
  | .list item, _ => exact fun x _ => item.carries_of_plain plain x
  | .dict item, _ => exact fun e _ => item.carries_of_plain plain e.2
  | .record _ fields, v => exact fields.carries_of_plain plain v

theorem Fields.carries_of_plain (fields : Fields) (plain : fields.plain = true)
    (v : fields.Val) : fields.Carries P v := by
  match fields, v with
  | .nil, _ => trivial
  | .cons field shape rest, (v, vs) =>
    obtain ⟨here, there⟩ := (Bool.and_eq_true _ _).mp plain
    exact ⟨fun x _ => shape.carries_of_plain here x, rest.carries_of_plain there vs⟩

end

end Parts

/-- Only a carried document is null. -/
theorem Shape.isNull_json {s : Shape} (told : s.isAny = false) (v : s.Val) :
    (s.json v).isNull = false := by
  cases s with
  | any => exact nomatch told
  | _ => rfl

theorem Presence.settle_eq {α : Type} {p : Presence} {isNull : α → Bool} {f : α → α} {v : p.Val α}
    (kept : ∀ x, p.given v = some x → (p = .optional → isNull x = false) ∧ f x = x) :
    p.settle isNull f v = v := by
  cases p with
  | required | defaulted => exact (kept v rfl).2
  | optional =>
    cases v with
    | none => rfl
    | some x =>
      obtain ⟨there, same⟩ := kept x rfl
      simp only [settle, Option.filter, there rfl, Bool.not_false, if_true, Option.map_some, same]

mutual

/-- Where no optional member can be null, nothing of a value is lost. -/
theorem Shape.settle_of_steady (s : Shape) (steady : s.steady = true) (v : s.Val) :
    s.settle v = v := by
  match s, v with
  | .text, _ | .flag, _ | .int _, _ | .any, _ | .choice _ _, _ => rfl
  | .list item, v =>
    exact (List.map_congr_left fun x _ => item.settle_of_steady steady x).trans (List.map_id' v)
  | .dict item, v =>
    have same : item.settle = fun x => x := funext fun x => item.settle_of_steady steady x
    change Dict.map item.settle v = v
    rw [same]
    exact Dict.map_id' v
  | .record _ fields, v => exact fields.settle_of_steady steady v

theorem Fields.settle_of_steady (fields : Fields) (steady : fields.steady = true)
    (v : fields.Val) : fields.settle v = v := by
  match fields, v with
  | .nil, _ => rfl
  | .cons field shape rest, (v, vs) =>
    obtain ⟨here, there⟩ := (Bool.and_eq_true _ _).mp steady
    obtain ⟨told, inside⟩ := (Bool.and_eq_true _ _).mp here
    have kept : ∀ x, field.presence.given v = some x →
        (field.presence = .optional → (shape.json x).isNull = false) ∧ shape.settle x = x := by
      intro x _
      refine ⟨fun optional => ?_, shape.settle_of_steady inside x⟩
      rw [optional] at told
      exact Shape.isNull_json (by simpa using told) x
    exact Prod.ext (Presence.settle_eq kept) (rest.settle_of_steady there vs)

end

/-- Of a value that carries nothing, nothing is lost. -/
theorem Shape.settle_of_plain (s : Shape) (plain : s.plain = true) (v : s.Val) :
    s.settle v = v :=
  s.settle_of_steady (s.steady_of_plain plain) v

theorem Presence.settle_of_plain {p : Presence} {s : Shape} (plain : s.plain = true)
    (v : p.Val s.Val) : p.settle (fun x => (s.json x).isNull) s.settle v = v :=
  settle_eq fun x _ => ⟨fun _ => Shape.isNull_json (Shape.isAny_of_plain plain) x,
    s.settle_of_plain plain x⟩

end AdmissionGuest
