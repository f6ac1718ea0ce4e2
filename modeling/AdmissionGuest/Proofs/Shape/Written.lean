import AdmissionGuest.Proofs.Json.Parts
import AdmissionGuest.Proofs.Json.Value
import AdmissionGuest.Proofs.Shape.Members
/-!
What is written of a value of a shape, and what viewing it gives. It is the value again, unless a
name means two things in one record, or an optional value is there whose document is null: that one
is lost.
-/

namespace AdmissionGuest

/-! Integers -/

namespace Width

theorem ofInt?_toInt (w : Width) (n : w.Val) : w.ofInt? (w.toInt n) = some n := by
  have within : w.least ≤ w.toInt n ∧ w.toInt n ≤ w.greatest := by
    cases w with
    | u8 =>
      have bound := UInt8.toNat_lt n
      simp only [least, greatest, toInt]
      omega
    | u16 =>
      have bound := UInt16.toNat_lt n
      simp only [least, greatest, toInt]
      omega
    | u32 =>
      have bound := UInt32.toNat_lt n
      simp only [least, greatest, toInt]
      omega
    | i64 =>
      have low := Int64.le_toInt n
      have high := Int64.toInt_lt n
      simp only [least, greatest, toInt]
      omega
  rw [ofInt?, if_pos within]
  cases w with
  | u8 => exact congrArg some UInt8.ofNat_toNat
  | u16 => exact congrArg some UInt16.ofNat_toNat
  | u32 => exact congrArg some UInt32.ofNat_toNat
  | i64 => exact congrArg some (Int64.ofInt_toInt n)

theorem intOf_toInt (w : Width) (n : w.Val) : Shape.intOf w (.int (w.toInt n)) = .ok n := by
  simp only [Shape.intOf, ofInt?_toInt]

end Width

/-! Members -/

/-- The value of a member, unless it is left out. -/
def Presence.given {α : Type} : (p : Presence) → p.Val α → Option α
  | .required, v => some v
  | .optional, v => v
  | .defaulted, v => some v

/-- The value of a member that is there. -/
def Presence.hold {α : Type} : (p : Presence) → α → p.Val α
  | .required, a => a
  | .optional, a => some a
  | .defaulted, a => a

theorem Presence.given_hold {α : Type} (p : Presence) (a : α) : p.given (p.hold a) = some a := by
  cases p <;> rfl

def Fields.names : Fields → List String
  | .nil => []
  | .cons field _ rest => field.name :: rest.names

namespace Fields

theorem members_cons {field : Field} {shape : Shape} {rest : Fields}
    {v : field.presence.Val shape.Val} {vs : rest.Val} :
    (Fields.cons field shape rest).members (v, vs) =
      ((field.presence.given v).map fun x => (field.name, shape.json x)).toList ++
        rest.members vs := by
  obtain ⟨name, presence, aliases⟩ := field
  cases presence with
  | required | defaulted => rfl
  | optional => cases v <;> rfl

theorem mem_members_cons {field : Field} {shape : Shape} {rest : Fields}
    {v : field.presence.Val shape.Val} {vs : rest.Val} {m : String × Json} :
    m ∈ (Fields.cons field shape rest).members (v, vs) ↔
      (∃ x, field.presence.given v = some x ∧ m = (field.name, shape.json x)) ∨
        m ∈ rest.members vs := by
  rw [members_cons, List.mem_append, Option.mem_toList, Option.map_eq_some_iff]
  refine or_congr (exists_congr fun x => and_congr_right fun _ => ?_) Iff.rfl
  exact eq_comm

theorem names_of_members {fields : Fields} {v : fields.Val} {m : String × Json}
    (member : m ∈ fields.members v) : m.1 ∈ fields.names := by
  match fields, v with
  | .nil, _ => exact nomatch member
  | .cons field shape rest, (v, vs) =>
    rcases mem_members_cons.mp member with ⟨x, _, rfl⟩ | later
    · exact List.mem_cons_self
    · exact List.mem_cons_of_mem _ (names_of_members later)

end Fields

mutual

/-- Whether a document of the shape has one meaning: choices differ, and no field is read under the
name that another one is written under. -/
def Shape.Proper : Shape → Prop
  | .choice first others => (first :: others).Nodup
  | .list item => item.Proper
  | .dict item => item.Proper
  | .record _ fields => fields.Proper
  | _ => True

/-- Whether the fields have proper shapes and names of their own. -/
def Fields.Proper : Fields → Prop
  | .nil => True
  | .cons field shape rest =>
    shape.Proper ∧ (∀ name ∈ rest.names, field.answersTo name = false) ∧ rest.Proper

end

mutual

def Shape.decideProper : (s : Shape) → Decidable s.Proper
  | .choice first others => inferInstanceAs (Decidable (first :: others).Nodup)
  | .list item => item.decideProper
  | .dict item => item.decideProper
  | .record _ fields => fields.decideProper
  | .text | .flag | .int _ | .any => isTrue trivial

def Fields.decideProper : (fields : Fields) → Decidable fields.Proper
  | .nil => isTrue trivial
  | .cons field shape rest =>
    have := shape.decideProper
    have := rest.decideProper
    inferInstanceAs (Decidable
      (shape.Proper ∧ (∀ name ∈ rest.names, field.answersTo name = false) ∧ rest.Proper))

end

instance : DecidablePred Shape.Proper := Shape.decideProper

theorem Shape.viewPresent_optional {α : Type} {item : Json → Except Cause α} {j : Json}
    (notNull : j ≠ .null) : viewPresent item .optional j = some <$> item j := by
  cases j with
  | null => exact absurd rfl notNull
  | _ => rfl

/-- What is left of a member: an optional one is lost if it has the document null. -/
def Presence.settle {α : Type} (isNull : α → Bool) (f : α → α) : (p : Presence) → p.Val α → p.Val α
  | .required, v => f v
  | .optional, v => (v.filter fun x => !isNull x).map f
  | .defaulted, v => f v

mutual

/-- What is left of a value after it was written. -/
def Shape.settle : (s : Shape) → s.Val → s.Val
  | .list item, v => List.map item.settle v
  | .dict item, v => Dict.map item.settle v
  | .record _ fields, v => fields.settle v
  | .text, v | .flag, v | .int _, v | .any, v | .choice _ _, v => v

/-- What is left of every field. -/
def Fields.settle : (fields : Fields) → fields.Val → fields.Val
  | .nil, v => v
  | .cons field shape rest, (v, vs) =>
    (field.presence.settle (fun x => (shape.json x).isNull) shape.settle v, rest.settle vs)

end

theorem Field.answersTo_name (field : Field) : field.answersTo field.name = true := by
  simp [Field.answersTo]

namespace Fields

variable {field : Field} {shape : Shape} {rest : Fields} {v : field.presence.Val shape.Val}
  {vs : rest.Val}

/-- What a field writes is its own. -/
theorem own_members (proper : (Fields.cons field shape rest).Proper) :
    field.own ((Fields.cons field shape rest).members (v, vs)) =
      ((field.presence.given v).map fun x => (field.name, shape.json x)).toList := by
  have mine : field.own ((field.presence.given v).map fun x => (field.name, shape.json x)).toList =
      ((field.presence.given v).map fun x => (field.name, shape.json x)).toList := by
    cases field.presence.given v with
    | none => rfl
    | some x => exact List.filter_cons_of_pos field.answersTo_name
  have theirs : field.own (rest.members vs) = [] := by
    rw [Field.own, List.filter_eq_nil_iff]
    intro m member
    rw [proper.2.1 _ (names_of_members member)]
    exact Bool.false_ne_true
  rw [members_cons, Field.own, List.filter_append]
  exact (congrArg₂ _ mine theirs).trans (List.append_nil _)

theorem others_members (proper : (Fields.cons field shape rest).Proper) :
    field.others ((Fields.cons field shape rest).members (v, vs)) = rest.members vs := by
  have mine :
      field.others ((field.presence.given v).map fun x => (field.name, shape.json x)).toList =
        [] := by
    cases field.presence.given v with
    | none => rfl
    | some x => exact List.filter_cons_of_neg (by simp [field.answersTo_name])
  have theirs : field.others (rest.members vs) = rest.members vs := by
    rw [Field.others, List.filter_eq_self]
    intro m member
    rw [proper.2.1 _ (names_of_members member)]
    rfl
  rw [members_cons, Field.others, List.filter_append]
  exact congrArg₂ _ mine theirs

end Fields

/-! Looking a member up -/

/-- What is given for the field with a name. -/
inductive Fields.Gives (shape : Shape) (name : String) (x : Option shape.Val) :
    (fields : Fields) → fields.Val → Prop where
  | here {presence : Presence} {aliases : List String} {v : presence.Val shape.Val}
      {rest : Fields} {vs : rest.Val} (given : presence.given v = x) :
      Gives shape name x (.cons ⟨name, presence, aliases⟩ shape rest) (v, vs)
  | there {other : Field} {s : Shape} {v : other.presence.Val s.Val} {rest : Fields}
      {vs : rest.Val} (gives : Gives shape name x rest vs) :
      Gives shape name x (.cons other s rest) (v, vs)

theorem Fields.name_of_gives {shape : Shape} {name : String} {x : Option shape.Val}
    {fields : Fields} {v : fields.Val} (gives : fields.Gives shape name x v) :
    name ∈ fields.names := by
  induction gives with
  | here given => exact List.mem_cons_self
  | there gives ih => exact List.mem_cons_of_mem _ ih

theorem Fields.name_not_mem {field : Field} {shape : Shape} {rest : Fields}
    (proper : (Fields.cons field shape rest).Proper) : field.name ∉ rest.names := by
  intro member
  have answers := proper.2.1 _ member
  rw [field.answersTo_name] at answers
  exact nomatch answers

theorem Json.find?_none {ms : List (String × Json)} {name : String}
    (others : ∀ m ∈ ms, m.1 ≠ name) : ms.find? (fun m => m.1 == name) = none :=
  List.find?_eq_none.mpr fun m member same => others m member (beq_iff_eq.mp same)

theorem Fields.get?_members {shape : Shape} {name : String} {x : Option shape.Val}
    {fields : Fields} {v : fields.Val} (proper : fields.Proper)
    (gives : fields.Gives shape name x v) :
    (Json.object (fields.members v)).get? name = x.map shape.json := by
  induction gives with
  | @here presence aliases v rest vs given =>
    have later : (rest.members vs).find? (fun m => m.1 == name) = none := by
      apply Json.find?_none
      intro m member same
      exact name_not_mem proper (same ▸ names_of_members member)
    rw [Json.get?, members_cons, List.find?_append, later, given, Option.or_none]
    cases x with
    | none => rfl
    | some x => simp
  | @there other s v rest vs gives ih =>
    have mine : ((other.presence.given v).map fun x => (other.name, s.json x)).toList.find?
        (fun m => m.1 == name) = none := by
      apply Json.find?_none
      intro m member same
      obtain ⟨x, _, rfl⟩ := Option.map_eq_some_iff.mp (Option.mem_toList.mp member)
      subst same
      exact name_not_mem proper (name_of_gives gives)
    rw [Json.get?, members_cons, List.find?_append, mine, Option.none_or]
    exact ih proper.2.2

/-- A member is written exactly if something is given for it. -/
theorem Shape.isSome_get?_json {shape : Shape} {name noun : String} {x : Option shape.Val}
    {fields : Fields} {v : fields.Val} (proper : (Shape.record noun fields).Proper)
    (gives : fields.Gives shape name x v) :
    (((Shape.record noun fields).json v).get? name).isSome = x.isSome := by
  change ((Json.object (fields.members v)).get? name).isSome = _
  rw [Fields.get?_members proper gives, Option.isSome_map]

namespace Presence

variable {p : Presence} {s : Shape} {v : p.Val s.Val}

theorem absent_of_given (left : p.given v = none) : absent? p s = some v := by
  cases p with
  | required | defaulted => exact nomatch left
  | optional =>
    cases left
    rfl

theorem view_of_given {item : Json → Except Cause s.Val} {x : s.Val} (given : p.given v = some x)
    (viewed : item (s.json x) = .ok (s.settle x)) :
    Shape.viewPresent item p (s.json x) =
      .ok (p.settle (fun x => (s.json x).isNull) s.settle v) := by
  cases p with
  | required | defaulted =>
    cases given
    exact viewed
  | optional =>
    cases given
    by_cases null : s.json x = .null
    · simp only [null, Shape.viewPresent, settle, Option.filter, Json.isNull]
      rfl
    · have there : (s.json x).isNull = false := Bool.eq_false_iff.mpr (mt Json.isNull_iff.mp null)
      rw [Shape.viewPresent_optional null, viewed]
      simp only [settle, Option.filter, there]
      rfl

theorem settle_of_absent (left : p.given v = none) :
    p.settle (fun x => (s.json x).isNull) s.settle v = v := by
  cases p with
  | required | defaulted => exact nomatch left
  | optional =>
    cases left
    rfl

end Presence

/-! Lists and maps -/

theorem forall₂_map_map {α β γ : Type} {R : β → γ → Prop} {f : α → β} {g : α → γ} {xs : List α}
    (each : ∀ x ∈ xs, R (f x) (g x)) : List.Forall₂ R (xs.map f) (xs.map g) := by
  rw [List.forall₂_map_left_iff, List.forall₂_map_right_iff, List.forall₂_same]
  exact each

theorem mapM_ok_iff {α β ε : Type} {f : α → Except ε β} {xs : List α} {ys : List β} :
    xs.mapM f = .ok ys ↔ List.Forall₂ (fun x y => f x = .ok y) xs ys := by
  constructor
  · intro done
    induction xs generalizing ys with
    | nil =>
      cases done
      exact .nil
    | cons x xs ih =>
      rw [List.mapM_cons] at done
      obtain ⟨y, here, done⟩ := ok_of_bind done
      obtain ⟨ys, later, done⟩ := ok_of_bind done
      cases done
      exact .cons here (ih later)
  · intro each
    induction each with
    | nil => rfl
    | cons here _ ih =>
      rw [List.mapM_cons, here, ih]
      rfl

/-- Members are viewed one by one and put into a map in the order of the text. -/
theorem foldlM_insert_iff {α : Type} {view : Json → Except Cause α} {ms : List (String × Json)}
    {d e : Dict String α} :
    ms.foldlM (fun d (name, x) => return Dict.insert d name (← view x)) d = .ok e ↔
      ∃ es, List.Forall₂ (Entries.Same fun x y => view x = .ok y) ms es ∧
        es.foldl (fun d e => d.insert e.1 e.2) d = e := by
  constructor
  · intro done
    induction ms generalizing d with
    | nil =>
      cases done
      exact ⟨[], .nil, rfl⟩
    | cons m ms ih =>
      rw [List.foldlM_cons] at done
      obtain ⟨d', here, done⟩ := ok_of_bind done
      obtain ⟨a, viewed, here⟩ := ok_of_bind here
      cases here
      obtain ⟨es, later, built⟩ := ih done
      exact ⟨(m.1, a) :: es, .cons ⟨rfl, viewed⟩ later, built⟩
  · rintro ⟨es, each, rfl⟩
    induction each generalizing d with
    | nil => rfl
    | @cons m n ms es first _ ih =>
      obtain ⟨name, x⟩ := m
      obtain ⟨_, y⟩ := n
      obtain ⟨⟨⟩, here⟩ := first
      rw [List.foldlM_cons]
      simp only [here, bind, Except.bind]
      exact ih

theorem Dict.entries_foldl_insert {α : Type} (entries : List (String × α)) (d : Dict String α) :
    (entries.foldl (fun d e => d.insert e.1 e.2) d).entries =
      entries.foldl (fun sorted (key, value) => Entries.insert key value sorted) d.entries := by
  induction entries generalizing d with
  | nil => rfl
  | cons e entries ih => exact ih _

theorem Dict.foldl_insert_entries {α : Type} (d : Dict String α) :
    d.entries.foldl (fun d e => d.insert e.1 e.2) Dict.empty = d :=
  Dict.ext <| (Dict.entries_foldl_insert _ _).trans (Entries.ofList_of_ascending d.ascending)

theorem choiceOf_get {first : String} {others : List String} (differ : (first :: others).Nodup)
    (i : Fin (others.length + 1)) :
    Shape.choiceOf first others ((first :: others).get i) = .ok i := by
  have found : (first :: others).finIdxOf? ((first :: others).get i) = some i := by
    refine List.finIdxOf?_eq_some_iff.mpr ⟨rfl, fun j before same => ?_⟩
    exact List.pairwise_iff_getElem.mp differ j i j.isLt i.isLt before same
  rw [Shape.choiceOf, found]

mutual

/-- What is left of a value is viewed in its document. -/
theorem Shape.view_json (kept : Kept) (s : Shape) (v : s.Val) (proper : s.Proper) :
    s.view kept (s.json v) = .ok (s.settle v) := by
  match s, v with
  | .text, _ | .flag, _ => rfl
  | .int width, v => exact width.intOf_toInt v
  | .any, v => exact congrArg Except.ok (Value.ofJson_json v)
  | .choice first others, i => exact choiceOf_get proper i
  | .list item, v =>
    exact mapM_ok_iff.mpr (forall₂_map_map fun x _ => item.view_json kept x proper)
  | .dict item, v =>
    have each : ∀ e ∈ Dict.entries v, Entries.Same (fun x y => item.view kept x = .ok y)
        (e.1, item.json e.2) (e.1, item.settle e.2) :=
      fun e _ => ⟨rfl, item.view_json kept e.2 proper⟩
    exact foldlM_insert_iff.mpr
      ⟨_, forall₂_map_map each, Dict.foldl_insert_entries (Dict.map item.settle v)⟩
  | .record noun fields, v => exact view_object_iff.mpr (fields.takes_members kept v proper)

/-- Each field takes its value from what it has written. -/
theorem Fields.takes_members (kept : Kept) (fields : Fields) (v : fields.Val)
    (proper : fields.Proper) : fields.Takes kept (fields.members v) (fields.settle v) := by
  match fields, v with
  | .nil, _ => trivial
  | .cons field shape rest, (v, vs) =>
    constructor
    · rw [Fields.own_members proper]
      cases given : field.presence.given v with
      | none =>
        have absent := Presence.absent_of_given given
        rw [← Presence.settle_of_absent given] at absent
        exact ⟨none, .absent, absent⟩
      | some x =>
        have viewed := Presence.view_of_given given (shape.view_json kept x proper.1)
        exact ⟨_, .present viewed, rfl⟩
    · rw [Fields.others_members proper]
      exact rest.takes_members kept vs proper.2.2

end

end AdmissionGuest
