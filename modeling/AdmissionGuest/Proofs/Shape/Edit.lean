import Mathlib.Data.List.Perm.Basic
import Mathlib.Logic.Relation
import AdmissionGuest.Proofs.Shape.Reading.SpelledRecord
import AdmissionGuest.Proofs.Shape.Written
/-!
Edits of a spelled document that a record does not see: another order of its members, members that
belong to no field, and null for optional members that are absent. They may be made in the document
itself or in any of its parts that is a record again. A member that is repeated, on the other hand,
is never passed over.
-/

namespace AdmissionGuest

open Spelling

namespace Spelling

/-- One edit of a document that is read by a shape. -/
inductive Edit : Shape → Spelling → Spelling → Prop where
  | order {noun : String} {fields : Fields} {inside : List Blank} {ms ms' : List (Member Spelling)}
    (perm : ms.Perm ms') :
    Edit (.record noun fields) (.object inside ms) (.object inside ms')
  /-- a member that belongs to no field, at any place -/
  | unknown {noun : String} {fields : Fields} {inside : List Blank}
    (before : List (Member Spelling)) (m : Member Spelling) (after : List (Member Spelling))
    {name : String} (named : textOf m.name = .ok name) (unknown : fields.find? name = none) :
    Edit (.record noun fields) (.object inside (before ++ after))
      (.object inside (before ++ m :: after))
  /-- null for an optional member of which there is none, at any place -/
  | null {noun : String} {fields : Fields} {inside : List Blank}
    (before : List (Member Spelling)) (m : Member Spelling) (after : List (Member Spelling))
    {name : String} {field : Field} {shape : Shape} (named : textOf m.name = .ok name)
    (known : fields.find? name = some (field, shape)) (optional : field.presence = .optional)
    (absent : ∀ o ∈ before ++ after, ∀ other, textOf o.name = .ok other →
      field.answersTo other = false)
    (null : m.value = .null) :
    Edit (.record noun fields) (.object inside (before ++ after))
      (.object inside (before ++ m :: after))
  /-- an edit of the value of a member -/
  | member {noun : String} {fields : Fields} {inside : List Blank}
    (before : List (Member Spelling)) (m : Member Spelling) (after : List (Member Spelling))
    {name : String} {field : Field} {shape : Shape} {value : Spelling}
    (named : textOf m.name = .ok name) (known : fields.find? name = some (field, shape))
    (inner : Edit shape m.value value) :
    Edit (.record noun fields) (.object inside (before ++ m :: after))
      (.object inside (before ++ { m with value } :: after))
  /-- an edit of the value of a field in a record that is written as a list -/
  | item {noun : String} {fields : Fields} {inside : List Blank}
    (before : List (Item Spelling)) (x : Item Spelling) (after : List (Item Spelling))
    {field : Field} {shape : Shape} {value : Spelling}
    (known : fields.at? before.length = some (field, shape)) (inner : Edit shape x.value value) :
    Edit (.record noun fields) (.list inside (before ++ x :: after))
      (.list inside (before ++ { x with value } :: after))

/-- Whether a document that is read by a shape, or a part of it that is a record again, has two
members of one field. -/
inductive Repeats : Shape → Spelling → Prop where
  | here {noun : String} {fields : Fields} {inside : List Blank} {ms : List (Member Spelling)}
    {m m' : Member Spelling} (both : [m, m'].Sublist ms) {name name' : String} {field : Field}
    {shape : Shape} (named : textOf m.name = .ok name) (named' : textOf m'.name = .ok name')
    (known : fields.find? name = some (field, shape))
    (known' : fields.find? name' = some (field, shape)) :
    Repeats (.record noun fields) (.object inside ms)
  | member {noun : String} {fields : Fields} {inside : List Blank} {ms : List (Member Spelling)}
    {m : Member Spelling} (inner : m ∈ ms) {name : String} {field : Field} {shape : Shape}
    (named : textOf m.name = .ok name) (known : fields.find? name = some (field, shape))
    (repeats : Repeats shape m.value) : Repeats (.record noun fields) (.object inside ms)
  | item {noun : String} {fields : Fields} {inside : List Blank} (before : List (Item Spelling))
    (x : Item Spelling) (after : List (Item Spelling)) {field : Field} {shape : Shape}
    (known : fields.at? before.length = some (field, shape)) (repeats : Repeats shape x.value) :
    Repeats (.record noun fields) (.list inside (before ++ x :: after))

end Spelling

namespace Fields

variable {depth : Nat} {fields : Fields} {v : fields.Val} {ms ms' : List (Member Spelling)}
  {m : Member Spelling} {name : String}

/-- Whether the fields have these values by the members of a spelled object. -/
def Collects (fields : Fields) (depth : Nat) (ms : List (Member Spelling)) (v : fields.Val) :
    Prop :=
  ∃ es, entries ms = .ok es ∧ fields.Yields (reading depth) es v

theorem entries_iff {es : List (String × Spelling)} :
    entries ms = .ok es ↔ List.Forall₂ (fun m e => (fun name => (name, m.value)) <$> textOf m.name =
      (.ok e : Except Cause (String × Spelling))) ms es :=
  mapM_ok_iff

theorem Collects.perm (collects : fields.Collects depth ms v) (perm : ms.Perm ms') :
    fields.Collects depth ms' v := by
  obtain ⟨es, named, yields⟩ := collects
  obtain ⟨es', named, perm⟩ := List.perm_comp_forall₂ perm.symm (entries_iff.mp named)
  exact ⟨es', entries_iff.mpr named, yields.perm perm.symm⟩

theorem collects_perm (perm : ms.Perm ms') :
    fields.Collects depth ms v ↔ fields.Collects depth ms' v :=
  ⟨fun collects => collects.perm perm, fun collects => collects.perm perm.symm⟩

theorem entries_cons {es : List (String × Spelling)} (named : textOf m.name = .ok name) :
    entries (m :: ms) = .ok es ↔
      ∃ others, entries ms = .ok others ∧ es = (name, m.value) :: others := by
  constructor
  · intro entered
    cases entries_iff.mp entered with
    | cons first others =>
      rw [named] at first
      cases first
      exact ⟨_, entries_iff.mpr others, rfl⟩
  · rintro ⟨others, entered, rfl⟩
    refine entries_iff.mpr (.cons ?_ (entries_iff.mp entered))
    rw [named]
    rfl

theorem collects_cons (named : textOf m.name = .ok name) :
    fields.Collects depth (m :: ms) v ↔
      ∃ es, entries ms = .ok es ∧ fields.Yields (reading depth) ((name, m.value) :: es) v := by
  constructor
  · rintro ⟨_, entered, yields⟩
    obtain ⟨es, others, rfl⟩ := (entries_cons named).mp entered
    exact ⟨es, others, yields⟩
  · rintro ⟨es, others, yields⟩
    exact ⟨_, (entries_cons named).mpr ⟨es, others, rfl⟩, yields⟩

/-- A member stands in its object wherever it is put. -/
theorem collects_middle (before after : List (Member Spelling))
    (named : textOf m.name = .ok name) :
    fields.Collects depth (before ++ m :: after) v ↔
      ∃ es, entries (before ++ after) = .ok es ∧
        fields.Yields (reading depth) ((name, m.value) :: es) v :=
  (collects_perm List.perm_middle).trans (collects_cons named)

theorem named_of_entries {es : List (String × Spelling)} (named : entries ms = .ok es)
    {e : String × Spelling} (here : e ∈ es) : ∃ m ∈ ms, textOf m.name = .ok e.1 := by
  have each := entries_iff.mp named
  clear named
  induction each with
  | nil => exact nomatch here
  | @cons m _ ms es first _ ih =>
    rcases List.mem_cons.mp here with rfl | later
    · refine ⟨m, List.mem_cons_self, ?_⟩
      cases text : textOf m.name with
      | error cause =>
        rw [text] at first
        exact nomatch first
      | ok name =>
        rw [text] at first
        cases first
        rfl
    · obtain ⟨m, inside, named⟩ := ih later
      exact ⟨m, List.mem_cons_of_mem _ inside, named⟩

end Fields

namespace Shape

variable {depth : Nat} {p : Presence} {s : Shape} {d d' : Spelling}

theorem readOptional_on {α : Type} {item : Reader α} (uniform : item.Uniform) (some : d ≠ .null)
    {w : Option α} :
    (readOptional item).on d = .ok w ↔ ∃ a, item.on d = .ok a ∧ w = .some a := by
  rw [(readOptional_finds uniform d).ok_iff]
  have mapped : (Option.some <$> item.on d : Except Cause (Option α)) = .ok w ↔
      ∃ a, item.on d = .ok a ∧ w = .some a := by
    cases item.on d with
    | error cause => exact ⟨nofun, nofun⟩
    | ok a =>
      constructor
      · rintro ⟨⟩
        exact ⟨a, rfl, rfl⟩
      · rintro ⟨_, ⟨⟩, rfl⟩
        rfl
  cases d with
  | null => exact absurd rfl some
  | flag | number | text | list | object => exact mapped

/-- What a field makes of a value other than null depends on what its shape makes of it. -/
theorem reading_alike (some : d ≠ .null) (some' : d' ≠ .null)
    (alike : ∀ w, (s.read depth).on d = .ok w ↔ (s.read depth).on d' = .ok w)
    (w : p.Val s.Val) :
    Fields.reading depth p s d = .ok w ↔ Fields.reading depth p s d' = .ok w := by
  have uniform := s.read_uniform depth
  cases p with
  | required | defaulted => exact alike w
  | optional =>
    refine (readOptional_on uniform some).trans (Iff.trans ?_ (readOptional_on uniform some').symm)
    exact exists_congr fun a => and_congr_left fun _ => alike a

theorem not_reading (some : d ≠ .null) (unread : ∀ w, (s.read depth).on d ≠ .ok w)
    (w : p.Val s.Val) : Fields.reading depth p s d ≠ .ok w := by
  cases p with
  | required | defaulted => exact unread w
  | optional =>
    intro read
    obtain ⟨a, here, _⟩ := (readOptional_on (s.read_uniform depth) some).mp read
    exact unread a here

/-- Null means of an optional member what its absence means. -/
theorem reading_null (w : Presence.Val .optional s.Val) :
    Fields.reading depth .optional s .null = .ok w ↔ absent? .optional s = .some w := by
  refine ((readOptional_finds (s.read_uniform depth) .null).ok_iff).trans ?_
  constructor
  · rintro ⟨⟩
    rfl
  · rintro ⟨⟩
    rfl

section Record

variable {noun : String} {fields : Fields} {v : fields.Val} {inside : List Blank}

theorem on_object_iff {ms : List (Member Spelling)} :
    ((record noun fields).read depth).on (.object inside ms) = .ok v ↔
      ∃ inner, depth = inner + 1 ∧ fields.Collects inner ms v := by
  cases depth with
  | zero =>
    refine iff_of_false (fun read => ?_) nofun
    exact nomatch (Fields.record_refuses (fun _ _ _ => rfl) fun _ _ _ => rfl).ok_iff.mp read
  | succ inner =>
    refine (Fields.record_on_object (fields.members_uniform inner)).trans ?_
    constructor
    · intro collects
      exact ⟨inner, rfl, collects⟩
    · rintro ⟨_, ⟨⟩, collects⟩
      exact collects

theorem on_list_iff {xs : List (Item Spelling)} :
    ((record noun fields).read depth).on (.list inside xs) = .ok v ↔
      ∃ inner, depth = inner + 1 ∧
        fields.YieldsItems (Fields.reading inner) (xs.map Item.value) v := by
  cases depth with
  | zero =>
    refine iff_of_false (fun read => ?_) nofun
    exact nomatch (Fields.record_refuses (fun _ _ _ => rfl) fun _ _ _ => rfl).ok_iff.mp read
  | succ inner =>
    refine (Fields.record_on_list (fields.members_uniform inner)).trans ?_
    constructor
    · intro yields
      exact ⟨inner, rfl, yields⟩
    · rintro ⟨_, ⟨⟩, yields⟩
      exact yields

/-- Nothing else is read as a record. -/
theorem not_on_other (object : ∀ inside ms, d ≠ .object inside ms)
    (list : ∀ inside xs, d ≠ .list inside xs) :
    ((record noun fields).read depth).on d ≠ .ok v := by
  have refuses : ((record noun fields).read depth).Finds d (.error .tooDeep) :=
    Fields.record_refuses (fun inside ms same => absurd same (object inside ms))
      fun inside xs same => absurd same (list inside xs)
  exact fun read => nomatch refuses.ok_iff.mp read

theorem objects_alike {ms ms' : List (Member Spelling)}
    (alike : ∀ inner, fields.Collects inner ms v ↔ fields.Collects inner ms' v) :
    ((record noun fields).read depth).on (.object inside ms) = .ok v ↔
      ((record noun fields).read depth).on (.object inside ms') = .ok v := by
  rw [on_object_iff, on_object_iff]
  exact exists_congr fun inner => and_congr_right fun _ => alike inner

end Record

end Shape

namespace Spelling

variable {s : Shape} {d d' : Spelling}

theorem Edit.some (edit : Edit s d d') : d ≠ .null ∧ d' ≠ .null := by
  cases edit <;> exact ⟨nofun, nofun⟩

theorem Repeats.some (repeats : Repeats s d) : d ≠ .null := by
  cases repeats <;> exact nofun

/-- An edit changes nothing of what is read. The induction is on where in the document it is made;
the cases are the kinds of edits, and the two ways in which a record is written. -/
theorem Edit.alike (edit : Edit s d d') (depth : Nat) (v : s.Val) :
    (s.read depth).on d = .ok v ↔ (s.read depth).on d' = .ok v := by
  induction edit generalizing depth with
  | order perm => exact Shape.objects_alike fun inner => Fields.collects_perm perm
  | unknown before m after named unknown =>
    refine Shape.objects_alike fun inner => ?_
    refine Iff.trans ?_ (Fields.collects_middle before after named).symm
    exact exists_congr fun es => and_congr_right fun _ => (Fields.yields_unknown unknown).symm
  | @null _ _ _ before m after name field shape named known optional absent null =>
    refine Shape.objects_alike fun inner => ?_
    refine Iff.trans ?_ (Fields.collects_middle before after named).symm
    refine exists_congr fun es => and_congr_right fun entered => ?_
    obtain ⟨_, _, _⟩ := field
    cases optional
    refine (Fields.yields_absent known (fun e here => ?_) fun w => ?_).symm
    · obtain ⟨o, inside, text⟩ := Fields.named_of_entries entered here
      exact absent o inside e.1 text
    · rw [null]
      exact Shape.reading_null w
  | @member _ _ _ before m after name field shape value named known inner ih =>
    refine Shape.objects_alike fun deeper => ?_
    have named' : textOf { m with value }.name = .ok name := named
    refine (Fields.collects_middle before after named).trans
      (Iff.trans ?_ (Fields.collects_middle before after named').symm)
    refine exists_congr fun es => and_congr_right fun _ => Fields.yields_value known ?_
    exact Shape.reading_alike inner.some.1 inner.some.2 (ih deeper)
  | @item _ _ _ before x after field shape value known inner ih =>
    refine Shape.on_list_iff.trans (Iff.trans ?_ Shape.on_list_iff.symm)
    refine exists_congr fun deeper => and_congr_right fun _ => ?_
    rw [List.map_append, List.map_append, List.map_cons, List.map_cons]
    refine Fields.yieldsItems_value fun field' shape' known' => ?_
    rw [List.length_map, known] at known'
    cases known'
    exact Shape.reading_alike inner.some.1 inner.some.2 (ih deeper)

/-- A document with a repeated member is not read. -/
theorem Repeats.unread (repeats : Repeats s d) (depth : Nat) (v : s.Val) :
    (s.read depth).on d ≠ .ok v := by
  induction repeats generalizing depth with
  | @here _ _ _ ms m m' both name name' field shape named named' known known' =>
    intro read
    obtain ⟨inner, _, collects⟩ := Shape.on_object_iff.mp read
    obtain ⟨others, perm⟩ := both.exists_perm_append
    obtain ⟨_, entered, yields⟩ := (Fields.collects_cons named).mp (collects.perm perm)
    obtain ⟨es, _, rfl⟩ := (Fields.entries_cons named').mp entered
    exact Fields.not_yields_twice known known' yields
  | @member _ _ _ ms m inner name field shape named known repeats ih =>
    intro read
    obtain ⟨deeper, _, collects⟩ := Shape.on_object_iff.mp read
    obtain ⟨before, after, rfl⟩ := List.append_of_mem inner
    obtain ⟨es, _, yields⟩ := (Fields.collects_middle before after named).mp collects
    exact Fields.not_yields_of_unread known (Shape.not_reading repeats.some (ih deeper)) yields
  | @item _ _ _ before x after field shape known repeats ih =>
    intro read
    obtain ⟨deeper, _, yields⟩ := Shape.on_list_iff.mp read
    rw [List.map_append, List.map_cons] at yields
    rw [← List.length_map Item.value] at known
    exact Fields.not_yieldsItems_of_unread known (Shape.not_reading repeats.some (ih deeper)) yields

end Spelling

end AdmissionGuest
