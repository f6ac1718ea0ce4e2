import AdmissionGuest.Proofs.Shape.Place
/-!
Other names of fields. A member may stand under any name of its field, in every record of a document
by itself: what is read is the same. But a field that is given under two names is not read at all.
What is written has the first names only.
-/

namespace AdmissionGuest

open Spelling

/-- The fields under their names, each with the other names it is read under. -/
def Fields.aliases : Fields → List (String × String)
  | .nil => []
  | .cons field _ rest => field.aliases.map (field.name, ·) ++ rest.aliases

/-- Whether two names belong to the same field. -/
def Fields.Same (fields : Fields) (name other : String) : Prop :=
  ∃ field shape, fields.find? name = some (field, shape) ∧ fields.find? other = some (field, shape)

/-- All names that the fields are read under. -/
def Fields.spelled : Fields → List String
  | .nil => []
  | .cons field _ rest => (field.name :: field.aliases) ++ rest.spelled

namespace Fields

variable {name other : String}

theorem answersTo_iff {field : Field} :
    field.answersTo name = true ↔ name ∈ field.name :: field.aliases := by
  rw [Field.answersTo, Bool.or_eq_true, beq_iff_eq, List.contains_iff_mem, List.mem_cons]

theorem names_subset_spelled (fields : Fields) : fields.names ⊆ fields.spelled := by
  cases fields with
  | nil => exact List.nil_subset _
  | cons field shape rest =>
    refine List.cons_subset.mpr ⟨List.mem_cons_self, ?_⟩
    exact fun n named => List.mem_append_right _ (rest.names_subset_spelled named)

/-- A field is read under its name and under its other names, and under nothing else. -/
theorem spelled_of_find? (fields : Fields) {field : Field} {shape : Shape}
    (known : fields.find? name = some (field, shape)) :
    name = field.name ∨ (field.name, name) ∈ fields.aliases := by
  match fields with
  | .nil => exact nomatch known
  | .cons f s rest =>
    simp only [find?] at known
    split at known
    next own =>
      cases known
      refine (List.mem_cons.mp (answersTo_iff.mp own)).imp_right fun listed => ?_
      exact List.mem_append_left _ (List.mem_map_of_mem listed)
    next => exact (rest.spelled_of_find? known).imp_right (List.mem_append_right _)

/-- If no name is used twice, another name belongs to its field, and nothing is written under it. -/
theorem same_of_alias (fields : Fields) (distinct : fields.spelled.Nodup)
    (listed : (name, other) ∈ fields.aliases) :
    fields.Same name other ∧ name ∈ fields.names ∧ other ∈ fields.spelled ∧
      other ∉ fields.names := by
  match fields with
  | .nil => exact nomatch listed
  | .cons f s rest =>
    obtain ⟨mine, theirs, apart⟩ := List.nodup_append.mp distinct
    rcases List.mem_append.mp listed with own | later
    · obtain ⟨_, here, same⟩ := List.mem_map.mp own
      cases same
      have answers : f.answersTo other = true := answersTo_iff.mpr (List.mem_cons_of_mem _ here)
      have spelled := List.mem_cons_of_mem f.name here
      refine ⟨⟨f, s, ?_, ?_⟩, List.mem_cons_self, List.mem_append_left _ spelled, fun written => ?_⟩
      · simp only [find?, f.answersTo_name, if_true]
      · simp only [find?, answers, if_true]
      · rcases List.mem_cons.mp written with first | written
        · exact (List.nodup_cons.mp mine).1 (first ▸ here)
        · exact apart _ spelled _ (rest.names_subset_spelled written) rfl
    · obtain ⟨⟨field, shape, known, known'⟩, named, spelled, unwritten⟩ :=
        rest.same_of_alias theirs later
      have others {n : String} (there : n ∈ rest.spelled) : f.answersTo n = false :=
        Bool.eq_false_iff.mpr fun own => apart _ (answersTo_iff.mp own) _ there rfl
      refine ⟨⟨field, shape, ?_, ?_⟩, List.mem_cons_of_mem _ named, List.mem_append_right _ spelled,
        fun written => ?_⟩
      · simpa only [find?, others (rest.names_subset_spelled named), Bool.false_eq_true, if_false]
          using known
      · simpa only [find?, others spelled, Bool.false_eq_true, if_false] using known'
      · rcases List.mem_cons.mp written with first | written
        · exact apart _ List.mem_cons_self _ spelled first.symm
        · exact unwritten written

end Fields

namespace Spelling

/-- One member somewhere in a document that is read by a shape gets another name of its field. -/
inductive Renames (s : Shape) : Spelling → Spelling → Prop where
  | mk {place : List Layer} {path : List Step} {noun : String} {fields : Fields}
    (leads : Shape.Leads s place path (.record noun fields)) {inside : List Blank}
    (before : List (Member Spelling)) (m : Member Spelling) (after : List (Member Spelling))
    {marks : List Mark} {name other : String} (named : textOf m.name = .ok name)
    (renamed : textOf marks = .ok other) (same : fields.Same name other) :
    Renames s (fill place (.object inside (before ++ m :: after)))
      (fill place (.object inside (before ++ { m with name := marks } :: after)))

/-- Somewhere in a document that is read by a shape, a field is given twice, be it under one name or
under two. -/
inductive Twice (s : Shape) : Spelling → Prop where
  | mk {place : List Layer} {path : List Step} {noun : String} {fields : Fields}
    (leads : Shape.Leads s place path (.record noun fields)) {inside : List Blank}
    {ms : List (Member Spelling)} {m m' : Member Spelling} (both : [m, m'].Sublist ms)
    {name name' : String} (named : textOf m.name = .ok name) (named' : textOf m'.name = .ok name')
    (same : fields.Same name name') : Twice s (fill place (.object inside ms))

variable {s : Shape} {d d' : Spelling}

theorem Renames.alike (renames : Renames s d d') (proper : s.Proper) (depth : Nat) (v : s.Val) :
    (s.read depth).on d = .ok v ↔ (s.read depth).on d' = .ok v := by
  obtain ⟨leads, before, m, after, named, renamed, same⟩ := renames
  obtain ⟨field, shape, known, known'⟩ := same
  refine leads.alike proper nofun nofun fun inner w => Shape.objects_alike fun deeper => ?_
  refine (Fields.collects_middle before after named).trans
    (Iff.trans ?_ (Fields.collects_middle before after (m := { m with name := _ }) renamed).symm)
  exact exists_congr fun es => and_congr_right fun _ => Fields.yields_rename known known'

theorem Twice.unread (twice : Twice s d) (proper : s.Proper) (depth : Nat) (v : s.Val) :
    (s.read depth).on d ≠ .ok v := by
  obtain ⟨leads, both, named, named', same⟩ := twice
  obtain ⟨field, shape, known, known'⟩ := same
  refine leads.unread proper nofun fun inner w => ?_
  exact (Repeats.here both named named' known known').unread inner w

end Spelling

/-! Documents that were read already -/

/-- Somewhere in a document that is viewed by a shape, a field is given under two names. -/
inductive Shape.Ambiguous (s : Shape) (j : Json) : Prop where
  | mk {path : List Step} {noun : String} {fields : Fields}
    (along : s.along? path = some (.record noun fields)) {ms : List (String × Json)}
    (found : j.follow? path = some (.object ms)) {name other : String} {x y : Json}
    (here : (name, x) ∈ ms) (there : (other, y) ∈ ms) (differ : name ≠ other)
    (same : fields.Same name other)

namespace Shape

variable {s : Shape} {j : Json}

theorem Ambiguous.not_viewed (ambiguous : s.Ambiguous j) (kept : Kept) (v : s.Val) :
    s.view kept j ≠ .ok v := by
  obtain ⟨along, found, here, there, differ, field, shape, known, known'⟩ := ambiguous
  intro viewed
  obtain ⟨w, part⟩ := view_part viewed along found nofun
  have yields := (Fields.takes_iff_yields _).mp (view_object_iff.mp part)
  exact Fields.not_yields_of_mem here there (fun same => differ (Prod.mk.inj same).1) known known'
    yields

/-- Every record that was written has its members under the names of its fields. -/
theorem names_written {noun : String} {fields : Fields} {path : List Step} {v : s.Val}
    (proper : s.Proper) (along : s.along? path = some (.record noun fields))
    (found : (s.json v).follow? path = some j) :
    ∃ ms, j = .object ms ∧ ∀ m ∈ ms, m.1 ∈ fields.names := by
  obtain ⟨w, rfl⟩ := json_part proper along found
  exact ⟨fields.members w, rfl, fun m => Fields.names_of_members⟩

end Shape

end AdmissionGuest
