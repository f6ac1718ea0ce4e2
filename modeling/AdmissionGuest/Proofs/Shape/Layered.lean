import AdmissionGuest.Proofs.Shape.Canonical
import AdmissionGuest.Proofs.Shape.Place
/-!
Documents that are held in memory, with a part left open. When such a document is put in order, the
part stays where it is if it counts, that is, if no later member has its name; the other parts stay
what they are whatever the part is. What a shape makes of the document is then decided by what the
shape of the part makes of the part.
-/

namespace AdmissionGuest

namespace Entries

variable {κ α : Type} [Ord κ] [Std.LawfulEqOrd κ] {key : κ}

theorem insert_open (key : κ) (sorted : List (κ × α)) :
    ∃ before after, (∀ e ∈ before, e.1 ≠ key) ∧
      ∀ value, insert key value sorted = before ++ (key, value) :: after := by
  induction sorted with
  | nil => exact ⟨[], [], List.forall_mem_nil _, fun value => rfl⟩
  | cons e rest ih =>
    cases order : compare key e.1 with
    | lt =>
      exact ⟨[], e :: rest, List.forall_mem_nil _, fun value => by simp only [insert, order]; rfl⟩
    | eq => exact ⟨[], rest, List.forall_mem_nil _, fun value => by simp only [insert, order]; rfl⟩
    | gt =>
      obtain ⟨before, after, others, same⟩ := ih
      refine ⟨e :: before, after, List.forall_mem_cons.mpr ⟨?_, others⟩, fun value => ?_⟩
      · rintro rfl
        cases Std.ReflOrd.compare_self.symm.trans order
      · simp only [insert, order, same]
        rfl

theorem insert_beside {other : κ} (differ : other ≠ key) (y : α) (after : List (κ × α))
    {before : List (κ × α)} (others : ∀ e ∈ before, e.1 ≠ key) :
    ∃ before' after', (∀ e ∈ before', e.1 ≠ key) ∧
      ∀ value, insert other y (before ++ (key, value) :: after) =
        before' ++ (key, value) :: after' := by
  induction before with
  | nil =>
    cases order : compare other key with
    | lt =>
      exact ⟨[(other, y)], after, List.forall_mem_cons.mpr ⟨differ, nofun⟩, fun value => by
        simp only [List.nil_append, insert, order]; rfl⟩
    | eq => exact absurd (Std.LawfulEqCmp.eq_of_compare order) differ
    | gt => exact ⟨[], insert other y after, nofun, fun value => by
        simp only [List.nil_append, insert, order]⟩
  | cons e before ih =>
    obtain ⟨first, later⟩ := List.forall_mem_cons.mp others
    cases order : compare other e.1 with
    | lt =>
      exact ⟨(other, y) :: e :: before, after, List.forall_mem_cons.mpr ⟨differ, others⟩,
        fun value => by simp only [List.cons_append, insert, order]⟩
    | eq =>
      exact ⟨(other, y) :: before, after, List.forall_mem_cons.mpr ⟨differ, later⟩,
        fun value => by simp only [List.cons_append, insert, order]⟩
    | gt =>
      obtain ⟨before', after', others', same⟩ := ih later
      exact ⟨e :: before', after', List.forall_mem_cons.mpr ⟨first, others'⟩,
        fun value => by simp only [List.cons_append, insert, order, same]⟩

/-- An entry that is not replaced stands where its value is of no matter. -/
theorem ofList_open (earlier : List (κ × α)) {later : List (κ × α)} (last : ∀ e ∈ later, e.1 ≠ key) :
    ∃ before after, (∀ e ∈ before, e.1 ≠ key) ∧
      ∀ value, ofList (earlier ++ (key, value) :: later) = before ++ (key, value) :: after := by
  obtain ⟨before, after, others, same⟩ := insert_open key (ofList earlier)
  have run (value : α) : ofList (earlier ++ (key, value) :: later) =
      later.foldl (fun sorted e => insert e.1 e.2 sorted) (before ++ (key, value) :: after) := by
    rw [ofList, List.foldl_append, List.foldl_cons]
    exact congrArg (later.foldl _) (same value)
  simp only [run]
  clear run same
  induction later generalizing before after with
  | nil => exact ⟨before, after, others, fun value => rfl⟩
  | cons e later ih =>
    obtain ⟨differ, last⟩ := List.forall_mem_cons.mp last
    obtain ⟨before', after', others', same⟩ := insert_beside differ e.2 after others
    simp only [List.foldl_cons, same]
    exact ih last before' after' others'

end Entries

namespace Json

/-- What surrounds a part of a document, on one level. -/
inductive Layer where
  | item (before after : List Json)
  | member (before : List (String × Json)) (name : String) (after : List (String × Json))

namespace Layer

def fill : Layer → Json → Json
  | item before after, x => list (before ++ x :: after)
  | member before name after, x => object (before ++ (name, x) :: after)

/-- The step into a layer. -/
def step : Layer → Step
  | item before _ => .item before.length
  | member _ name _ => .member name

/-- Whether the part counts: no later member has its name. -/
def Counts : Layer → Prop
  | item _ _ => True
  | member _ name after => ∀ m ∈ after, m.1 ≠ name

/-- Whether the part is found: no earlier member has its name. -/
def Found : Layer → Prop
  | item _ _ => True
  | member before name _ => ∀ m ∈ before, m.1 ≠ name

theorem fill_ne_null (f : Layer) (x : Json) : f.fill x ≠ .null := by
  cases f <;> exact nofun

/-- Putting a document in order leaves the part that counts where it is found. -/
theorem canonical_fill {f : Layer} (counts : f.Counts) :
    ∃ g : Layer, g.step = f.step ∧ g.Found ∧ ∀ x, (f.fill x).canonical = g.fill x.canonical := by
  cases f with
  | item before after =>
    refine ⟨.item (before.map canonical) (after.map canonical), ?_, trivial, fun x => ?_⟩
    · rw [step, step, List.length_map]
    · rw [fill, canonical, canonicalItems_eq_map, List.map_append, List.map_cons]
      rfl
  | member before name after =>
    have last : ∀ e ∈ canonicalMembers after, e.1 ≠ name := by
      rw [canonicalMembers_eq_map, List.forall_mem_map]
      exact counts
    obtain ⟨before', after', others, same⟩ :=
      Entries.ofList_open (canonicalMembers before) last
    refine ⟨.member before' name after', rfl, others, fun x => ?_⟩
    rw [fill, canonical, fill, ← same, canonicalMembers_eq_map, canonicalMembers_eq_map,
      canonicalMembers_eq_map, List.map_append, List.map_cons]

section Lookup

variable {before after : List (String × Json)} {name : String}

theorem get?_fill (found : (member before name after).Found) (x : Json) :
    ((member before name after).fill x).get? name = some x := by
  have passed : before.find? (fun m => m.1 == name) = none :=
    List.find?_eq_none.mpr fun m here => by simpa using found m here
  rw [fill, get?, List.find?_append, passed, Option.none_or, List.find?_cons_of_pos (by simp)]
  rfl

/-- Beside the name of the part, nothing depends on it. -/
theorem get?_fill_other {other : String} (differ : other ≠ name) (x x' : Json) :
    ((member before name after).fill x).get? other =
      ((member before name after).fill x').get? other := by
  have passed (x : Json) : ((name, x) :: after).find? (fun m => m.1 == other) =
      after.find? fun m => m.1 == other :=
    List.find?_cons_of_neg (by simpa using differ.symm)
  simp only [fill, get?, List.find?_append, passed]

end Lookup

end Layer

/-- What surrounds a part of a document, from the outside in. -/
def fill (layers : List Layer) (x : Json) : Json := layers.foldr Layer.fill x

theorem fill_ne_null (layers : List Layer) {x : Json} (some : x ≠ .null) :
    fill layers x ≠ .null := by
  cases layers with
  | nil => exact some
  | cons f layers => exact f.fill_ne_null _

theorem canonical_fill {layers : List Layer} (counts : ∀ f ∈ layers, f.Counts) :
    ∃ ordered : List Layer, ordered.map Layer.step = layers.map Layer.step ∧
      (∀ f ∈ ordered, f.Found) ∧ ∀ x, (fill layers x).canonical = fill ordered x.canonical := by
  induction layers with
  | nil => exact ⟨[], rfl, nofun, fun x => rfl⟩
  | cons f layers ih =>
    obtain ⟨first, later⟩ := List.forall_mem_cons.mp counts
    obtain ⟨g, step, found, same⟩ := Layer.canonical_fill first
    obtain ⟨ordered, steps, founds, sames⟩ := ih later
    refine ⟨g :: ordered, ?_, List.forall_mem_cons.mpr ⟨found, founds⟩, fun x => ?_⟩
    · rw [List.map_cons, step, steps, List.map_cons]
    · exact (same _).trans (congrArg g.fill (sames x))

end Json

/-- Values are viewed from documents that are kept somewhere. -/
@[reducible] def Maker.viewing : Maker Kept Json where
  absent := .null
  make kept s j := s.view kept j
  makeField := Fields.viewing
  makeField_iff some := Shape.viewing_iff some

namespace Shape

/-- Whether a part of documents of a shape is viewed by another shape; and the way to what is found
there, under the names that are written. -/
inductive Reaches : Shape → List Json.Layer → List Step → Shape → Prop where
  | here {s : Shape} : Reaches s [] [] s
  /-- the value of a member of a field -/
  | member {noun : String} {fields : Fields} {before after : List (String × Json)} {name : String}
    {field : Field} {shape s : Shape} {layers : List Json.Layer} {path : List Step}
    (known : fields.find? name = some (field, shape)) (inner : Reaches shape layers path s) :
    Reaches (.record noun fields) (.member before name after :: layers) (.member field.name :: path) s
  /-- the value of a field in a record that is written as a list -/
  | field {noun : String} {fields : Fields} {before after : List Json} {field : Field}
    {shape s : Shape} {layers : List Json.Layer} {path : List Step}
    (known : fields.at? before.length = some (field, shape)) (inner : Reaches shape layers path s) :
    Reaches (.record noun fields) (.item before after :: layers) (.member field.name :: path) s
  | item {before after : List Json} {item s : Shape} {layers : List Json.Layer} {path : List Step}
    (inner : Reaches item layers path s) :
    Reaches (.list item) (.item before after :: layers) (.item before.length :: path) s

section OneLevel

variable {kept : Kept} {noun : String} {fields : Fields} {field : Field} {s : Shape}

theorem reaches_member {before after : List (String × Json)} {name : String}
    (proper : fields.Proper) (known : fields.find? name = some (field, s)) :
    Opens .viewing (.record noun fields) kept (Json.Layer.member before name after).fill
      [.member field.name] s := by
  have single (x : Json) (v : fields.Val) :
      (record noun fields).view kept ((Json.Layer.member before name after).fill x) = .ok v ↔
        fields.Yields (Fields.viewing kept) ((name, x) :: (before ++ after)) v := by
    refine view_object_iff.trans (fields.takes_iff_yields.trans ?_)
    exact ⟨fun yields => yields.perm List.perm_middle,
      fun yields => yields.perm List.perm_middle.symm⟩
  exact opens_of_field proper single (fields.yields_open (Fields.viewing kept) known _)

theorem reaches_field {before after : List Json} (proper : fields.Proper)
    (known : fields.at? before.length = some (field, s)) :
    Opens .viewing (.record noun fields) kept (Json.Layer.item before after).fill
      [.member field.name] s :=
  opens_of_field proper (fun _ _ => view_list_iff)
    (fields.yieldsItems_open (Fields.viewing kept) before after known)

theorem reaches_item {before after : List Json} :
    Opens .viewing (.list s) kept (Json.Layer.item before after).fill [.item before.length] s := by
  rcases mapM_open (f := s.view kept) before after with never | ⟨bs, as, each, _, views⟩
  · exact .shut fun x v _ viewed => never x v viewed
  · rw [each.length_eq]
    exact opens_of_item views

end OneLevel

theorem Reaches.opens {s t : Shape} {layers : List Json.Layer} {path : List Step}
    (within : Reaches s layers path t) (proper : s.Proper) (kept : Kept) :
    Opens .viewing s kept (Json.fill layers) path t := by
  induction within generalizing kept with
  | here => exact opens_here
  | @member _ _ _ _ _ _ _ _ layers _ known _ ih =>
    exact (reaches_member proper known).trans
      (fun kept => ih (Fields.proper_of_find? _ proper known) kept) fun x => Json.fill_ne_null layers
  | @field _ _ _ _ _ _ _ layers _ known _ ih =>
    exact (reaches_field proper known).trans
      (fun kept => ih (Fields.proper_of_at? _ proper known) kept) fun x => Json.fill_ne_null layers
  | @item _ _ _ _ layers _ _ ih =>
    exact reaches_item.trans (fun kept => ih proper kept) fun x => Json.fill_ne_null layers

end Shape

end AdmissionGuest
