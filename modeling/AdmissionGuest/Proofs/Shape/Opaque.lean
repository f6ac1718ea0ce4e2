import AdmissionGuest.Proofs.Shape.Layered
/-!
Documents that are read as they are, with a part left open. The document is read if the part is, and
what is read has the part at its place. The part counts unless another member of the same name comes
later.
-/

namespace AdmissionGuest

open Spelling

namespace Spelling

/-! What a spelled document is read as -/

/-- What a member is read as. -/
def memberOf (reader : Reader Json) (m : Member Spelling) : Except Cause (String × Json) := do
  return (← textOf m.name, ← reader.on m.value)

theorem memberOf_iff {reader : Reader Json} {m : Member Spelling} {e : String × Json} :
    memberOf reader m = .ok e ↔ textOf m.name = .ok e.1 ∧ reader.on m.value = .ok e.2 := by
  unfold memberOf
  constructor
  · intro read
    obtain ⟨name, named, read⟩ := ok_of_bind read
    obtain ⟨x, here, read⟩ := ok_of_bind read
    cases read
    exact ⟨named, here⟩
  · rintro ⟨named, here⟩
    rw [named, here]
    rfl

theorem stepOver_keepOver_iff {reader : Reader Json} {m : Member Spelling}
    {before kept : List (String × Json)} :
    stepOver (keepOver reader) before m = .ok kept ↔
      ∃ e, memberOf reader m = .ok e ∧ kept = e :: before := by
  rw [stepOver, memberOf]
  cases textOf m.name with
  | error cause =>
    constructor
    · rintro ⟨⟩
    · rintro ⟨_, ⟨⟩, _⟩
  | ok name =>
    change (fun x => (name, x) :: before) <$> reader.on m.value = .ok kept ↔
      ∃ e, Prod.mk name <$> reader.on m.value = .ok e ∧ _
    simp only [map_ok_iff]
    constructor
    · rintro ⟨x, read, rfl⟩
      exact ⟨(name, x), ⟨x, read, rfl⟩, rfl⟩
    · rintro ⟨_, ⟨x, read, rfl⟩, rfl⟩
      exact ⟨x, read, rfl⟩

/-- The members of an object are kept in their order. -/
theorem foldlM_keepOver_iff {reader : Reader Json} {ms : List (Member Spelling)}
    {before kept : List (String × Json)} :
    ms.foldlM (stepOver (keepOver reader)) before = .ok kept ↔
      ∃ es, ms.mapM (memberOf reader) = .ok es ∧ kept = es.reverse ++ before := by
  induction ms generalizing before with
  | nil =>
    constructor
    · rintro ⟨⟩
      exact ⟨[], rfl, rfl⟩
    · rintro ⟨_, ⟨⟩, rfl⟩
      rfl
  | cons m ms ih =>
    rw [List.foldlM_cons, List.mapM_cons]
    constructor
    · intro run
      obtain ⟨next, here, run⟩ := ok_of_bind run
      obtain ⟨e, read, rfl⟩ := stepOver_keepOver_iff.mp here
      obtain ⟨es, others, rfl⟩ := ih.mp run
      refine ⟨e :: es, ?_, by rw [List.reverse_cons, List.append_assoc, List.singleton_append]⟩
      rw [read, others]
      rfl
    · rintro ⟨es, read, rfl⟩
      obtain ⟨e, here, read⟩ := ok_of_bind read
      obtain ⟨es, others, read⟩ := ok_of_bind read
      cases read
      rw [stepOver_keepOver_iff.mpr ⟨e, here, rfl⟩]
      exact ih.mpr
        ⟨es, others, by rw [List.reverse_cons, List.append_assoc, List.singleton_append]⟩

theorem read_number_iff {depth : Nat} {n : Numeral} {j : Json} :
    (Json.read depth).on (.number n) = .ok j ↔ ∃ x, numberOf n = .ok x ∧ j = .number x :=
  (read_finds depth _).ok_iff.trans map_ok_iff

section Nested

variable {depth : Nat} {inside : List Blank} {j : Json}

theorem read_list_iff {xs : List (Item Spelling)} :
    (Json.read (depth + 1)).on (.list inside xs) = .ok j ↔
      ∃ ys, (xs.mapM fun x => (Json.read depth).on x.value) = .ok ys ∧ j = .list ys :=
  (read_finds (depth + 1) _).ok_iff.trans map_ok_iff

theorem read_object_iff {ms : List (Member Spelling)} :
    (Json.read (depth + 1)).on (.object inside ms) = .ok j ↔
      ∃ es, ms.mapM (memberOf (Json.read depth)) = .ok es ∧ j = .object es := by
  refine (read_finds (depth + 1) _).ok_iff.trans (map_ok_iff.trans ?_)
  simp only [foldlM_keepOver_iff]
  constructor
  · rintro ⟨_, ⟨es, read, rfl⟩, rfl⟩
    exact ⟨es, read, by rw [List.append_nil, List.reverse_reverse]⟩
  · rintro ⟨es, read, rfl⟩
    exact ⟨_, ⟨es, read, rfl⟩, by rw [List.append_nil, List.reverse_reverse]⟩

end Nested

/-! Places -/

/-- What is read around a part, given what is spelled around it. -/
inductive Layer.Reads : Layer → Json.Layer → Prop where
  | item {inside : List Blank} {before after : List (Item Spelling)} {hole : Item Unit}
    {bs as : List Json} (length : bs.length = before.length) :
    Reads (.item inside before hole after) (.item bs as)
  | member {inside : List Blank} {before after : List (Member Spelling)} {hole : Member Unit}
    {bs as : List (String × Json)} {name : String} (named : textOf hole.name = .ok name)
    (names : List.Forall₂ (fun m e => textOf m.name = .ok e.1) after as) :
    Reads (.member inside before hole after) (.member bs name as)

/-- What documents are read as in which a part is left open. -/
inductive Holds (depth : Nat) (place : List Layer) : Prop where
  /-- what surrounds the part is at fault -/
  | shut (never : ∀ d j, (Json.read depth).on (fill place d) ≠ .ok j)
  /-- the part is put into what is read around it -/
  | put (inner : Nat) (layers : List Json.Layer) (around : List.Forall₂ Layer.Reads place layers)
    (reads : ∀ d j, (Json.read depth).on (fill place d) = .ok j ↔
      ∃ x, (Json.read inner).on d = .ok x ∧ j = Json.fill layers x)

theorem holds_item {depth : Nat} {inside : List Blank} {before after : List (Item Spelling)}
    {hole : Item Unit} : Holds depth [.item inside before hole after] := by
  cases depth with
  | zero => exact .shut fun d j read => nomatch (read_finds 0 _).ok_iff.mp read
  | succ depth =>
    rcases mapM_open (f := fun x : Item Spelling => (Json.read depth).on x.value) before after with
      never | ⟨bs, as, each, _, reads⟩
    · refine .shut fun d j read => ?_
      obtain ⟨ys, read, _⟩ := read_list_iff.mp read
      exact never _ ys read
    · refine .put depth [.item bs as] (.cons (.item each.length_eq.symm) .nil) fun d j => ?_
      refine read_list_iff.trans ?_
      simp only [reads]
      constructor
      · rintro ⟨_, ⟨x, read, rfl⟩, rfl⟩
        exact ⟨x, read, rfl⟩
      · rintro ⟨x, read, rfl⟩
        exact ⟨_, ⟨x, read, rfl⟩, rfl⟩

theorem holds_member {depth : Nat} {inside : List Blank} {before after : List (Member Spelling)}
    {hole : Member Unit} : Holds depth [.member inside before hole after] := by
  cases depth with
  | zero => exact .shut fun d j read => nomatch (read_finds 0 _).ok_iff.mp read
  | succ depth =>
    rcases mapM_open (f := memberOf (Json.read depth)) before after with
      never | ⟨bs, as, _, each, reads⟩
    · refine .shut fun d j read => ?_
      obtain ⟨es, read, _⟩ := read_object_iff.mp read
      exact never _ es read
    · cases named : textOf hole.name with
      | error cause =>
        refine .shut fun d j read => ?_
        obtain ⟨es, read, _⟩ := read_object_iff.mp read
        obtain ⟨e, here, _⟩ := (reads _ es).mp read
        exact nomatch named.symm.trans (memberOf_iff.mp here).1
      | ok name =>
        have names := each.imp fun m e read => (memberOf_iff.mp read).1
        refine .put depth [.member bs name as] (.cons (.member named names) .nil) fun d j => ?_
        refine read_object_iff.trans ?_
        simp only [reads, memberOf_iff]
        constructor
        · rintro ⟨_, ⟨⟨n, x⟩, ⟨named', read⟩, rfl⟩, rfl⟩
          cases named.symm.trans named'
          exact ⟨x, read, rfl⟩
        · rintro ⟨x, read, rfl⟩
          exact ⟨_, ⟨(name, x), ⟨named, read⟩, rfl⟩, rfl⟩

/-- Every place is open to what can be read there. -/
theorem holds (depth : Nat) (place : List Layer) : Holds depth place := by
  induction place generalizing depth with
  | nil =>
    exact .put depth [] .nil fun d j =>
      ⟨fun read => ⟨j, read, rfl⟩, fun ⟨_, read, same⟩ => same ▸ read⟩
  | cons f place ih =>
    have outer : Holds depth [f] := by
      cases f with
      | item => exact holds_item
      | member => exact holds_member
    cases outer with
    | shut never => exact .shut fun d j => never (fill place d) j
    | put middle layers around reads =>
      cases around with
      | @cons _ g _ _ first none =>
        cases none
        cases ih middle with
        | shut never =>
          refine .shut fun d j read => ?_
          obtain ⟨x, here, _⟩ := (reads (fill place d) j).mp read
          exact never d x here
        | put inner layers later reads' =>
          refine .put inner (g :: layers) (.cons first later) fun d j => ?_
          refine (reads (fill place d) j).trans ?_
          simp only [reads']
          constructor
          · rintro ⟨_, ⟨x, read, rfl⟩, rfl⟩
            exact ⟨x, read, rfl⟩
          · rintro ⟨x, read, rfl⟩
            exact ⟨_, ⟨x, read, rfl⟩, rfl⟩

section Parts

variable {depth : Nat} {place : List Layer} {d d' : Spelling} {j : Json}

/-- A document is read only if each of its parts is. -/
theorem part_read (read : (Json.read depth).on (fill place d) = .ok j) :
    ∃ inner x, (Json.read inner).on d = .ok x := by
  cases holds depth place with
  | shut never => exact absurd read (never d j)
  | put inner layers around reads =>
    obtain ⟨x, here, _⟩ := (reads d j).mp read
    exact ⟨inner, x, here⟩

/-- A part may be replaced by any other one that is read. -/
theorem part_replaced (read : (Json.read depth).on (fill place d) = .ok j)
    (part : ∀ inner, ∃ x, (Json.read inner).on d' = .ok x) :
    ∃ j', (Json.read depth).on (fill place d') = .ok j' := by
  cases holds depth place with
  | shut never => exact absurd read (never d j)
  | put inner layers around reads =>
    obtain ⟨x, here⟩ := part inner
    exact ⟨_, (reads d' _).mpr ⟨x, here, rfl⟩⟩

end Parts

/-- The way to a place, if what stands there counts: no later member of the same object has the same
name. -/
inductive Way : List Layer → List Step → Prop where
  | here : Way [] []
  | item {inside : List Blank} {before after : List (Item Spelling)} {hole : Item Unit}
    {place : List Layer} {path : List Step} (way : Way place path) :
    Way (.item inside before hole after :: place) (.item before.length :: path)
  | member {inside : List Blank} {before after : List (Member Spelling)} {hole : Member Unit}
    {name : String} {place : List Layer} {path : List Step} (named : textOf hole.name = .ok name)
    (last : ∀ m ∈ after, textOf m.name ≠ .ok name) (way : Way place path) :
    Way (.member inside before hole after :: place) (.member name :: path)

theorem Way.reads {place : List Layer} {path : List Step} (way : Way place path)
    {layers : List Json.Layer} (around : List.Forall₂ Layer.Reads place layers) :
    path = layers.map Json.Layer.step ∧ ∀ f ∈ layers, f.Counts := by
  induction way generalizing layers with
  | here =>
    cases around
    exact ⟨rfl, nofun⟩
  | item way ih =>
    cases around with
    | cons first later =>
      cases first with
      | item length =>
        obtain ⟨same, counts⟩ := ih later
        refine ⟨?_, List.forall_mem_cons.mpr ⟨trivial, counts⟩⟩
        rw [List.map_cons, same, Json.Layer.step, length]
  | member named last way ih =>
    cases around with
    | cons first later =>
      cases first with
      | @member _ _ _ _ _ as _ named' names =>
        cases named.symm.trans named'
        obtain ⟨same, counts⟩ := ih later
        refine ⟨congrArg (Step.member _ :: ·) same, List.forall_mem_cons.mpr ⟨?_, counts⟩⟩
        rintro e here rfl
        obtain ⟨index, here⟩ := List.mem_iff_getElem?.mp here
        obtain ⟨m, there, named'⟩ := exists_of_getElem? names.flip here
        exact last m (List.mem_of_getElem? there) named'

end Spelling

/-- Where a shape leads in a text, it leads in every document that has the same steps. -/
theorem Shape.Leads.reaches {s t : Shape} {place : List Layer} {path steps : List Step}
    (leads : Leads s place path t) (way : Way place steps) {layers : List Json.Layer}
    (same : layers.map Json.Layer.step = steps) : Reaches s layers path t := by
  induction leads generalizing steps layers with
  | here =>
    cases way
    cases List.map_eq_nil_iff.mp same
    exact .here
  | member named known leads ih =>
    cases way with
    | member named' last way =>
      obtain ⟨f, layers, rfl, step, others⟩ := List.map_eq_cons_iff.mp same
      cases f with
      | item => exact nomatch step
      | member before name after =>
        cases step
        cases named.symm.trans named'
        exact .member known (ih way others)
  | field known leads ih =>
    cases way with
    | item way =>
      obtain ⟨f, layers, rfl, step, others⟩ := List.map_eq_cons_iff.mp same
      cases f with
      | member => exact nomatch step
      | item before after =>
        rw [← Step.item.inj step] at known
        exact .field known (ih way others)
  | item leads ih =>
    cases way with
    | item way =>
      obtain ⟨f, layers, rfl, step, others⟩ := List.map_eq_cons_iff.mp same
      cases f with
      | member => exact nomatch step
      | item before after =>
        rw [← Step.item.inj step]
        exact .item (ih way others)

end AdmissionGuest
