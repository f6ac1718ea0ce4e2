import AdmissionGuest.Proofs.Shape.Along
import AdmissionGuest.Proofs.Shape.Edit
/-!
Parts of documents that are read by a shape of their own. What a shape makes of a document is what
it makes of the part, put into what surrounds the part, unless the surroundings are at fault. So
what holds of the part wherever it stands holds of the document.
-/

namespace AdmissionGuest

open Spelling

namespace Fields

variable {X : Type} (peek : (p : Presence) → (s : Shape) → X → Except Cause (p.Val s.Val))
  {field : Field} {shape : Shape}

/-- What is made of a place among others: nothing, whatever is there, or what is made of the item
that is there, put into what is made of the rest. -/
def Opening {V W : Type} (made : X → V → Prop) (item : X → W → Prop) (gives : W → V → Prop) :
    Prop :=
  (∀ x v, ¬ made x v) ∨
    ∃ put : W → V, (∀ x v, made x v ↔ ∃ w, item x w ∧ v = put w) ∧ ∀ w, gives w (put w)

section Opening

variable {V W U : Type} {made : X → V × U → Prop}

/-- The place is the first one. -/
theorem Opening.first {item : X → V → Prop} {others : U → Prop} {gives : V → V × U → Prop}
    (split : ∀ x v u, made x (v, u) ↔ item x v ∧ others u)
    (unique : ∀ u u', others u → others u' → u = u') (given : ∀ v u, gives v (v, u)) :
    Opening made item gives := by
  by_cases some : ∃ u, others u
  · obtain ⟨u, rest⟩ := some
    refine .inr ⟨fun v => (v, u), fun x (v, u') => ?_, fun v => given v u⟩
    rw [split]
    constructor
    · rintro ⟨here, rest'⟩
      exact ⟨v, here, by rw [unique u' u rest' rest]⟩
    · rintro ⟨w, here, same⟩
      cases same
      exact ⟨here, rest⟩
  · exact .inl fun x (v, u) all => some ⟨u, ((split x v u).mp all).2⟩

/-- The place is after the first one. -/
theorem Opening.later {first : V → Prop} {others : X → U → Prop} {item : X → W → Prop}
    {gives : W → U → Prop} {gives' : W → V × U → Prop}
    (split : ∀ x v u, made x (v, u) ↔ first v ∧ others x u)
    (unique : ∀ v v', first v → first v' → v = v') (given : ∀ w v u, gives w u → gives' w (v, u))
    (opening : Opening others item gives) : Opening made item gives' := by
  by_cases some : ∃ v, first v
  · obtain ⟨v, here⟩ := some
    rcases opening with never | ⟨put, reads, gives⟩
    · exact .inl fun x (v, u) all => never x u ((split x v u).mp all).2
    · refine .inr ⟨fun w => (v, put w), fun x (v', u) => ?_, fun w => given w v _ (gives w)⟩
      rw [split, reads]
      constructor
      · rintro ⟨here', w, found, rfl⟩
        exact ⟨w, found, by rw [unique v' v here' here]⟩
      · rintro ⟨w, found, same⟩
        cases same
        exact ⟨here, w, found, rfl⟩
  · exact .inl fun x (v, u) all => some ⟨v, ((split x v u).mp all).1⟩

end Opening

theorem given_cons {p : Presence} {s : Shape} {name : String} {x : X} {ms : List (String × X)}
    {v : p.Val s.Val} :
    Given peek p s ((name, x) :: ms) v ↔ peek p s x = .ok v ∧ ms = [] := by
  constructor
  · intro given
    cases given with
    | present found => exact ⟨found, rfl⟩
  · rintro ⟨found, rfl⟩
    exact .present found

/-- What a record makes of a member, put into what it makes of the other members. -/
theorem yields_open (fields : Fields) {name : String}
    (known : fields.find? name = some (field, shape)) (ms : List (String × X)) :
    Opening (fun x v => fields.Yields peek ((name, x) :: ms) v)
      (fun x w => peek field.presence shape x = .ok w)
      (fun w v => fields.Gives shape field.name (field.presence.given w) v) := by
  match fields with
  | .nil => exact nomatch known
  | .cons f s rest =>
    by_cases own : f.answersTo name = true
    · simp only [find?, own, if_true, Option.some.injEq, Prod.mk.injEq] at known
      obtain ⟨rfl, rfl⟩ := known
      have split (x : X) (v : f.presence.Val s.Val) (vs : rest.Val) :
          (cons f s rest).Yields peek ((name, x) :: ms) (v, vs) ↔
            peek f.presence s x = .ok v ∧ f.own ms = [] ∧ rest.Yields peek (f.others ms) vs := by
        rw [← and_assoc, ← given_cons peek, ← Field.own_cons (m := (name, x)) own,
          ← Field.others_cons_own (m := (name, x)) own]
        exact Iff.rfl
      refine .first split (fun _ _ one other => rest.yields_unique one.2 other.2) fun _ _ => ?_
      obtain ⟨_, _, _⟩ := f
      exact .here rfl
    · rw [Bool.not_eq_true] at own
      simp only [find?, own, Bool.false_eq_true, if_false] at known
      have split (x : X) (v : f.presence.Val s.Val) (vs : rest.Val) :
          (cons f s rest).Yields peek ((name, x) :: ms) (v, vs) ↔
            Given peek f.presence s (f.own ms) v ∧
              rest.Yields peek ((name, x) :: f.others ms) vs := by
        rw [← Field.own_cons_other (m := (name, x)) own, ← Field.others_cons (m := (name, x)) own]
        exact Iff.rfl
      exact .later split (fun _ _ one other => one.unique other) (fun _ _ _ gives => .there gives)
        (rest.yields_open known (f.others ms))

/-- What a record makes of an item, put into what it makes of the other items. -/
theorem yieldsItems_open (fields : Fields) (before after : List X)
    (known : fields.at? before.length = some (field, shape)) :
    Opening (fun x v => fields.YieldsItems peek (before ++ x :: after) v)
      (fun x w => peek field.presence shape x = .ok w)
      (fun w v => fields.Gives shape field.name (field.presence.given w) v) := by
  match fields, before with
  | .nil, _ => exact nomatch known
  | .cons f s rest, [] =>
    cases known
    refine .first (fun _ _ _ => Iff.rfl) (fun _ _ one other => rest.yieldsItems_unique one other)
      fun _ _ => ?_
    obtain ⟨_, _, _⟩ := field
    exact .here rfl
  | .cons f s rest, b :: before =>
    exact .later (fun _ _ _ => Iff.rfl)
      (fun _ _ one other => Except.ok.inj (Eq.trans (Eq.symm one) other))
      (fun _ _ _ gives => .there gives) (rest.yieldsItems_open before after known)

end Fields

/-- The items of a list before and after one that is left open. -/
theorem mapM_open {α β ε : Type} {f : α → Except ε β} (before after : List α) :
    (∀ x ys, (before ++ x :: after).mapM f ≠ .ok ys) ∨
      ∃ bs as, List.Forall₂ (fun x y => f x = .ok y) before bs ∧
        List.Forall₂ (fun x y => f x = .ok y) after as ∧ ∀ x ys,
          (before ++ x :: after).mapM f = .ok ys ↔ ∃ y, f x = .ok y ∧ ys = bs ++ y :: as := by
  have split (x : α) (ys : List β) : (before ++ x :: after).mapM f = .ok ys ↔
      ∃ bs y as, before.mapM f = .ok bs ∧ f x = .ok y ∧ after.mapM f = .ok as ∧
        ys = bs ++ y :: as := by
    rw [List.mapM_append, List.mapM_cons]
    constructor
    · intro done
      obtain ⟨bs, first, done⟩ := ok_of_bind done
      obtain ⟨_, middle, done⟩ := ok_of_bind done
      obtain ⟨y, here, middle⟩ := ok_of_bind middle
      obtain ⟨as, last, middle⟩ := ok_of_bind middle
      cases middle
      cases done
      exact ⟨bs, y, as, first, here, last, rfl⟩
    · rintro ⟨bs, y, as, first, here, last, rfl⟩
      rw [first, here, last]
      rfl
  by_cases around : ∃ bs as, before.mapM f = .ok bs ∧ after.mapM f = .ok as
  · obtain ⟨bs, as, first, last⟩ := around
    refine .inr ⟨bs, as, mapM_ok_iff.mp first, mapM_ok_iff.mp last, fun x ys => ?_⟩
    rw [split]
    constructor
    · rintro ⟨bs', y, as', first', here, last', rfl⟩
      cases first.symm.trans first'
      cases last.symm.trans last'
      exact ⟨y, here, rfl⟩
    · rintro ⟨y, here, rfl⟩
      exact ⟨bs, y, as, first, here, last, rfl⟩
  · refine .inl fun x ys done => around ?_
    obtain ⟨bs, y, as, first, _, last, _⟩ := (split x ys).mp done
    exact ⟨bs, as, first, last⟩

namespace Shape

/-- Whether a place in documents of a shape is read by another shape; and the way to what is found
there, under the names that are written. -/
inductive Leads : Shape → List Layer → List Step → Shape → Prop where
  | here {s : Shape} : Leads s [] [] s
  /-- to the value of a member of a field -/
  | member {noun : String} {fields : Fields} {inside : List Blank}
    {before : List (Member Spelling)} {hole : Member Unit} {after : List (Member Spelling)}
    {name : String} {field : Field} {shape s : Shape} {place : List Layer} {path : List Step}
    (named : textOf hole.name = .ok name) (known : fields.find? name = some (field, shape))
    (leads : Leads shape place path s) :
    Leads (.record noun fields) (.member inside before hole after :: place)
      (.member field.name :: path) s
  /-- to the value of a field in a record that is written as a list -/
  | field {noun : String} {fields : Fields} {inside : List Blank} {before : List (Item Spelling)}
    {hole : Item Unit} {after : List (Item Spelling)} {field : Field} {shape s : Shape}
    {place : List Layer} {path : List Step}
    (known : fields.at? before.length = some (field, shape)) (leads : Leads shape place path s) :
    Leads (.record noun fields) (.item inside before hole after :: place)
      (.member field.name :: path) s
  | item {inside : List Blank} {before : List (Item Spelling)} {hole : Item Unit}
    {after : List (Item Spelling)} {item s : Shape} {place : List Layer} {path : List Step}
    (leads : Leads item place path s) :
    Leads (.list item) (.item inside before hole after :: place) (.item before.length :: path) s

/-- What a field makes of a value other than null is what its shape makes of it. -/
theorem reading_iff {depth : Nat} {p : Presence} {s : Shape} {d : Spelling} (some : d ≠ .null)
    {w : p.Val s.Val} :
    Fields.reading depth p s d = .ok w ↔ ∃ a, (s.read depth).on d = .ok a ∧ w = p.hold a := by
  cases p with
  | required | defaulted =>
    constructor
    · intro read
      exact ⟨w, read, rfl⟩
    · rintro ⟨a, read, rfl⟩
      exact read
  | optional => exact readOptional_on (s.read_uniform depth) some

theorem follow?_member {noun name : String} {fields : Fields} {s : Shape} {x : Option s.Val}
    {v : fields.Val} (proper : fields.Proper) (gives : fields.Gives s name x v) :
    ((record noun fields).json v).follow? [.member name] = x.map s.json := by
  change ((Json.object (fields.members v)).get? name).bind some = _
  rw [Option.bind_fun_some, Fields.get?_members proper gives]

theorem follow?_item {s : Shape} {xs : List s.Val} {index : Nat} :
    (Json.list (xs.map s.json)).follow? [.item index] = (xs[index]?).map s.json := by
  change ((xs.map s.json)[index]?).bind some = _
  rw [Option.bind_fun_some, List.getElem?_map]

end Shape

/-- A way to make values of documents. What is made of a document may depend on a circumstance, such
as how deep it stands. -/
structure Maker (ι D : Type) where
  absent : D
  make : ι → (s : Shape) → D → Except Cause s.Val
  makeField : ι → (p : Presence) → (s : Shape) → D → Except Cause (p.Val s.Val)
  makeField_iff : ∀ {i : ι} {p : Presence} {s : Shape} {d : D} {w : p.Val s.Val}, d ≠ absent →
    (makeField i p s d = .ok w ↔ ∃ a, make i s d = .ok a ∧ w = p.hold a)

/-- Values are read from spelled documents, of which only so much may be nested. -/
@[reducible] def Maker.reading : Maker Nat Spelling where
  absent := .null
  make depth s d := (s.read depth).on d
  makeField := Fields.reading
  makeField_iff some := Shape.reading_iff some

namespace Shape

section Opening

variable {ι D : Type} (maker : Maker ι D)

/-- What a shape makes of documents in which a part is left open. -/
inductive Opens (s : Shape) (i : ι) (whole : D → D) (path : List Step) (part : Shape) : Prop where
  /-- what surrounds the part is at fault -/
  | shut (never : ∀ d v, d ≠ maker.absent → maker.make i s (whole d) ≠ .ok v)
  /-- the part is put into what surrounds it -/
  | put (inner : ι) (put : part.Val → s.Val)
    (makes : ∀ d v, d ≠ maker.absent → (maker.make i s (whole d) = .ok v ↔
      ∃ w, maker.make inner part d = .ok w ∧ v = put w))
    (found : ∀ w, (s.json (put w)).follow? path = some (part.json w))

variable {maker} {i : ι} {s : Shape}

theorem opens_here : Opens maker s i id [] s :=
  .put i id (fun _ v _ => ⟨fun made => ⟨v, made, rfl⟩, fun ⟨_, made, same⟩ => same ▸ made⟩)
    fun _ => rfl

/-- A part of a part is a part. -/
theorem Opens.trans {r t : Shape} {whole part : D → D} {path path' : List Step}
    (outer : Opens maker s i whole path r) (inner : ∀ i, Opens maker r i part path' t)
    (some : ∀ d, d ≠ maker.absent → part d ≠ maker.absent) :
    Opens maker s i (fun d => whole (part d)) (path ++ path') t := by
  cases outer with
  | shut never => exact .shut fun d v there => never _ v (some d there)
  | put i' put makes found =>
    cases inner i' with
    | shut never =>
      refine .shut fun d v there made => ?_
      obtain ⟨w, here, _⟩ := (makes _ v (some d there)).mp made
      exact never d w there here
    | put i'' put' makes' found' =>
      refine .put i'' (fun w => put (put' w)) (fun d v there => ?_) fun w => ?_
      · rw [makes _ v (some d there)]
        constructor
        · rintro ⟨u, here, rfl⟩
          obtain ⟨w, within, rfl⟩ := (makes' d u there).mp here
          exact ⟨w, within, rfl⟩
        · rintro ⟨w, here, rfl⟩
          exact ⟨put' w, (makes' d _ there).mpr ⟨w, here, rfl⟩, rfl⟩
      · rw [Json.follow?_append, found]
        exact found' w

section Parts

variable {t : Shape} {whole : D → D} {path : List Step} (opens : Opens maker s i whole path t)
  {d d' : D} {v : s.Val} (there : d ≠ maker.absent) (made : maker.make i s (whole d) = .ok v)

include opens there made

/-- What is made of a document has in it what is made of the part. -/
theorem Opens.part :
    ∃ inner w, maker.make inner t d = .ok w ∧ (s.json v).follow? path = some (t.json w) := by
  cases opens with
  | shut never => exact absurd made (never d v there)
  | put inner put makes found =>
    obtain ⟨w, here, rfl⟩ := (makes d v there).mp made
    exact ⟨inner, w, here, found w⟩

/-- A part may be replaced by another one of which something is made, whatever that is. -/
theorem Opens.replaced (there' : d' ≠ maker.absent)
    (part : ∀ inner, ∃ w, maker.make inner t d' = .ok w) :
    ∃ v', maker.make i s (whole d') = .ok v' := by
  cases opens with
  | shut never => exact absurd made (never d v there)
  | put inner put makes _ =>
    obtain ⟨w, here⟩ := part inner
    exact ⟨put w, (makes d' _ there').mpr ⟨w, here, rfl⟩⟩

end Parts

/-- A record that has a part among its fields. -/
theorem opens_of_field {noun : String} {fields : Fields} {field : Field} {whole : D → D} {inner : ι}
    {made : D → fields.Val → Prop} (proper : fields.Proper)
    (makes : ∀ d v, maker.make i (record noun fields) (whole d) = .ok v ↔ made d v)
    (opening : Fields.Opening made (fun d w => maker.makeField inner field.presence s d = .ok w)
      fun w v => fields.Gives s field.name (field.presence.given w) v) :
    Opens maker (.record noun fields) i whole [.member field.name] s := by
  rcases opening with never | ⟨put, puts, gives⟩
  · exact .shut fun d v _ whole => never d v ((makes d v).mp whole)
  refine .put inner (fun a => put (field.presence.hold a)) (fun d v some => ?_) fun a => ?_
  · refine (makes d v).trans ((puts d v).trans ?_)
    constructor
    · rintro ⟨w, made, rfl⟩
      obtain ⟨a, here, rfl⟩ := (maker.makeField_iff some).mp made
      exact ⟨a, here, rfl⟩
    · rintro ⟨a, here, rfl⟩
      exact ⟨_, (maker.makeField_iff some).mpr ⟨a, here, rfl⟩, rfl⟩
  · have held : fields.Gives s field.name (field.presence.given (field.presence.hold a))
        (put (field.presence.hold a)) := gives _
    rw [field.presence.given_hold a] at held
    exact follow?_member proper held

/-- A list that has a part among its items. -/
theorem opens_of_item {whole : D → D} {inner : ι} {bs as : List s.Val}
    (makes : ∀ d (vs : List s.Val), maker.make i (.list s) (whole d) = .ok vs ↔
      ∃ w, maker.make inner s d = .ok w ∧ vs = bs ++ w :: as) :
    Opens maker (.list s) i whole [.item bs.length] s := by
  refine .put inner (fun w => bs ++ w :: as) (fun d vs _ => makes d vs) fun w => ?_
  change (Json.list ((bs ++ w :: as).map s.json)).follow? _ = _
  rw [List.map_append, List.map_cons, ← List.length_map s.json]
  simp [Json.follow?]

end Opening

section OneLevel

variable {noun : String} {fields : Fields} {field : Field} {s : Shape} {depth : Nat}
  {inside : List Blank}

theorem opens_member {before after : List (Member Spelling)} {hole : Member Unit} {name : String}
    (proper : fields.Proper) (named : textOf hole.name = .ok name)
    (known : fields.find? name = some (field, s)) :
    Opens .reading (.record noun fields) depth (Layer.member inside before hole after).fill
      [.member field.name] s := by
  cases depth with
  | zero =>
    refine .shut fun d v _ read => ?_
    change ((record noun fields).read 0).on (.object _ _) = .ok v at read
    obtain ⟨_, contrary, _⟩ := on_object_iff.mp read
    exact nomatch contrary
  | succ inner =>
    have middle (d : Spelling) (v : fields.Val) :
        ((record noun fields).read (inner + 1)).on
            ((Layer.member inside before hole after).fill d) = .ok v ↔
          ∃ es, Fields.entries (before ++ after) = .ok es ∧
            fields.Yields (Fields.reading inner) ((name, d) :: es) v := by
      refine on_object_iff.trans (Iff.trans ?_ (Fields.collects_middle before after
        (m := hole.holding d) named))
      exact ⟨fun ⟨_, same, collects⟩ => Nat.succ.inj same ▸ collects,
        fun collects => ⟨inner, rfl, collects⟩⟩
    cases entered : Fields.entries (before ++ after) with
    | error cause =>
      refine .shut fun d v _ read => ?_
      obtain ⟨es, entered', _⟩ := (middle d v).mp read
      exact nomatch entered.symm.trans entered'
    | ok es =>
      have single (d : Spelling) (v : fields.Val) :
          ((record noun fields).read (inner + 1)).on
              ((Layer.member inside before hole after).fill d) = .ok v ↔
            fields.Yields (Fields.reading inner) ((name, d) :: es) v := by
        rw [middle, entered]
        exact ⟨fun ⟨_, same, yields⟩ => Except.ok.inj same ▸ yields,
          fun yields => ⟨es, rfl, yields⟩⟩
      exact opens_of_field proper single (fields.yields_open (Fields.reading inner) known es)

theorem opens_field {before after : List (Item Spelling)} {hole : Item Unit}
    (proper : fields.Proper) (known : fields.at? before.length = some (field, s)) :
    Opens .reading (.record noun fields) depth (Layer.item inside before hole after).fill
      [.member field.name] s := by
  cases depth with
  | zero =>
    refine .shut fun d v _ read => ?_
    change ((record noun fields).read 0).on (.list _ _) = .ok v at read
    obtain ⟨_, contrary, _⟩ := on_list_iff.mp read
    exact nomatch contrary
  | succ inner =>
    have single (d : Spelling) (v : fields.Val) :
        ((record noun fields).read (inner + 1)).on
            ((Layer.item inside before hole after).fill d) = .ok v ↔
          fields.YieldsItems (Fields.reading inner)
            (before.map Item.value ++ d :: after.map Item.value) v := by
      refine on_list_iff.trans ?_
      rw [List.map_append, List.map_cons]
      exact ⟨fun ⟨_, same, yields⟩ => Nat.succ.inj same ▸ yields,
        fun yields => ⟨inner, rfl, yields⟩⟩
    rw [← List.length_map Item.value] at known
    exact opens_of_field proper single (fields.yieldsItems_open (Fields.reading inner) _ _ known)

theorem opens_item {before after : List (Item Spelling)} {hole : Item Unit} :
    Opens .reading (.list s) depth (Layer.item inside before hole after).fill
      [.item before.length] s := by
  have onList (d : Spelling) {vs : List s.Val} :
      ((list s).read depth).on ((Layer.item inside before hole after).fill d) = .ok vs ↔
        Shape.onList (fun depth => s.read depth) ((Layer.item inside before hole after).fill d)
          depth = .ok vs :=
    (readList_finds (fun depth => s.read_uniform depth) _ depth _).ok_iff
  cases depth with
  | zero => exact .shut fun d v _ read => nomatch (onList d).mp read
  | succ inner =>
    rcases mapM_open (f := fun x : Item Spelling => (s.read inner).on x.value) before after with
      never | ⟨bs, as, each, _, reads⟩
    · exact .shut fun d v _ read => never _ v ((onList d).mp read)
    · rw [each.length_eq]
      exact opens_of_item fun d vs => (onList d).trans (reads (hole.holding d) vs)

end OneLevel

end Shape

/-- Every place that a shape leads to is open: what is made of the whole is decided by what is made
of the part. -/
theorem Shape.Leads.opens {s t : Shape} {place : List Layer} {path : List Step}
    (leads : Leads s place path t) (proper : s.Proper) (depth : Nat) :
    Opens .reading s depth (fill place) path t := by
  induction leads generalizing depth with
  | here => exact opens_here
  | @member _ _ _ _ _ _ _ _ _ _ place _ named known leads ih =>
    exact (opens_member proper named known).trans
      (fun depth => ih (Fields.proper_of_find? _ proper known) depth) fun d => fill_ne_null place
  | @field _ _ _ _ _ _ _ _ _ place _ known leads ih =>
    exact (opens_field proper known).trans
      (fun depth => ih (Fields.proper_of_at? _ proper known) depth) fun d => fill_ne_null place
  | @item _ _ _ _ _ _ place _ leads ih =>
    exact opens_item.trans (fun depth => ih proper depth) fun d => fill_ne_null place

section Parts

variable {s t : Shape} {place : List Layer} {path : List Step} (leads : Shape.Leads s place path t)
  (proper : s.Proper) {d d' : Spelling} {depth : Nat} {v : s.Val}

namespace Shape.Leads

include leads proper

/-- Parts of which the same is made may be replaced by each other. -/
theorem alike (there : d ≠ .null) (there' : d' ≠ .null)
    (same : ∀ inner w, (t.read inner).on d = .ok w ↔ (t.read inner).on d' = .ok w) :
    (s.read depth).on (fill place d) = .ok v ↔ (s.read depth).on (fill place d') = .ok v := by
  cases leads.opens proper depth with
  | shut never => exact iff_of_false (never d v there) (never d' v there')
  | put inner put reads _ =>
    rw [reads d v there, reads d' v there']
    exact exists_congr fun w => and_congr_left fun _ => same inner w

/-- A document with a part that is not read is not read. -/
theorem unread (there : d ≠ .null) (part : ∀ inner w, (t.read inner).on d ≠ .ok w) :
    (s.read depth).on (fill place d) ≠ .ok v := by
  intro read
  obtain ⟨inner, w, here, _⟩ := (leads.opens proper depth).part there read
  exact part inner w here

end Shape.Leads

end Parts

end AdmissionGuest
