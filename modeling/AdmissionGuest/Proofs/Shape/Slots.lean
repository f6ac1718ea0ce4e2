import AdmissionGuest.Proofs.Json.Read
import AdmissionGuest.Shape.Basic
/-!
What a record makes of its members, whatever these are: `peek` says what a field makes of the value
of one of its own. Each field looks at its own members only, so their order and the members that
belong to no field are of no matter.
-/

namespace AdmissionGuest

variable {X : Type}

/-- The members that belong to a field. -/
def Field.own (field : Field) (ms : List (String × X)) : List (String × X) :=
  ms.filter fun m => field.answersTo m.1

/-- The members that are left for other fields. -/
def Field.others (field : Field) (ms : List (String × X)) : List (String × X) :=
  ms.filter fun m => !field.answersTo m.1

section Own

variable {field : Field} {m : String × X} {ms : List (String × X)}

theorem Field.own_cons (own : field.answersTo m.1 = true) :
    field.own (m :: ms) = m :: field.own ms :=
  List.filter_cons_of_pos own

theorem Field.own_cons_other (other : field.answersTo m.1 = false) :
    field.own (m :: ms) = field.own ms :=
  List.filter_cons_of_neg (by simp [other])

theorem Field.others_cons (other : field.answersTo m.1 = false) :
    field.others (m :: ms) = m :: field.others ms :=
  List.filter_cons_of_pos (by simp [other])

theorem Field.others_cons_own (own : field.answersTo m.1 = true) :
    field.others (m :: ms) = field.others ms :=
  List.filter_cons_of_neg (by simp [own])

end Own

namespace Fields

/-- The field that a member with a name belongs to, and its shape. -/
def find? : Fields → String → Option (Field × Shape)
  | .nil, _ => none
  | .cons field shape rest, name =>
    if field.answersTo name then some (field, shape) else rest.find? name

/-- The field at a place, and its shape. -/
def at? : Fields → Nat → Option (Field × Shape)
  | .nil, _ => none
  | .cons field shape _, 0 => some (field, shape)
  | .cons _ _ rest, index + 1 => rest.at? index

section Peek

variable (peek : (p : Presence) → (s : Shape) → X → Except Cause (p.Val s.Val))

/-- Puts the value of a member into the slot of its field; none if no field has the name. -/
def place? : (fields : Fields) → String → X → fields.Slots → Option (Except Cause fields.Slots)
  | .nil, _, _, _ => none
  | .cons field shape rest, name, x, (slot, slots) =>
    if field.answersTo name then
      some <| match slot with
        | some _ => .error (.repeatedMember field.name)
        | none => do return (some (← peek field.presence shape x), slots)
    else
      (rest.place? name x slots).map fun slots => do return (slot, ← slots)

def place (fields : Fields) (slots : fields.Slots) (m : String × X) : Except Cause fields.Slots :=
  (fields.place? peek m.1 m.2 slots).getD (.ok slots)

/-- Puts a member of one field into its slot. -/
def fill (field : Field) (shape : Shape) (slot : Option (field.presence.Val shape.Val))
    (m : String × X) : Except Cause (Option (field.presence.Val shape.Val)) :=
  match slot with
  | some _ => .error (.repeatedMember field.name)
  | none => some <$> peek field.presence shape m.2

/-- The value that a field has from its own members: from the only one, or without any. -/
inductive Given (p : Presence) (s : Shape) : List (String × X) → p.Val s.Val → Prop where
  | absent {v : p.Val s.Val} (default : absent? p s = some v) : Given p s [] v
  | present {name : String} {x : X} {v : p.Val s.Val} (found : peek p s x = .ok v) :
    Given p s [(name, x)] v

/-- Whether the fields have these values by the members of an object. -/
def Yields : (fields : Fields) → List (String × X) → fields.Val → Prop
  | .nil, _, _ => True
  | .cons field shape rest, ms, (v, vs) =>
    Given peek field.presence shape (field.own ms) v ∧ rest.Yields (field.others ms) vs

/-- Whether the fields have these values by the items of a list. -/
def YieldsItems : (fields : Fields) → List X → fields.Val → Prop
  | .nil, xs, _ => xs = []
  | .cons field shape rest, [], (v, vs) =>
    absent? field.presence shape = some v ∧ rest.YieldsItems [] vs
  | .cons field shape rest, x :: xs, (v, vs) =>
    peek field.presence shape x = .ok v ∧ rest.YieldsItems xs vs

variable {peek} {field : Field} {shape : Shape} {rest : Fields}
  {slot slot' : Option (field.presence.Val shape.Val)} {slots slots' : rest.Slots}
  {m : String × X} {ms ms' : List (String × X)}

theorem place_own (own : field.answersTo m.1 = true) :
    place peek (.cons field shape rest) (slot, slots) m =
      (fill peek field shape slot m).map fun s => (s, slots) := by
  simp only [place, place?, own, if_true, Option.getD_some]
  cases slot with
  | some v => rfl
  | none => cases found : peek field.presence shape m.2 <;> simp only [fill, found] <;> rfl

theorem place_others (other : field.answersTo m.1 = false) :
    place peek (.cons field shape rest) (slot, slots) m =
      (place peek rest slots m).map fun s => (slot, s) := by
  simp only [place, place?, other, Bool.false_eq_true, if_false]
  cases rest.place? peek m.1 m.2 slots with
  | none => rfl
  | some placed => cases placed <;> rfl

/-- Members of the first field and of the others do not meet. -/
theorem foldlM_place_cons :
    ms.foldlM (place peek (.cons field shape rest)) (slot, slots) = .ok (slot', slots') ↔
      (field.own ms).foldlM (fill peek field shape) slot = .ok slot' ∧
        (field.others ms).foldlM (place peek rest) slots = .ok slots' := by
  induction ms generalizing slot slots with
  | nil =>
    constructor
    · rintro ⟨⟩
      exact ⟨rfl, rfl⟩
    · rintro ⟨⟨⟩, ⟨⟩⟩
      rfl
  | cons m ms ih =>
    change (place peek (.cons field shape rest) (slot, slots) m >>= fun s =>
      ms.foldlM (place peek (.cons field shape rest)) s) = _ ↔ _
    cases own : field.answersTo m.1 with
    | true =>
      rw [place_own own, Field.own_cons own, Field.others_cons_own own, List.foldlM_cons]
      cases fill peek field shape slot m with
      | error cause => exact ⟨nofun, nofun⟩
      | ok s => exact ih
    | false =>
      rw [place_others own, Field.own_cons_other own, Field.others_cons own, List.foldlM_cons]
      cases place peek rest slots m with
      | error cause => exact ⟨nofun, nofun⟩
      | ok s => exact ih

theorem finish_cons {v : field.presence.Val shape.Val} {vs : rest.Val} :
    (Fields.cons field shape rest).finish (slot, slots) = .ok (v, vs) ↔
      (slot <|> absent? field.presence shape) = some v ∧ rest.finish slots = .ok vs := by
  simp only [finish]
  cases (slot <|> absent? field.presence shape : Option (field.presence.Val shape.Val)) with
  | none => exact ⟨nofun, fun h => nomatch h.1⟩
  | some v' =>
    cases rest.finish slots with
    | error name => exact ⟨nofun, fun h => nomatch h.2⟩
    | ok vs' =>
      constructor
      · rintro ⟨⟩
        exact ⟨rfl, rfl⟩
      · rintro ⟨⟨⟩, ⟨⟩⟩
        rfl

/-- A slot is finished to the value that its members give. -/
theorem given_iff {v : field.presence.Val shape.Val} :
    (∃ slot, ms.foldlM (fill peek field shape) none = .ok slot ∧
      (slot <|> absent? field.presence shape) = some v) ↔
      Given peek field.presence shape ms v := by
  constructor
  · rintro ⟨slot, filled, finished⟩
    match ms, filled with
    | [], filled =>
      cases filled
      exact .absent finished
    | m :: ms, filled =>
      obtain ⟨s, placed, filled⟩ := ok_of_bind filled
      cases found : peek field.presence shape m.2 with
      | error cause =>
        simp only [fill, found] at placed
        exact nomatch placed
      | ok w =>
        simp only [fill, found] at placed
        cases placed
        cases ms with
        | nil =>
          cases filled
          cases finished
          exact .present found
        | cons m' ms => exact nomatch filled
  · intro given
    cases given with
    | absent default => exact ⟨none, rfl, default⟩
    | present found =>
      refine ⟨some v, ?_, rfl⟩
      simp only [List.foldlM_cons, fill, found]
      rfl

theorem Given.inv {p : Presence} {s : Shape} {v : p.Val s.Val} (given : Given peek p s ms v) :
    (ms = [] ∧ absent? p s = some v) ∨ ∃ m, ms = [m] ∧ peek p s m.2 = .ok v := by
  cases given with
  | absent default => exact .inl ⟨rfl, default⟩
  | present found => exact .inr ⟨_, rfl, found⟩

/-- A field has a value of some kind if it has one member at most, each member is of that kind, and
so is what the absence of all members stands for. -/
theorem exists_given_iff (p : Presence) (s : Shape) {P : p.Val s.Val → Prop} :
    (∃ v, Given peek p s ms v ∧ P v) ↔
      ms.length ≤ 1 ∧ (∀ m ∈ ms, ∃ v, peek p s m.2 = .ok v ∧ P v) ∧
        (ms = [] → ∃ v, absent? p s = some v ∧ P v) := by
  constructor
  · rintro ⟨v, given, holds⟩
    cases given with
    | absent default => exact ⟨Nat.zero_le _, nofun, fun _ => ⟨v, default, holds⟩⟩
    | present found =>
      refine ⟨Nat.le_refl _, fun m here => ?_, nofun⟩
      cases List.mem_singleton.mp here
      exact ⟨v, found, holds⟩
  · rintro ⟨once, each, none⟩
    match ms with
    | [] =>
      obtain ⟨v, default, holds⟩ := none rfl
      exact ⟨v, .absent default, holds⟩
    | [m] =>
      obtain ⟨v, found, holds⟩ := each m List.mem_cons_self
      exact ⟨v, .present found, holds⟩
    | _ :: _ :: _ => exact absurd once (by simp)

/-- Slots that are filled by an object are finished to what it yields. -/
theorem yields_iff (fields : Fields) {ms : List (String × X)} {v : fields.Val} :
    (∃ slots, ms.foldlM (place peek fields) fields.noSlots = .ok slots ∧
      fields.finish slots = .ok v) ↔ fields.Yields peek ms v := by
  match fields, v with
  | .nil, () =>
    have run : ms.foldlM (place peek .nil) () = .ok () := by
      induction ms with
      | nil => rfl
      | cons m ms ih => exact ih
    exact ⟨fun _ => trivial, fun _ => ⟨(), run, rfl⟩⟩
  | .cons field shape rest, (v, vs) =>
    constructor
    · rintro ⟨⟨slot, slots⟩, run, finished⟩
      obtain ⟨own, others⟩ := foldlM_place_cons.mp run
      obtain ⟨here, later⟩ := finish_cons.mp finished
      exact ⟨given_iff.mp ⟨slot, own, here⟩, (yields_iff rest).mp ⟨slots, others, later⟩⟩
    · rintro ⟨given, yields⟩
      obtain ⟨slot, own, here⟩ := given_iff.mpr given
      obtain ⟨slots, others, later⟩ := (yields_iff rest).mpr yields
      exact ⟨(slot, slots), foldlM_place_cons.mpr ⟨own, others⟩, finish_cons.mpr ⟨here, later⟩⟩

/-! Members and items decide the values -/

theorem Given.unique {p : Presence} {s : Shape} {v w : p.Val s.Val} (one : Given peek p s ms v)
    (other : Given peek p s ms w) : v = w := by
  cases one with
  | absent default =>
    cases other with
    | absent default' => exact Option.some.inj (default.symm.trans default')
  | present found =>
    cases other with
    | present found' => exact Except.ok.inj (found.symm.trans found')

theorem yields_unique (fields : Fields) {ms : List (String × X)} {v w : fields.Val}
    (one : fields.Yields peek ms v) (other : fields.Yields peek ms w) : v = w := by
  match fields, v, w with
  | .nil, (), () => rfl
  | .cons field shape rest, (v, vs), (w, ws) =>
    exact congrArg₂ Prod.mk (one.1.unique other.1) (rest.yields_unique one.2 other.2)

theorem yieldsItems_unique (fields : Fields) {xs : List X} {v w : fields.Val}
    (one : fields.YieldsItems peek xs v) (other : fields.YieldsItems peek xs w) : v = w := by
  match fields, xs, v, w with
  | .nil, _, (), () => rfl
  | .cons field shape rest, [], (v, vs), (w, ws) =>
    exact congrArg₂ Prod.mk (Option.some.inj (one.1.symm.trans other.1))
      (rest.yieldsItems_unique one.2 other.2)
  | .cons field shape rest, x :: xs, (v, vs), (w, ws) =>
    exact congrArg₂ Prod.mk (Except.ok.inj (one.1.symm.trans other.1))
      (rest.yieldsItems_unique one.2 other.2)

/-! What the values do not depend on -/

theorem answers_of_find? {fields : Fields} {name : String}
    (found : fields.find? name = some (field, shape)) : field.answersTo name = true := by
  match fields with
  | .nil => exact nomatch found
  | .cons f s others =>
    simp only [find?] at found
    split at found
    next own =>
      cases found
      exact own
    next => exact answers_of_find? found

theorem Given.perm {p : Presence} {s : Shape} {v : p.Val s.Val} (given : Given peek p s ms v)
    (perm : ms.Perm ms') : Given peek p s ms' v := by
  cases given with
  | absent default =>
    rw [List.nil_perm.mp perm]
    exact .absent default
  | present found =>
    rw [← List.singleton_perm.mp perm]
    exact .present found

theorem Yields.perm {fields : Fields} {v : fields.Val} {ms ms' : List (String × X)}
    (yields : fields.Yields peek ms v) (perm : ms.Perm ms') : fields.Yields peek ms' v := by
  match fields, v with
  | .nil, _ => trivial
  | .cons field shape rest, (v, vs) =>
    exact ⟨yields.1.perm (perm.filter _), Yields.perm yields.2 (perm.filter _)⟩

/-- A member that belongs to no field is of no matter. -/
theorem yields_unknown {fields : Fields} {v : fields.Val} {ms : List (String × X)}
    (unknown : fields.find? m.1 = none) :
    fields.Yields peek (m :: ms) v ↔ fields.Yields peek ms v := by
  match fields, v with
  | .nil, _ => exact Iff.rfl
  | .cons field shape rest, (v, vs) =>
    simp only [find?] at unknown
    split at unknown
    next => exact nomatch unknown
    next other =>
      rw [Bool.not_eq_true] at other
      simp only [Yields, Field.own_cons_other other, Field.others_cons other]
      exact and_congr_right fun _ => yields_unknown unknown

/-- Members that belong to no field are of no matter. -/
theorem yields_foreign {fields : Fields} {v : fields.Val} {more ms : List (String × X)}
    (foreign : ∀ m ∈ more, fields.find? m.1 = none) :
    fields.Yields peek (more ++ ms) v ↔ fields.Yields peek ms v := by
  induction more with
  | nil => exact Iff.rfl
  | cons m more ih =>
    obtain ⟨first, others⟩ := List.forall_mem_cons.mp foreign
    exact (yields_unknown first).trans (ih others)

section Known

variable {fields : Fields} {f : Field} {s : Shape} {ls : List (String × X)}

/-- Members that belong to one field of a record belong to its first field, or all of them belong to
a later one. -/
theorem first_or_later (known : ∀ l ∈ ls, (cons f s rest).find? l.1 = some (field, shape)) :
    ((f, s) = (field, shape) ∧ ∀ l ∈ ls, f.answersTo l.1 = true) ∨
      ∀ l ∈ ls, f.answersTo l.1 = false ∧ rest.find? l.1 = some (field, shape) := by
  by_cases mine : ∃ l ∈ ls, f.answersTo l.1 = true
  · obtain ⟨l, here, own⟩ := mine
    have found := known l here
    simp only [find?, own, if_true, Option.some.injEq] at found
    refine .inl ⟨found, fun l here => ?_⟩
    rw [(Prod.mk.inj found).1]
    exact answers_of_find? (known l here)
  · refine .inr fun l here => ?_
    have other : f.answersTo l.1 = false := by
      rw [← Bool.not_eq_true]
      exact fun own => mine ⟨l, here, own⟩
    have found := known l here
    simp only [find?, other, Bool.false_eq_true, if_false] at found
    exact ⟨other, found⟩

theorem own_append (own : ∀ l ∈ ls, f.answersTo l.1 = true) (ms : List (String × X)) :
    f.own (ls ++ ms) = ls ++ f.own ms ∧ f.others (ls ++ ms) = f.others ms := by
  simp only [Field.own, Field.others, List.filter_append]
  refine ⟨?_, ?_⟩
  · rw [List.filter_eq_self.mpr own]
  · rw [List.filter_eq_nil_iff.mpr fun l here => by simp [own l here], List.nil_append]

theorem others_append (others : ∀ l ∈ ls, f.answersTo l.1 = false) (ms : List (String × X)) :
    f.own (ls ++ ms) = f.own ms ∧ f.others (ls ++ ms) = ls ++ f.others ms := by
  simp only [Field.own, Field.others, List.filter_append]
  refine ⟨?_, ?_⟩
  · rw [List.filter_eq_nil_iff.mpr fun l here => by simp [others l here], List.nil_append]
  · rw [List.filter_eq_self.mpr fun l here => by simp [others l here]]

end Known

/-- Members that belong to a field give their value to it, with whatever else belongs to it. -/
theorem given_of_yields {fields : Fields} {v : fields.Val} {ls ms : List (String × X)}
    (known : ∀ l ∈ ls, fields.find? l.1 = some (field, shape)) (some : ls ≠ [])
    (yields : fields.Yields peek (ls ++ ms) v) :
    ∃ os w, Given peek field.presence shape (ls ++ os) w := by
  match fields, v with
  | .nil, _ =>
    obtain ⟨l, here⟩ := List.exists_mem_of_ne_nil ls some
    exact nomatch known l here
  | .cons f s rest, (v, vs) =>
    obtain ⟨given, later⟩ := yields
    rcases first_or_later known with ⟨⟨⟩, own⟩ | others
    · rw [(own_append own _).1] at given
      exact ⟨_, v, given⟩
    · rw [(others_append (fun l here => (others l here).1) _).2] at later
      exact given_of_yields (fun l here => (others l here).2) some later

/-- Members of a field may be replaced by others that give it the same, with whatever else belongs
to it. -/
theorem yields_replace {fields : Fields} {v : fields.Val} (ls ls' : List (String × X))
    {ms : List (String × X)} (known : ∀ l ∈ ls ++ ls', fields.find? l.1 = some (field, shape))
    (alike : ∀ os, os.Sublist (field.own ms) → ∀ w,
      Given peek field.presence shape (ls ++ os) w ↔
        Given peek field.presence shape (ls' ++ os) w) :
    fields.Yields peek (ls ++ ms) v ↔ fields.Yields peek (ls' ++ ms) v := by
  by_cases none : ls ++ ls' = []
  · obtain ⟨rfl, rfl⟩ := List.append_eq_nil_iff.mp none
    exact Iff.rfl
  match fields, v with
  | .nil, _ => exact Iff.rfl
  | .cons f s rest, (v, vs) =>
    rcases first_or_later known with ⟨⟨⟩, own⟩ | others
    · obtain ⟨mine, theirs⟩ := own_append (fun l here => own l (List.mem_append_left ls' here)) ms
      obtain ⟨mine', theirs'⟩ := own_append (fun l here => own l (List.mem_append_right ls here)) ms
      simp only [Yields, mine, theirs, mine', theirs']
      exact and_congr_left fun _ => alike _ (List.Sublist.refl _) v
    · obtain ⟨mine, theirs⟩ := others_append
        (fun l here => (others l (List.mem_append_left ls' here)).1) ms
      obtain ⟨mine', theirs'⟩ := others_append
        (fun l here => (others l (List.mem_append_right ls here)).1) ms
      simp only [Yields, mine, theirs, mine', theirs']
      refine and_congr_right fun _ => yields_replace ls ls' (fun l here => (others l here).2) ?_
      intro os part
      exact alike os (part.trans (List.filter_sublist.filter _))

/-- A member whose value is what its absence means may be left out, if it is the only one of its
field. -/
theorem yields_absent {fields : Fields} {v : fields.Val}
    (known : fields.find? m.1 = some (field, shape)) (alone : ∀ o ∈ ms, field.answersTo o.1 = false)
    (same : ∀ w, peek field.presence shape m.2 = .ok w ↔ absent? field.presence shape = some w) :
    fields.Yields peek (m :: ms) v ↔ fields.Yields peek ms v := by
  refine yields_replace [m] [] (by simpa using known) fun os part w => ?_
  have none : field.own ms = [] := List.filter_eq_nil_iff.mpr fun o here => by simp [alone o here]
  rw [none, List.sublist_nil] at part
  subst part
  constructor
  · intro given
    cases given with
    | present found => exact .absent ((same w).mp found)
  · intro given
    cases given with
    | absent default => exact .present ((same w).mpr default)

/-- The value of a member may be replaced by one of which the field makes the same. -/
theorem yields_value {fields : Fields} {v : fields.Val} {name : String} {x x' : X}
    (known : fields.find? name = some (field, shape))
    (same : ∀ w, peek field.presence shape x = .ok w ↔ peek field.presence shape x' = .ok w) :
    fields.Yields peek ((name, x) :: ms) v ↔ fields.Yields peek ((name, x') :: ms) v := by
  refine yields_replace [(name, x)] [(name, x')] (by simpa using known)
    fun os _ w => ?_
  constructor
  · intro given
    cases given with
    | present found => exact .present ((same w).mp found)
  · intro given
    cases given with
    | present found => exact .present ((same w).mpr found)

/-- The name of a member may be replaced by another one of its field. -/
theorem yields_rename {fields : Fields} {v : fields.Val} {name name' : String} {x : X}
    (known : fields.find? name = some (field, shape))
    (known' : fields.find? name' = some (field, shape)) :
    fields.Yields peek ((name, x) :: ms) v ↔ fields.Yields peek ((name', x) :: ms) v := by
  have both : ∀ l ∈ [(name, x)] ++ [(name', x)], fields.find? l.1 = some (field, shape) := by
    simp [known, known']
  refine yields_replace [(name, x)] [(name', x)] both fun os _ w => ?_
  constructor
  · intro given
    cases given with
    | present found => exact .present found
  · intro given
    cases given with
    | present found => exact .present found

/-- Two members of one field give nothing. -/
theorem not_yields_twice {fields : Fields} {v : fields.Val} {m' : String × X}
    (known : fields.find? m.1 = some (field, shape))
    (known' : fields.find? m'.1 = some (field, shape)) :
    ¬ fields.Yields peek (m :: m' :: ms) v := by
  intro yields
  have both : ∀ l ∈ [m, m'], fields.find? l.1 = some (field, shape) := by simp [known, known']
  obtain ⟨os, w, given⟩ := given_of_yields both (by simp) yields
  exact nomatch given

theorem not_yields_of_mem {fields : Fields} {v : fields.Val} {m' : String × X} (here : m ∈ ms)
    (here' : m' ∈ ms) (differ : m ≠ m') (known : fields.find? m.1 = some (field, shape))
    (known' : fields.find? m'.1 = some (field, shape)) : ¬ fields.Yields peek ms v := by
  intro yields
  obtain ⟨before, after, rfl⟩ := List.append_of_mem here
  have rest : m' ∈ before ++ after := by
    have either := List.perm_middle.mem_iff.mp here'
    exact (List.mem_cons.mp either).resolve_left fun same => differ same.symm
  obtain ⟨before', after', split⟩ := List.append_of_mem rest
  have perm : (before ++ m :: after).Perm (m :: m' :: (before' ++ after')) := by
    refine List.perm_middle.trans (.cons m ?_)
    rw [split]
    exact List.perm_middle
  exact not_yields_twice known known' (yields.perm perm)

/-- A member of which its field makes nothing yields nothing. -/
theorem not_yields_of_unread {fields : Fields} {v : fields.Val}
    (known : fields.find? m.1 = some (field, shape))
    (unread : ∀ w, peek field.presence shape m.2 ≠ .ok w) :
    ¬ fields.Yields peek (m :: ms) v := by
  intro yields
  have here : ∀ l ∈ [m], fields.find? l.1 = some (field, shape) := by simp [known]
  obtain ⟨os, w, given⟩ := given_of_yields here (by simp) yields
  cases given with
  | present found => exact unread w found

/-! Lists -/

theorem yieldsItems_value {fields : Fields} {v : fields.Val} {before after : List X} {x x' : X}
    (same : ∀ field shape, fields.at? before.length = some (field, shape) →
      ∀ w, peek field.presence shape x = .ok w ↔ peek field.presence shape x' = .ok w) :
    fields.YieldsItems peek (before ++ x :: after) v ↔
      fields.YieldsItems peek (before ++ x' :: after) v := by
  induction before generalizing fields with
  | nil =>
    match fields, v with
    | .nil, _ => exact ⟨nofun, nofun⟩
    | .cons field shape rest, (v, vs) => exact and_congr_left fun _ => same field shape rfl v
  | cons b before ih =>
    match fields, v with
    | .nil, _ => exact ⟨nofun, nofun⟩
    | .cons field shape rest, (v, vs) => exact and_congr_right fun _ => ih same

theorem not_yieldsItems_of_unread {fields : Fields} {v : fields.Val} {before after : List X} {x : X}
    (known : fields.at? before.length = some (field, shape))
    (unread : ∀ w, peek field.presence shape x ≠ .ok w) :
    ¬ fields.YieldsItems peek (before ++ x :: after) v := by
  induction before generalizing fields with
  | nil =>
    match fields, v with
    | .nil, _ => exact nofun
    | .cons f s rest, (v, vs) =>
      cases known
      exact fun yields => unread v yields.1
  | cons b before ih =>
    match fields, v with
    | .nil, _ => exact nofun
    | .cons f s rest, (v, vs) => exact fun yields => ih known yields.2

end Peek

end Fields

end AdmissionGuest
