import AdmissionGuest.Proofs.Shape.Reading.Inversion
import AdmissionGuest.Proofs.Shape.Reading.Spelled
import AdmissionGuest.Proofs.Shape.Slots
/-!
A record makes of a spelled object what its fields make of the members, and of a list what they make
of the items. What is wrong in the value of a member of no field is not seen. So every shape is read
off a spelled document in the same way wherever that stands.
-/

namespace AdmissionGuest

open Ascii Scan Spelling

namespace Fields

/-- What holds of the shape of every field, given its presence. -/
def All (P : Presence → Shape → Prop) : Fields → Prop
  | .nil => True
  | .cons field shape rest => P field.presence shape ∧ rest.All P

/-- What a field makes of the spelled value of a member. -/
def reading (depth : Nat) (p : Presence) (s : Shape) (d : Spelling) : Except Cause (p.Val s.Val) :=
  (Shape.readPresent p (s.read depth)).on d

/-- Whether every field makes the same of a spelled value wherever that stands. -/
def Uniform (depth : Nat) : Fields → Prop :=
  All fun p s => (Shape.readPresent p (s.read depth)).Uniform

variable {depth : Nat} {rest : Bytes}

/-- What is done with a member of a field, if one has the name. -/
theorem readMember?_spelled {fields : Fields} (uniform : fields.Uniform depth) (name : String)
    (slots : fields.Slots) (before after : List Blank) (d : Spelling) (stops : Stops rest) :
    MemberFollows (blanks before ++ colon :: (blanks after ++ (d.bytes ++ rest)))
      (fields.readMember? depth name slots) (fields.place? (reading depth) name d slots) rest := by
  match fields, slots with
  | .nil, _ => exact .unknown
  | .cons field shape others, (slot, slots) =>
    simp only [readMember?, place?]
    by_cases own : field.answersTo name = true
    · rw [if_pos own, if_pos own]
      refine .known ?_
      cases slot with
      | some v =>
        exact faultOver_follows
      | none =>
        change Follows (memberColon _ >>= _) _ rest
        rw [memberColon_blanks]
        exact (uniform.1 d after rest stops).bind fun v _ => .done
    · rw [if_neg own, if_neg own]
      have follow := readMember?_spelled uniform.2 name slots before after d stops
      generalize others.readMember? depth name slots = reader at follow
      generalize others.place? (reading depth) name d slots = view at follow
      cases follow with
      | unknown => exact .unknown
      | known follows => exact .known (follows.bind fun t _ => .done)

theorem readMember_spelled {fields : Fields} (uniform : fields.Uniform depth) :
    FollowsMembers (fields.readMember depth)
      (fun name d slots => fields.place (reading depth) slots (name, d)) := by
  intro name slots before after d rest stops
  have member := readMember?_spelled uniform name slots before after d stops
  unfold readMember place
  dsimp only
  generalize fields.readMember? depth name slots = reader at member
  generalize fields.place? (reading depth) name d slots = view at member
  cases member with
  | known follows => exact follows
  | unknown =>
    change Follows (memberColon _ >>= _) _ rest
    rw [memberColon_blanks]
    change Follows (Json.skip (blanks after ++ (d.bytes ++ rest)) >>= _) _ rest
    rw [d.skip_bytes after stops]
    exact .done

/-- The members of an object with the texts of their names. -/
def entries (ms : List (Member Spelling)) : Except Cause (List (String × Spelling)) :=
  ms.mapM fun m => (fun name => (name, m.value)) <$> textOf m.name

theorem foldlM_stepOver_iff {σ : Type} {step : σ → String × Spelling → Except Cause σ}
    {ms : List (Member Spelling)} {s t : σ} :
    ms.foldlM (stepOver fun name d s => step s (name, d)) s = .ok t ↔
      ∃ es, entries ms = .ok es ∧ es.foldlM step s = .ok t := by
  induction ms generalizing s with
  | nil =>
    constructor
    · intro done
      exact ⟨[], rfl, done⟩
    · rintro ⟨_, ⟨⟩, done⟩
      exact done
  | cons m ms ih =>
    rw [List.foldlM_cons, stepOver, entries, List.mapM_cons]
    cases textOf m.name with
    | error cause =>
      refine iff_of_false (fun done => by cases done) ?_
      rintro ⟨_, named, _⟩
      cases named
    | ok name =>
      constructor
      · intro done
        obtain ⟨u, here, later⟩ := ok_of_bind done
        obtain ⟨es, named, later⟩ := ih.mp later
        refine ⟨(name, m.value) :: es, ?_, ?_⟩
        · rw [entries] at named
          rw [named]
          rfl
        · rw [List.foldlM_cons, show step s (name, m.value) = .ok u from here]
          exact later
      · rintro ⟨es, named, done⟩
        obtain ⟨_, ⟨⟩, named⟩ := ok_of_bind named
        obtain ⟨es, others, named⟩ := ok_of_bind named
        cases named
        obtain ⟨u, here, later⟩ := ok_of_bind (show step s (name, m.value) >>= _ = _ from done)
        change step s (name, m.value) >>= _ = _
        rw [here]
        exact ih.mpr ⟨es, others, later⟩

/-- A list is ended where no item is left. -/
theorem endList_items (first : Bool) (bs : List Blank) (xs : List (Item Spelling))
    (rest left : Bytes) :
    endList (blanks bs ++ (itemBytes first xs ++ closeList :: rest)) = .ok ((), left) ↔
      xs = [] ∧ left = rest := by
  cases xs with
  | nil =>
    have here : skipBlanks (blanks bs ++ closeList :: rest) = closeList :: rest :=
      skipBlanks_blanks bs _
    change endList (blanks bs ++ closeList :: rest) = _ ↔ _
    rw [endList, here]
    constructor
    · rintro ⟨⟩
      exact ⟨rfl, rfl⟩
    · rintro ⟨_, rfl⟩
      rfl
  | cons x xs =>
    refine iff_of_false (fun ended => ?_) (fun none => List.cons_ne_nil x xs none.1)
    have closed := endList_inv ended
    rw [itemBytes_cons, skipBlanks_blanks] at closed
    cases first with
    | true =>
      obtain ⟨b, tail, shown, _, inside⟩ :=
        bytes_visible x.value (blanks x.after ++ (itemBytes false xs ++ closeList :: rest))
      rw [if_pos rfl, List.nil_append, skipBlanks_bytes, shown] at closed
      exact absurd (List.cons.inj closed).1 inside
    | false => exact absurd (List.cons.inj closed).1 (by decide)

section Closed

variable {field : Field} {shape : Shape} {others : Fields} {expected : String} {index : Nat}
  {first : Bool} {bs : List Blank}

/-- Where a list is closed, a field has what its absence means. -/
theorem readItems_absent {w : field.presence.Val shape.Val}
    (default : absent? field.presence shape = some w) :
    (cons field shape others).readItems expected depth index first
        (blanks bs ++ closeList :: rest) =
      (others.readItems expected depth (index + 1) first (closeList :: rest) >>= fun r =>
        pure ((w, r.1), r.2)) := by
  change nextItem first (blanks bs ++ closeList :: rest) >>= _ = _
  rw [nextItem_close]
  simp only [bind, Except.bind, default]
  rfl

theorem readItems_missing (required : absent? field.presence shape = none) :
    (cons field shape others).readItems expected depth index first
        (blanks bs ++ closeList :: rest) =
      faultOver closeList (.wrongLength index expected) (closeList :: rest) := by
  change nextItem first (blanks bs ++ closeList :: rest) >>= _ = _
  rw [nextItem_close]
  simp only [bind, Except.bind, required]
  rfl

end Closed

/-- Fields have these values by the items of a list that goes on with `bytes` and ends before
`left`. -/
def ReadsItems (fields : Fields) (depth : Nat) (expected : String) (index : Nat) (first : Bool)
    (bytes : Bytes) (v : fields.Val) (left : Bytes) : Prop :=
  ∃ next, fields.readItems expected depth index first bytes = .ok (v, next) ∧
    endList next = .ok ((), left)

section Items

variable {field : Field} {shape : Shape} {others : Fields} {expected : String} {index : Nat}
  {first : Bool} {bs : List Blank} {v : field.presence.Val shape.Val} {vs : others.Val}
  {left : Bytes}

theorem readsItems_closed :
    (cons field shape others).ReadsItems depth expected index first
        (blanks bs ++ closeList :: rest) (v, vs) left ↔
      absent? field.presence shape = some v ∧
        others.ReadsItems depth expected (index + 1) first (closeList :: rest) vs left := by
  constructor
  · rintro ⟨next, read, ended⟩
    cases default : absent? field.presence shape with
    | none =>
      rw [readItems_missing default] at read
      exact absurd read not_faultOver
    | some w =>
      rw [readItems_absent default] at read
      obtain ⟨⟨ws, _⟩, more, read⟩ := ok_of_bind read
      cases read
      exact ⟨rfl, _, more, ended⟩
  · rintro ⟨default, next, more, ended⟩
    refine ⟨next, (readItems_absent default).trans ?_, ended⟩
    rw [more]
    rfl

theorem readsItems_item {x : Item Spelling} {xs : List (Item Spelling)}
    (uniform : (Shape.readPresent field.presence (shape.read depth)).Uniform) :
    (cons field shape others).ReadsItems depth expected index first
        (blanks bs ++ (itemBytes first (x :: xs) ++ closeList :: rest)) (v, vs) left ↔
      reading depth field.presence shape x.value = .ok v ∧
        others.ReadsItems depth expected (index + 1) false
          (blanks x.after ++ (itemBytes false xs ++ closeList :: rest)) vs left := by
  let after := blanks x.after ++ (itemBytes false xs ++ closeList :: rest)
  have here : Follows (Shape.readPresent field.presence (shape.read depth)
      (x.value.bytes ++ after)) (reading depth field.presence shape x.value) after :=
    uniform x.value [] _ (stops_items xs x.after rest)
  have step : (cons field shape others).readItems expected depth index first
      (blanks bs ++ (itemBytes first (x :: xs) ++ closeList :: rest)) =
        Shape.readPresent field.presence (shape.read depth) (x.value.bytes ++ after) >>= fun r =>
          others.readItems expected depth (index + 1) false r.2 >>= fun s =>
            pure ((r.1, s.1), s.2) := by
    change nextItem first _ >>= _ = _
    rw [nextItem_item]
    rfl
  constructor
  · rintro ⟨next, read, ended⟩
    rw [step] at read
    obtain ⟨⟨w, _⟩, present, read⟩ := ok_of_bind read
    obtain ⟨found, rfl⟩ := here.ok_iff.mp present
    obtain ⟨⟨ws, _⟩, more, read⟩ := ok_of_bind read
    cases read
    exact ⟨found, _, more, ended⟩
  · rintro ⟨found, next, more, ended⟩
    have present := here.ok_iff.mpr ⟨found, rfl⟩
    refine ⟨next, step.trans ?_, ended⟩
    simp only [present, bind, Except.bind, after, more]
    rfl

end Items

/-- The fields have the values that they have by the items of a list. -/
theorem readsItems_spelled {fields : Fields} (uniform : fields.Uniform depth) (expected : String)
    (index : Nat) (first : Bool) (bs : List Blank) (xs : List (Item Spelling)) (rest left : Bytes)
    (v : fields.Val) :
    fields.ReadsItems depth expected index first
        (blanks bs ++ (itemBytes first xs ++ closeList :: rest)) v left ↔
      fields.YieldsItems (reading depth) (xs.map Item.value) v ∧ left = rest := by
  match fields, v with
  | .nil, () =>
    constructor
    · rintro ⟨_, ⟨⟩, ended⟩
      obtain ⟨rfl, same⟩ := (endList_items first bs xs rest left).mp ended
      exact ⟨rfl, same⟩
    · rintro ⟨none, same⟩
      have none : xs = [] := List.map_eq_nil_iff.mp none
      exact ⟨_, rfl, (endList_items first bs xs rest left).mpr ⟨none, same⟩⟩
  | .cons field shape others, (v, vs) =>
    cases xs with
    | nil =>
      have later := readsItems_spelled uniform.2 expected (index + 1) first [] [] rest left vs
      exact readsItems_closed.trans ((and_congr_right' later).trans and_assoc.symm)
    | cons x xs =>
      have later := readsItems_spelled uniform.2 expected (index + 1) false x.after xs rest left vs
      exact (readsItems_item uniform.1).trans ((and_congr_right' later).trans and_assoc.symm)

section Record

variable {noun : String} {fields : Fields} (uniform : fields.Uniform depth)

include uniform

theorem record_finds_object (inside : List Blank) (ms : List (Member Spelling)) :
    ((Shape.record noun fields).read (depth + 1)).Finds (.object inside ms)
      (ms.foldlM (stepOver fun name d slots => fields.place (reading depth) slots (name, d))
        fields.noSlots >>= fun slots => (fields.finish slots).mapError .missingMember) := by
  intro bs rest stops
  have begins := begins_blanks bs (.object inside ms) rest
  change Follows (fields.readRecord noun fields.readMember?
    (fields.readItems (fields.expected noun)) (depth + 1) _) _ rest
  unfold readRecord
  generalize skipBlanks _ = visible at begins
  cases begins with
  | object =>
    refine (Spelling.objectBody_follows (readMember_spelled uniform) ms fields.noSlots inside
      rest).bind fun slots _ => ?_
    dsimp only
    cases fields.finish slots with
    | ok vs => exact .done
    | error name => exact .failed

/-- A record has the values that its fields have by the members of an object. -/
theorem record_on_object {inside : List Blank} {ms : List (Member Spelling)} {v : fields.Val} :
    ((Shape.record noun fields).read (depth + 1)).on (.object inside ms) = .ok v ↔
      ∃ es, entries ms = .ok es ∧ fields.Yields (reading depth) es v := by
  refine (record_finds_object uniform inside ms).ok_iff.trans ?_
  constructor
  · intro done
    obtain ⟨slots, run, finished⟩ := ok_of_bind done
    obtain ⟨es, named, run⟩ := foldlM_stepOver_iff.mp run
    exact ⟨es, named, fields.yields_iff.mp ⟨slots, run, ok_of_mapError finished⟩⟩
  · rintro ⟨es, named, yields⟩
    obtain ⟨slots, run, finished⟩ := fields.yields_iff.mpr yields
    have run := foldlM_stepOver_iff.mpr ⟨es, named, run⟩
    simp only [run, bind, Except.bind, finished]
    rfl

/-- The same by the items of a list. -/
theorem record_list_iff (inside : List Blank) (xs : List (Item Spelling)) (bs : List Blank)
    (rest : Bytes) (_ : Stops rest) (v : fields.Val) (left : Bytes) :
    (Shape.record noun fields).read (depth + 1)
        (blanks bs ++ ((Spelling.list inside xs).bytes ++ rest)) = .ok (v, left) ↔
      fields.YieldsItems (reading depth) (xs.map Item.value) v ∧ left = rest := by
  have start := begins_blanks bs (.list inside xs) rest
  have items := readsItems_spelled uniform (fields.expected noun) 0 true inside xs rest left v
  change fields.readRecord noun fields.readMember?
    (fields.readItems (fields.expected noun)) (depth + 1) _ = _ ↔ _
  unfold readRecord
  generalize skipBlanks _ = visible at start
  cases start with
  | list =>
    change (fields.readItems (fields.expected noun) depth 0 true
        (blanks inside ++ (itemBytes true xs ++ closeList :: rest)) >>= fun r =>
      endList r.2 >>= fun e => pure (r.1, e.2)) =
        (Except.ok (v, left) : Except Fault (fields.Val × Bytes)) ↔ _
    refine Iff.trans ?_ items
    constructor
    · intro read
      obtain ⟨⟨w, next⟩, found, read⟩ := ok_of_bind read
      obtain ⟨⟨⟨⟩, _⟩, ended, read⟩ := ok_of_bind read
      cases read
      exact ⟨next, found, ended⟩
    · rintro ⟨next, found, ended⟩
      simp only [found, ended, bind, Except.bind]
      rfl

theorem record_on_list {inside : List Blank} {xs : List (Item Spelling)} {v : fields.Val} :
    ((Shape.record noun fields).read (depth + 1)).on (.list inside xs) = .ok v ↔
      fields.YieldsItems (reading depth) (xs.map Item.value) v :=
  (Reader.finds_of_iff (record_list_iff uniform inside xs)).2 v

end Record

/-- Nothing else is read as a record, and nothing at all where nesting ends. -/
theorem record_refuses {noun : String} {fields : Fields} {d : Spelling}
    (object : ∀ inside ms, d = .object inside ms → depth = 0)
    (list : ∀ inside xs, d = .list inside xs → depth = 0) :
    ((Shape.record noun fields).read depth).Finds d (.error .tooDeep) := by
  intro bs rest stops
  have begins := begins_blanks bs d rest
  change Follows (fields.readRecord noun fields.readMember?
    (fields.readItems (fields.expected noun)) depth _) _ rest
  unfold readRecord
  generalize skipBlanks _ = visible at begins
  cases begins with
  | null | yes | no | text =>
    exact .otherwise (by decide) (.otherwise (by decide) Shape.mismatch_follows)
  | number leads =>
    exact .otherwise leads.notOpening.2.2 (.otherwise leads.notOpening.2.1 Shape.mismatch_follows)
  | list inside xs =>
    obtain rfl := list inside xs rfl
    exact .failed
  | object inside ms =>
    obtain rfl := object inside ms rfl
    exact .failed

theorem record_uniform {noun : String} {fields : Fields} (uniform : ∀ d, fields.Uniform d)
    (depth : Nat) : ((Shape.record noun fields).read depth).Uniform := by
  intro d
  cases depth with
  | zero => exact (record_refuses (fun _ _ _ => rfl) fun _ _ _ => rfl).on
  | succ depth =>
    cases d with
    | null | flag | number | text =>
      refine (record_refuses ?_ ?_).on
      · exact nofun
      · exact nofun
    | object inside ms => exact (record_finds_object (uniform depth) inside ms).on
    | list inside xs => exact (Reader.finds_of_iff (record_list_iff (uniform depth) inside xs)).1

end Fields

mutual

theorem Shape.read_uniform (s : Shape) (depth : Nat) : (s.read depth).Uniform := by
  match s with
  | .text => exact Shape.readText_uniform _
  | .flag => exact Shape.readFlag_uniform _
  | .int width => exact Shape.readInt_uniform width
  | .any => exact (Spelling.read_uniform depth).map Value.ofJson
  | .choice first others => exact Shape.readChoice_uniform depth
  | .list item => exact Shape.readList_uniform (fun d => item.read_uniform d) _ depth
  | .dict item => exact Shape.readDict_uniform (fun d => item.read_uniform d) _ depth
  | .record noun fields => exact Fields.record_uniform (fun d => fields.members_uniform d) depth

theorem Fields.members_uniform (fields : Fields) (depth : Nat) : fields.Uniform depth := by
  match fields with
  | .nil => trivial
  | .cons field shape rest =>
    exact ⟨Shape.readPresent_uniform (shape.read_uniform depth) field.presence,
      rest.members_uniform depth⟩

end

end AdmissionGuest
