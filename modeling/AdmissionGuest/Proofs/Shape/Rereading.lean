import AdmissionGuest.Proofs.Json.Nesting
import AdmissionGuest.Proofs.Shape.Carried
import AdmissionGuest.Proofs.Shape.Reading.Inversion
/-!
Whatever is read off a text can be written and read again. Its document is nested no deeper than the
text may be, and no optional value is lost: null was read as absence already.

Nothing is asked of the text beyond being read, so skipped members may be anything that is skipped.
-/

namespace AdmissionGuest

open Ascii Scan

/-! Values that can be read again -/

/-- A value of which nothing is lost and whose document has at most so many lists and objects inside
each other. -/
structure Shape.Rereads (s : Shape) (depth : Nat) (v : s.Val) : Prop where
  settled : s.settle v = v
  shallow : (s.json v).height ≤ depth

/-- The same of the value of a member. -/
def Presence.Rereads (p : Presence) (s : Shape) (depth : Nat) (v : p.Val s.Val) : Prop :=
  ∀ x, p.given v = some x → (p = .optional → (s.json x).isNull = false) ∧ s.Rereads depth x

/-- The same of every field. -/
def Fields.Rereads : (fields : Fields) → Nat → fields.Val → Prop
  | .nil, _, _ => True
  | .cons field shape rest, depth, (v, vs) =>
    field.presence.Rereads shape depth v ∧ rest.Rereads depth vs

/-- The same of every slot that is filled. -/
def Fields.SlotsReread : (fields : Fields) → Nat → fields.Slots → Prop
  | .nil, _, _ => True
  | .cons field shape rest, depth, (slot, slots) =>
    (∀ v, slot = some v → field.presence.Rereads shape depth v) ∧ rest.SlotsReread depth slots

variable {depth : Nat} {bytes rest : Bytes}

namespace Fields

theorem settle_of_rereads {fields : Fields} {v : fields.Val} (rereads : fields.Rereads depth v) :
    fields.settle v = v := by
  match fields, v with
  | .nil, _ => rfl
  | .cons field shape rest, (v, vs) =>
    have first := Presence.settle_eq (v := v) fun x given =>
      ⟨(rereads.1 x given).1, (rereads.1 x given).2.settled⟩
    exact Prod.ext first (settle_of_rereads rereads.2)

theorem shallow_of_rereads {fields : Fields} {v : fields.Val} (rereads : fields.Rereads depth v) :
    ∀ m ∈ fields.members v, m.2.height ≤ depth := by
  intro m member
  match fields, v with
  | .nil, _ => cases member
  | .cons field shape rest, (v, vs) =>
    rcases mem_members_cons.mp member with ⟨x, given, rfl⟩ | later
    · exact (rereads.1 x given).2.shallow
    · exact shallow_of_rereads rereads.2 m later

theorem noSlots_reread (fields : Fields) : fields.SlotsReread depth fields.noSlots := by
  cases fields with
  | nil => trivial
  | cons _ _ rest =>
    refine ⟨?_, rest.noSlots_reread⟩
    rintro _ ⟨⟩

end Fields

theorem Shape.rereads_record {noun : String} {fields : Fields} {v : fields.Val}
    (rereads : fields.Rereads depth v) : (Shape.record noun fields).Rereads (depth + 1) v :=
  ⟨Fields.settle_of_rereads rereads,
    Nat.succ_le_succ (Json.heightMembers_le_iff.mpr (Fields.shallow_of_rereads rereads))⟩

theorem Shape.rereads_list {item : Shape} {v : List item.Val}
    (each : ∀ x ∈ v, item.Rereads depth x) : (Shape.list item).Rereads (depth + 1) v := by
  constructor
  · exact (List.map_congr_left fun x member => (each x member).settled).trans (List.map_id' v)
  · refine Nat.succ_le_succ (Json.heightItems_le_iff.mpr fun j member => ?_)
    obtain ⟨x, inside, rfl⟩ := List.mem_map.mp member
    exact (each x inside).shallow

theorem Shape.rereads_dict {item : Shape} {v : Dict String item.Val}
    (each : ∀ e ∈ v.entries, item.Rereads depth e.2) : (Shape.dict item).Rereads (depth + 1) v := by
  constructor
  · apply Dict.ext
    refine (List.map_congr_left fun e member => ?_).trans (List.map_id' v.entries)
    exact Prod.ext rfl (each e member).settled
  · refine Nat.succ_le_succ (Json.heightMembers_le_iff.mpr fun m member => ?_)
    obtain ⟨e, inside, rfl⟩ := List.mem_map.mp member
    exact (each e inside).shallow

mutual

/-- An absent member is no exception: empty values can be read again. -/
theorem Shape.rereads_empty (s : Shape) {depth : Nat} (fits : s.extent ≤ depth) :
    s.Rereads depth s.empty := by
  match s with
  | .text | .flag | .int _ | .any | .choice _ _ => exact ⟨rfl, Nat.zero_le _⟩
  | .list item =>
    cases depth with
    | zero => exact absurd fits (Nat.not_succ_le_zero _)
    | succ depth => exact Shape.rereads_list nofun
  | .dict item =>
    cases depth with
    | zero => exact absurd fits (Nat.not_succ_le_zero _)
    | succ depth => exact Shape.rereads_dict nofun
  | .record _ fields =>
    cases depth with
    | zero => exact absurd fits (Nat.not_succ_le_zero _)
    | succ depth => exact Shape.rereads_record (fields.rereads_empty (Nat.le_of_succ_le_succ fits))

theorem Fields.rereads_empty (fields : Fields) {depth : Nat} (fits : fields.extent ≤ depth) :
    fields.Rereads depth fields.empty := by
  match fields with
  | .nil => trivial
  | .cons ⟨_, presence, _⟩ shape rest =>
    have here := shape.rereads_empty ((Nat.le_max_left _ _).trans fits)
    have later := rest.rereads_empty ((Nat.le_max_right _ _).trans fits)
    cases presence with
    | required | defaulted => exact ⟨by rintro x ⟨⟩; exact ⟨nofun, here⟩, later⟩
    | optional => exact ⟨nofun, later⟩

end

theorem absent_rereads {p : Presence} {s : Shape} (fits : s.extent ≤ depth) {v : p.Val s.Val}
    (absent : absent? p s = some v) : p.Rereads s depth v := by
  cases p with
  | required => exact nomatch absent
  | optional =>
    cases absent
    exact nofun
  | defaulted =>
    cases absent
    rintro x ⟨⟩
    exact ⟨nofun, s.rereads_empty fits⟩

theorem Fields.finish_rereads {fields : Fields} (fits : fields.extent ≤ depth)
    {slots : fields.Slots} {v : fields.Val} (filled : fields.SlotsReread depth slots)
    (finished : fields.finish slots = .ok v) : fields.Rereads depth v := by
  match fields, slots, v with
  | .nil, _, _ => trivial
  | .cons field shape rest, (slot, slots), (v, vs) =>
    obtain ⟨here, later⟩ := finish_cons.mp finished
    refine ⟨?_, finish_rereads ((Nat.le_max_right _ _).trans fits) filled.2 later⟩
    cases slot with
    | some w =>
      cases here
      exact filled.1 v rfl
    | none => exact absent_rereads ((Nat.le_max_left _ _).trans fits) here

/-! Reading -/

/-- A document that is null is read from a text that begins like null. -/
theorem Shape.null_of_read {s : Shape} {v : s.Val} (read : s.read depth bytes = .ok (v, rest))
    (null : (s.json v).isNull = true) : ∃ tail, skipBlanks bytes = letterN :: tail := by
  match s, v with
  | .any, v =>
    obtain ⟨⟨j, _⟩, here, read⟩ := ok_of_bind
      (show Json.read depth bytes >>= (fun r => pure (Value.ofJson r.1, r.2)) = _ from read)
    cases read
    change j.canonical.isNull = true at null
    rw [Json.isNull_canonical] at null
    have begins := Json.begins_of_read here
    rw [Json.isNull_iff.mp null] at begins
    generalize skipBlanks bytes = visible at begins
    cases begins with
    | null => exact ⟨_, rfl⟩
  | .text, _ | .flag, _ | .int _, _ | .choice _ _, _ | .list _, _ | .dict _, _ | .record _ _, _ =>
    exact absurd null Bool.false_ne_true

theorem readPresent_rereads {p : Presence} {s : Shape}
    (each : ∀ bytes v rest, s.read depth bytes = .ok (v, rest) → s.Rereads depth v)
    {v : p.Val s.Val}
    (read : Shape.readPresent p (s.read depth) bytes = .ok (v, rest)) : p.Rereads s depth v := by
  cases p with
  | required | defaulted =>
    rintro x ⟨⟩
    exact ⟨nofun, each _ _ _ read⟩
  | optional =>
    rcases Shape.optional_of_read read with ⟨rfl, _⟩ | ⟨x, rfl, here, other⟩
    · exact nofun
    · rintro _ ⟨⟩
      refine ⟨fun _ => Bool.eq_false_iff.mpr fun null => ?_, each _ _ _ here⟩
      obtain ⟨tail, visible⟩ := Shape.null_of_read here null
      rw [skipBlanks_skipBlanks] at visible
      exact other tail visible

mutual

/-- Whatever is read can be read again. -/
theorem Shape.rereads_of_read (s : Shape) {depth : Nat} (fits : s.extent ≤ depth)
    {bytes rest : Bytes} {v : s.Val} (read : s.read depth bytes = .ok (v, rest)) :
    s.Rereads depth v := by
  match s, v with
  | .text, _ | .flag, _ | .int _, _ | .choice _ _, _ => exact ⟨rfl, Nat.zero_le _⟩
  | .any, v =>
    obtain ⟨⟨j, _⟩, here, read⟩ := ok_of_bind
      (show Json.read depth bytes >>= (fun r => pure (Value.ofJson r.1, r.2)) = _ from read)
    cases read
    exact ⟨rfl, (Json.height_canonical j).trans (Json.height_of_read here)⟩
  | .list item, v =>
    obtain ⟨d, tail, rfl, _, body⟩ := Shape.list_of_read read
    have inside := Nat.le_of_succ_le_succ fits
    exact Shape.rereads_list (listBody_forall (fun _ _ _ => item.rereads_of_read inside) body)
  | .dict item, v =>
    obtain ⟨d, tail, rfl, _, body⟩ := Shape.dict_of_read read
    have inside := Nat.le_of_succ_le_succ fits
    refine Shape.rereads_dict (objectBody_keep (I := fun v : Dict String item.Val =>
      ∀ e ∈ v.entries, item.Rereads d e.2) ?_ (fun _ none => absurd none List.not_mem_nil) body)
    intro name v bytes w rest each here
    obtain ⟨⟨⟨⟩, value⟩, _, here⟩ := ok_of_bind here
    obtain ⟨⟨x, _⟩, found, here⟩ := ok_of_bind here
    cases here
    intro e member
    rcases Entries.mem_insert member with rfl | before
    · exact item.rereads_of_read inside found
    · exact each e before
  | .record noun fields, v =>
    obtain ⟨d, rfl, body⟩ := Shape.record_of_read read
    have inside := Nat.le_of_succ_le_succ fits
    cases body with
    | @object _ slots _ body finished =>
      have filled : fields.SlotsReread d slots := by
        refine objectBody_keep ?_ fields.noSlots_reread body
        intro name slots bytes slots' rest before here
        cases known : fields.readMember? d name slots with
        | some reader =>
          rw [Fields.readMember, known] at here
          exact fields.member_rereads inside known before here
        | none =>
          rw [Fields.readMember, known] at here
          obtain ⟨⟨⟨⟩, value⟩, _, here⟩ := ok_of_bind here
          obtain ⟨⟨⟨⟩, _⟩, _, here⟩ := ok_of_bind here
          cases here
          exact before
      exact Shape.rereads_record (Fields.finish_rereads inside filled finished)
    | list _ items => exact Shape.rereads_record (fields.items_reread inside items)

/-- A member leaves the slots as they should be. -/
theorem Fields.member_rereads (fields : Fields) {depth : Nat} (fits : fields.extent ≤ depth)
    {name : String} {slots slots' : fields.Slots} {reader : Reader fields.Slots}
    (known : fields.readMember? depth name slots = some reader)
    (before : fields.SlotsReread depth slots) {bytes rest : Bytes}
    (read : reader bytes = .ok (slots', rest)) : fields.SlotsReread depth slots' := by
  match fields, slots, slots' with
  | .nil, _, _ => exact nomatch known
  | .cons field shape others, (slot, slots), (slot', slots') =>
    simp only [Fields.readMember?] at known
    by_cases own : field.answersTo name = true
    · rw [if_pos own] at known
      cases known
      cases slot with
      | some _ => exact absurd read Scan.not_faultOver
      | none =>
        obtain ⟨⟨⟨⟩, value⟩, _, read⟩ := ok_of_bind read
        obtain ⟨⟨v, _⟩, here, read⟩ := ok_of_bind read
        cases read
        have inside := (Nat.le_max_left _ _).trans fits
        refine ⟨?_, before.2⟩
        rintro _ ⟨⟩
        exact readPresent_rereads (fun _ _ _ => shape.rereads_of_read inside) here
    · rw [if_neg own] at known
      obtain ⟨inner, found, rfl⟩ := Option.map_eq_some_iff.mp known
      obtain ⟨⟨slots', _⟩, here, read⟩ := ok_of_bind read
      cases read
      have inside := (Nat.le_max_right _ _).trans fits
      exact ⟨before.1, others.member_rereads inside found before.2 here⟩

theorem Fields.items_reread (fields : Fields) {depth : Nat} (fits : fields.extent ≤ depth)
    {expected : String} {index : Nat} {first : Bool} {bytes rest : Bytes} {v : fields.Val}
    (read : fields.readItems expected depth index first bytes = .ok (v, rest)) :
    fields.Rereads depth v := by
  match fields, v with
  | .nil, _ => trivial
  | .cons field shape others, (v, vs) =>
    have here := (Nat.le_max_left _ _).trans fits
    have there := (Nat.le_max_right _ _).trans fits
    obtain ⟨⟨more, next⟩, _, read⟩ := ok_of_bind read
    cases more with
    | true =>
      obtain ⟨⟨w, middle⟩, first, read⟩ := ok_of_bind
        (show Shape.readPresent field.presence (shape.read depth) next >>= _ = _ from read)
      obtain ⟨⟨ws, _⟩, later, read⟩ := ok_of_bind read
      cases read
      exact ⟨readPresent_rereads (fun _ _ _ => shape.rereads_of_read here) first,
        others.items_reread there later⟩
    | false =>
      cases absent : absent? field.presence shape with
      | none =>
        simp only [absent] at read
        exact absurd read Scan.not_faultOver
      | some w =>
        simp only [absent] at read
        obtain ⟨⟨ws, _⟩, later, read⟩ := ok_of_bind read
        cases read
        exact ⟨absent_rereads here absent, others.items_reread there later⟩

end

end AdmissionGuest
