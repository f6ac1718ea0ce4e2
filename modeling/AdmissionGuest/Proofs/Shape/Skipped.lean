import AdmissionGuest.Proofs.Json.Skip.Extent
import AdmissionGuest.Proofs.Shape.Reading.Inversion
/-!
Whatever is read by a shape is skipped to where reading it stops, members that no field answers to
included. So no shape is read off a document that breaks off.
-/

namespace AdmissionGuest

open Ascii Scan Skip

variable {depth : Nat} {bytes rest : Bytes} {frames : List Frame}

theorem skippable_present {p : Presence} {α : Type} {item : Reader α} (skippable : Skippable item) :
    Skippable (Shape.readPresent p item) := by
  cases p with
  | required | defaulted => exact skippable
  | optional =>
    intro bytes rest v read frames
    rcases Shape.optional_of_read read with ⟨_, tail, visible, spelled⟩ | ⟨x, _, here, _⟩
    · exact skips_word .null visible spelled
    · exact (skippable here frames).blanks

theorem skips_choice (read : Shape.ChoiceRead bytes rest) : Skips frames bytes rest := by
  cases read with
  | name visible body => exact skips_text visible body
  | object visible named separated null closed =>
    obtain ⟨tail, start, spelled⟩ := Shape.null_of_readUnit null
    have ended : Leaves .object frames false _ rest := .close closed
    exact Leaves.member named (memberColon_inv separated) (skips_word .null start spelled) ended _
      visible

/-- Absent fields take nothing: the end of their list is where it was. -/
theorem Fields.readItems_closed (fields : Fields)
    (closed : ∀ first, nextItem first bytes = .ok (false, bytes)) {expected : String} {index : Nat}
    {first : Bool} {v : fields.Val}
    (read : fields.readItems expected depth index first bytes = .ok (v, rest)) : rest = bytes := by
  match fields, v with
  | .nil, _ =>
    cases read
    rfl
  | .cons field shape others, (v, vs) =>
    obtain ⟨⟨more, next⟩, moved, read⟩ := ok_of_bind read
    rw [closed] at moved
    cases moved
    cases absent : absent? field.presence shape with
    | none =>
      simp only [absent] at read
      exact absurd read not_faultOver
    | some w =>
      simp only [absent] at read
      obtain ⟨⟨ws, _⟩, later, read⟩ := ok_of_bind read
      cases read
      exact others.readItems_closed closed later

mutual

/-- The cases are the shapes; a list or an object is skipped part by part. -/
theorem Shape.skippable (s : Shape) (depth : Nat) : Skippable (s.read depth) := by
  intro bytes rest v read frames
  match s, v with
  | .text, v =>
    obtain ⟨tail, visible, body⟩ := Shape.text_of_read read
    exact skips_text visible body
  | .flag, v =>
    obtain ⟨tail, visible, spelled⟩ := Shape.flag_of_read read
    cases v with
    | true => exact skips_word .yes visible spelled
    | false => exact skips_word .no visible spelled
  | .int width, v =>
    obtain ⟨b, tail, n, visible, leads, numeral, _⟩ := Shape.int_of_read read
    exact skips_number visible leads numeral
  | .any, v => exact (skippable_read depth).map Value.ofJson read frames
  | .choice first others, v => exact skips_choice (Shape.choice_of_read read)
  | .list item, v =>
    obtain ⟨d, tail, rfl, visible, body⟩ := Shape.list_of_read read
    exact leaves_restOfList (item.skippable d) body bytes visible
  | .dict item, v =>
    obtain ⟨d, tail, rfl, visible, body⟩ := Shape.dict_of_read read
    refine leaves_objectBody (fun name v bytes w rest here => ?_) body bytes visible
    obtain ⟨⟨⟨⟩, value⟩, separated, here⟩ := ok_of_bind here
    obtain ⟨⟨x, _⟩, found, here⟩ := ok_of_bind here
    cases here
    exact skipsMember_of_colon (item.skippable d) separated found
  | .record noun fields, v =>
    obtain ⟨d, rfl, whole⟩ := Shape.record_of_read read
    cases whole with
    | object visible body =>
      refine leaves_objectBody (fun name slots bytes slots' rest here => ?_) body bytes visible
      cases known : fields.readMember? d name slots with
      | some reader =>
        rw [Fields.readMember, known] at here
        exact fields.member_skips known here
      | none =>
        rw [Fields.readMember, known] at here
        obtain ⟨⟨⟨⟩, value⟩, separated, here⟩ := ok_of_bind here
        obtain ⟨⟨⟨⟩, _⟩, skipped, here⟩ := ok_of_bind here
        cases here
        exact skipsMember_of_colon skippable_skip separated skipped
    | list visible items ended => exact fields.items_leave items ended bytes visible

theorem Fields.member_skips (fields : Fields) {depth : Nat} {name : String}
    {slots slots' : fields.Slots} {reader : Reader fields.Slots}
    (known : fields.readMember? depth name slots = some reader) {bytes rest : Bytes}
    (read : reader bytes = .ok (slots', rest)) : SkipsMember bytes rest := by
  match fields, slots, slots' with
  | .nil, _, _ => exact nomatch known
  | .cons field shape others, (slot, slots), (slot', slots') =>
    simp only [Fields.readMember?] at known
    by_cases own : field.answersTo name = true
    · rw [if_pos own] at known
      cases known
      cases slot with
      | some _ => exact absurd read not_faultOver
      | none =>
        obtain ⟨⟨⟨⟩, value⟩, separated, read⟩ := ok_of_bind read
        obtain ⟨⟨v, _⟩, here, read⟩ := ok_of_bind read
        cases read
        exact skipsMember_of_colon (skippable_present (shape.skippable depth)) separated here
    · rw [if_neg own] at known
      obtain ⟨inner, found, rfl⟩ := Option.map_eq_some_iff.mp known
      obtain ⟨⟨slots', _⟩, here, read⟩ := ok_of_bind read
      cases read
      exact others.member_skips found here

theorem Fields.items_leave (fields : Fields) {expected : String} {depth index : Nat} {first : Bool}
    {bytes middle rest : Bytes} {v : fields.Val} {frames : List Frame}
    (read : fields.readItems expected depth index first bytes = .ok (v, middle))
    (ended : endList middle = .ok ((), rest)) : Leaves .list frames first bytes rest := by
  match fields, v with
  | .nil, _ =>
    cases read
    exact .close (endList_inv ended)
  | .cons field shape others, (v, vs) =>
    obtain ⟨⟨more, next⟩, moved, read⟩ := ok_of_bind read
    have moved := nextItem_inv moved
    cases more with
    | true =>
      obtain ⟨⟨w, left⟩, here, read⟩ := ok_of_bind
        (show Shape.readPresent field.presence (shape.read depth) next >>= _ = _ from read)
      obtain ⟨⟨ws, _⟩, later, read⟩ := ok_of_bind read
      cases read
      exact .item moved (skippable_present (shape.skippable depth) here _)
        (others.items_leave later ended)
    | false =>
      cases absent : absent? field.presence shape with
      | none =>
        simp only [absent] at read
        exact absurd read not_faultOver
      | some w =>
        simp only [absent] at read
        obtain ⟨⟨ws, _⟩, later, read⟩ := ok_of_bind read
        cases read
        cases moved with
        | close visible =>
          rw [others.readItems_closed (fun _ => rfl) later] at ended
          cases ended
          exact .close visible

end

end AdmissionGuest
