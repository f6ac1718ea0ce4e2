import AdmissionGuest.Proofs.Shape.Reading.Parts
/-!
A record is read off a text as it is viewed in the document, from an object as well as from a list
of its fields; hence so is every shape.
-/

namespace AdmissionGuest

open Ascii Scan

variable {kept : Kept} {depth : Nat} {bytes rest : Bytes}

namespace Shape

theorem readPresent_follows {item : Shape} {j : Json}
    (each : Tracks (Json.read depth) (item.read depth) (item.view kept)) (p : Presence)
    (read : Json.read depth bytes = .ok (j, rest)) :
    Follows (readPresent p (item.read depth) bytes) (viewPresent (item.view kept) p j) rest := by
  cases p with
  | required | defaulted => exact each _ _ _ read
  | optional =>
    have begins := Json.begins_of_read read
    have again : Json.read depth (skipBlanks bytes) = .ok (j, rest) := by
      rw [Json.read_skipBlanks, read]
    change Follows (readOptional (item.read depth) bytes) _ rest
    unfold readOptional
    generalize skipBlanks bytes = visible at begins again
    have present {b : UInt8} {tail : Bytes} {x : Except Cause (Option item.Val)}
        {null : Except Fault (Option item.Val × Bytes)} (notNull : b ≠ letterN)
        (here : Json.read depth (b :: tail) = .ok (j, rest))
        (same : x = some <$> item.view kept j) :
        Follows (if b = letterN then null else do
          let (v, rest) ← item.read depth (b :: tail)
          return (some v, rest)) x rest := by
      rw [if_neg notNull, same]
      exact (each _ _ _ here).map some
    cases begins with
    | yes | no | text | list | object => exact present (by decide) again rfl
    | number leads => exact present leads.notWord.1 again rfl
    | null word =>
      simp only [if_true, word]
      exact .done

end Shape

namespace Fields

/-- What is done with a member: it goes into its slot or is skipped. -/
def readMember (fields : Fields) (depth : Nat) (name : String) (slots : fields.Slots) :
    Reader fields.Slots :=
  match fields.readMember? depth name slots with
  | some reader => reader
  | none => do
    memberColon
    Json.skip
    return slots

/-- Two ways to fill a slot agree: no field has the name, or one follows the other. -/
inductive MemberFollows {σ : Type} (bytes : Bytes) :
    Option (Reader σ) → Option (Except Cause σ) → Bytes → Prop where
  | unknown {rest : Bytes} : MemberFollows bytes none none rest
  | known {reader : Reader σ} {view : Except Cause σ} {rest : Bytes}
    (follows : Follows (reader bytes) view rest) :
    MemberFollows bytes (some reader) (some view) rest

theorem readMember_follows {fields : Fields}
    (each : ∀ (name : String) (slots : fields.Slots) (bytes value rest : Bytes) (x : Json),
      memberColon bytes = .ok ((), value) → Json.read depth value = .ok (x, rest) →
      MemberFollows bytes (fields.readMember? depth name slots)
        (fields.viewMember? kept name x slots) rest) :
    Shape.TracksMembers (Json.read depth) (fields.readMember depth) (fields.viewMember kept) := by
  intro name slots bytes value rest x colon here
  have member := each name slots bytes value rest x colon here
  unfold readMember viewMember
  generalize fields.readMember? depth name slots = reader at member
  generalize fields.viewMember? kept name x slots = view at member
  cases member with
  | known follows => exact follows
  | unknown =>
    change Follows (memberColon bytes >>= _) _ rest
    rw [colon]
    change Follows (Json.skip value >>= _) _ rest
    rw [Json.skip_of_read here]
    exact .done

theorem readObject_follows {fields : Fields}
    (each :
      Shape.TracksMembers (Json.read depth) (fields.readMember depth) (fields.viewMember kept))
    {ms : List (String × Json)} {noun : String}
    (read : objectBody (Json.keepMember (Json.read depth)) [] bytes = .ok (ms, rest)) :
    Follows (fields.readObject (fields.readMember? depth) bytes)
      ((Shape.record noun fields).view kept (.object ms.reverse)) rest := by
  rw [view_object]
  refine (Shape.objectBody_follows each read).bind fun slots _ => ?_
  dsimp only
  cases fields.finish slots with
  | ok vs => exact .done
  | error name => exact .failed

/-- Reading the fields off a list follows viewing its items: both fail, or both leave the same
items. -/
inductive ItemsFollow {α : Type} (reader : Reader Json) (middle : Bytes) :
    Except Fault (α × Bytes) → Except Cause (α × List Json) → Prop where
  | failed {fault : Fault} {cause : Cause} : ItemsFollow reader middle (.error fault) (.error cause)
  | done {a : α} {bound next : Bytes} {first : Bool} {left : List Json}
    (later : items reader bound first next = .ok (left, middle)) :
    ItemsFollow reader middle (.ok (a, next)) (.ok (a, left))

theorem ItemsFollow.map {α β : Type} {reader : Reader Json} {middle : Bytes}
    {read : Except Fault (α × Bytes)} {view : Except Cause (α × List Json)}
    (follow : ItemsFollow reader middle read view) (f : α → β) :
    ItemsFollow reader middle (read >>= fun r => pure (f r.1, r.2))
      (view >>= fun r => pure (f r.1, r.2)) := by
  cases follow with
  | failed => exact .failed
  | done later => exact .done later

theorem itemsFollow_bind {α β : Type} {reader : Reader Json} {left middle : Bytes}
    {read : Except Fault (α × Bytes)} {view : Except Cause α} (follows : Follows read view left)
    {f : α × Bytes → Except Fault (β × Bytes)} {g : α → Except Cause (β × List Json)}
    (next : ∀ a, ItemsFollow reader middle (f (a, left)) (g a)) :
    ItemsFollow reader middle (read >>= f) (view >>= g) := by
  cases view with
  | error cause =>
    cases read with
    | error fault => exact .failed
    | ok found => exact nomatch follows
  | ok a =>
    cases read with
    | error fault => exact nomatch follows
    | ok found =>
      obtain rfl := Option.some.inj follows
      exact next a

/-- A list with items left over is not ended. -/
theorem endList_of_left {reader : Reader Json} {bound next middle : Bytes} {first : Bool} {x : Json}
    {left : List Json} (later : items reader bound first next = .ok (x :: left, middle)) :
    ∃ fault, endList next = .error fault := by
  cases bound with
  | nil => exact nomatch later
  | cons _ bound =>
    obtain ⟨⟨more, _⟩, moved, later⟩ := ok_of_bind later
    have notEnd {b : UInt8} {tail : Bytes} (visible : skipBlanks next = b :: tail)
        (inside : b ≠ closeList) : ∃ fault, endList next = .error fault := by
      simp only [endList, visible, if_neg inside]
      split
      next =>
        split
        next => exact ⟨_, rfl⟩
        next => split <;> exact ⟨_, rfl⟩
      next => exact ⟨_, rfl⟩
    cases nextItem_inv moved with
    | close visible => exact nomatch later
    | first visible inside => exact notEnd visible inside
    | comma visible => exact notEnd visible (by decide)

theorem endList_of_none {reader : Reader Json} {bound next middle : Bytes} {first : Bool}
    (later : items reader bound first next = .ok ([], middle))
    (ended : endList middle = .ok ((), rest)) : endList next = .ok ((), rest) := by
  cases bound with
  | nil => exact nomatch later
  | cons _ bound =>
    obtain ⟨⟨more, _⟩, moved, later⟩ := ok_of_bind later
    cases nextItem_inv moved with
    | close visible =>
      cases later
      cases ended
      simp only [endList, visible, if_true]
    | first | comma =>
      obtain ⟨⟨_, _⟩, _, later⟩ := ok_of_bind (show reader _ >>= _ = _ from later)
      obtain ⟨⟨_, _⟩, _, later⟩ := ok_of_bind later
      exact nomatch later

/-- A list of fields is ended exactly if no item is left. -/
theorem ItemsFollow.ended {α : Type} {reader : Reader Json} {middle : Bytes}
    {read : Except Fault (α × Bytes)} {view : Except Cause (α × List Json)}
    (follow : ItemsFollow reader middle read view) (ended : endList middle = .ok ((), rest))
    (tooLong : List Json → Cause) :
    Follows (read >>= fun r => endList r.2 >>= fun e => pure (r.1, e.2))
      (view >>= fun r =>
        match r.2 with
        | [] => pure r.1
        | _ => .error (tooLong r.2))
      rest := by
  cases follow with
  | failed => exact .failed
  | @done a _ next _ left later =>
    cases left with
    | nil =>
      change Follows (endList next >>= _) _ rest
      rw [endList_of_none later ended]
      exact .done
    | cons x left =>
      obtain ⟨fault, notEnded⟩ := endList_of_left later
      change Follows (endList next >>= _) _ rest
      rw [notEnded]
      exact .failed

theorem readRecord_follows {fields : Fields} {noun : String} {j : Json}
    (member : ∀ d, Shape.TracksMembers (Json.read d) (fields.readMember d) (fields.viewMember kept))
    (item : ∀ (d : Nat) (bytes middle : Bytes) (bound : Bytes) (xs : List Json),
      items (Json.read d) bound true bytes = .ok (xs, middle) →
      ItemsFollow (Json.read d) middle (fields.readItems (fields.expected noun) d 0 true bytes)
        (fields.viewItems kept (fields.expected noun) 0 xs))
    (read : Json.read depth bytes = .ok (j, rest)) :
    Follows ((Shape.record noun fields).read depth bytes) ((Shape.record noun fields).view kept j)
      rest := by
  have begins := Json.begins_of_read read
  change Follows (fields.readRecord noun fields.readMember?
    (fields.readItems (fields.expected noun)) depth bytes) _ rest
  unfold readRecord
  generalize skipBlanks bytes = visible at begins
  cases begins with
  | null | yes | no | text =>
    exact .otherwise (by decide) (.otherwise (by decide) Shape.mismatch_follows)
  | number leads =>
    exact .otherwise leads.notOpening.2.2 (.otherwise leads.notOpening.2.1 Shape.mismatch_follows)
  | object deeper members =>
    subst deeper
    exact readObject_follows (member _) members
  | @list inner tail _ xs deeper body =>
    subst deeper
    obtain ⟨⟨xs, middle⟩, body, closing⟩ := ok_of_bind body
    obtain ⟨⟨⟨⟩, _⟩, ended, closing⟩ := ok_of_bind closing
    cases closing
    exact (item _ _ _ _ _ body).ended ended fun left =>
      kept.tooLong xs.length (xs.length - left.length)

end Fields

mutual

theorem Shape.read_follows (kept : Kept) (s : Shape) (depth : Nat) :
    Shape.Tracks (Json.read depth) (s.read depth) (s.view kept) := by
  intro bytes rest j read
  match s with
  | .text => exact Shape.readText_follows _ read
  | .flag => exact Shape.readFlag_follows read
  | .int width => exact Shape.readInt_follows width read
  | .any =>
    change Follows (Json.read depth bytes >>= _) _ rest
    rw [read]
    exact .done
  | .choice first others => exact Shape.readChoice_follows read
  | .list item => exact Shape.readList_follows (fun d => item.read_follows kept d) read
  | .dict item => exact Shape.readDict_follows (fun d => item.read_follows kept d) read
  | .record noun fields =>
    exact Fields.readRecord_follows
      (fun d => Fields.readMember_follows (fields.member_follows kept d))
      (fun d => fields.items_follow kept d _ 0 true) read

theorem Fields.member_follows (kept : Kept) (fields : Fields) (depth : Nat) (name : String)
    (slots : fields.Slots) (bytes value rest : Bytes) (x : Json)
    (colon : memberColon bytes = .ok ((), value)) (read : Json.read depth value = .ok (x, rest)) :
    Fields.MemberFollows bytes (fields.readMember? depth name slots)
      (fields.viewMember? kept name x slots) rest := by
  match fields, slots with
  | .nil, _ => exact .unknown
  | .cons field shape others, (slot, slots) =>
    simp only [Fields.readMember?, Fields.viewMember?]
    by_cases own : field.answersTo name = true
    · rw [if_pos own, if_pos own]
      refine .known ?_
      cases slot with
      | some v =>
        exact faultOver_follows
      | none =>
        change Follows (memberColon bytes >>= _) _ rest
        rw [colon]
        exact (Shape.readPresent_follows (shape.read_follows kept depth) field.presence read).bind
          fun v _ => .done
    · rw [if_neg own, if_neg own]
      have follow := others.member_follows kept depth name slots bytes value rest x colon read
      generalize others.readMember? depth name slots = reader at follow
      generalize others.viewMember? kept name x slots = view at follow
      cases follow with
      | unknown => exact .unknown
      | known follows => exact .known (follows.bind fun t _ => .done)

theorem Fields.items_follow (kept : Kept) (fields : Fields) (depth : Nat) (expected : String)
    (index : Nat) (first : Bool) (bytes middle bound : Bytes) (xs : List Json)
    (read : items (Json.read depth) bound first bytes = .ok (xs, middle)) :
    Fields.ItemsFollow (Json.read depth) middle (fields.readItems expected depth index first bytes)
      (fields.viewItems kept expected index xs) := by
  match fields with
  | .nil => exact .done read
  | .cons field shape others =>
    cases bound with
    | nil => exact nomatch read
    | cons b bound =>
      obtain ⟨⟨more, next⟩, moved, read⟩ := ok_of_bind read
      cases more with
      | false =>
        cases read
        cases nextItem_inv moved with
        | @close _ _ tail visible =>
          have follow := others.items_follow kept depth expected (index + 1) first
            (closeList :: tail) (closeList :: tail) [b] [] rfl
          change Fields.ItemsFollow _ _ (nextItem first bytes >>= _) _
          rw [moved]
          simp only [Fields.viewItems]
          cases absent? field.presence shape with
          | some v => exact follow.map fun vs => (v, vs)
          | none => exact .failed
      | true =>
        obtain ⟨⟨x, left⟩, here, read⟩ := ok_of_bind (show Json.read depth next >>= _ = _ from read)
        obtain ⟨⟨xs, _⟩, later, read⟩ := ok_of_bind read
        cases read
        have present := Shape.readPresent_follows (shape.read_follows kept depth)
          field.presence here
        have follow := others.items_follow kept depth expected (index + 1) false left middle
          bound xs later
        change Fields.ItemsFollow _ _ (nextItem first bytes >>= _) _
        rw [moved]
        exact Fields.itemsFollow_bind present fun v => follow.map fun vs => (v, vs)

end

end AdmissionGuest
