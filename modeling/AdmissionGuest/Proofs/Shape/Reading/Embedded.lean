import AdmissionGuest.Proofs.Shape.Members
import AdmissionGuest.Proofs.Shape.Reading.Record
/-!
Reading a record off an object that was written, member by member. The object as a whole may be
nested deeper than a document may be; it is enough that each member is read where it stands.
-/

namespace AdmissionGuest

open Ascii Scan

namespace Scan

variable {σ : Type} {member : String → σ → Reader σ} {step : σ → String × Json → Except Cause σ}
  {ms : List (String × Json)}

/-- Wherever the text of a member stands, what is done with it follows a step on it. -/
def TracksWritten (member : String → σ → Reader σ) (step : σ → String × Json → Except Cause σ)
    (m : String × Json) : Prop :=
  ∀ (s : σ) (rest : Bytes), Stops rest →
    Follows (member m.1 s (colon :: m.2.write ++ rest)) (step s m) rest

theorem members_follow_write (each : ∀ m ∈ ms, TracksWritten member step m) {bound : Bytes}
    (enough : ms.length < bound.length) (s : σ) (rest : Bytes) :
    Follows (members member bound false s (Json.writeMembers ms ++ rest)) (ms.foldlM step s)
      (closeObject :: rest) := by
  induction ms generalizing bound s with
  | nil =>
    cases bound with
    | nil => contradiction
    | cons _ bound => exact .done
  | cons m ms ih =>
    cases bound with
    | nil => contradiction
    | cons _ bound =>
      obtain ⟨name, x⟩ := m
      have next := nextName_comma name (colon :: x.write ++ (Json.writeMembers ms ++ rest))
      have first := each _ List.mem_cons_self s _ (stops_writeMembers ms rest)
      simp only [Json.writeMembers, List.cons_append, List.append_assoc] at next first ⊢
      simp only [members, next, bind, Except.bind, List.foldlM_cons]
      exact first.bind fun t _ =>
        ih (fun m here => each m (List.mem_cons_of_mem _ here)) (Nat.lt_of_succ_lt_succ enough) t

/-- What is done with the members of a written object is done with each of them in turn. -/
theorem objectBody_follows_write (each : ∀ m ∈ ms, TracksWritten member step m) (s : σ)
    (rest : Bytes) :
    ∃ bytes, (Json.object ms).write = openObject :: bytes ∧
      Follows (objectBody member s (bytes ++ rest)) (ms.foldlM step s) rest := by
  cases ms with
  | nil => exact ⟨_, rfl, .done⟩
  | cons m ms =>
    obtain ⟨name, x⟩ := m
    refine ⟨writeText name ++ colon :: x.write ++ Json.writeMembers ms, rfl, ?_⟩
    have next := nextName_first name (colon :: x.write ++ (Json.writeMembers ms ++ rest))
    have first := each _ List.mem_cons_self s _ (stops_writeMembers ms rest)
    have enough : ms.length <
        (writeText name ++ colon :: (x.write ++ (Json.writeMembers ms ++ rest))).length := by
      have tail := length_writeMembers ms
      simp only [List.length_append, List.length_cons]
      omega
    have later (t : σ) := members_follow_write
      (fun m here => each m (List.mem_cons_of_mem _ here)) enough t rest
    simp only [List.cons_append, List.append_assoc] at next first ⊢
    have run :
        Follows (members member
          (openObject :: (writeText name ++ colon :: (x.write ++ (Json.writeMembers ms ++ rest))))
          true s (writeText name ++ colon :: (x.write ++ (Json.writeMembers ms ++ rest))))
        (((name, x) :: ms).foldlM step s) (closeObject :: rest) := by
      simp only [members, next, bind, Except.bind, List.foldlM_cons]
      exact first.bind fun t _ => later t
    rw [objectBody, ← bind_pure (((name, x) :: ms).foldlM step s)]
    exact run.bind fun t _ => .done

end Scan

/-- Wherever the text of a document stands, reading it by a shape follows viewing it. -/
def Shape.ReadsWritten (kept : Kept) (s : Shape) (depth : Nat) (j : Json) : Prop :=
  ∀ rest, Stops rest → Follows (s.read depth (j.write ++ rest)) (s.view kept j) rest

theorem Shape.readsWritten_of_height (kept : Kept) (s : Shape) {depth : Nat} {j : Json}
    (whole : j.Whole) (fits : j.height ≤ depth) : s.ReadsWritten kept depth j :=
  fun rest stops => s.read_follows kept depth _ rest j (Json.read_write j whole fits rest stops)

namespace Fields

variable {kept : Kept} {depth : Nat} {name : String} {field : Field} {shape : Shape}
  {rest fields : Fields} {x : Json}

/-- What is done with a member by the field that it belongs to. -/
theorem tracksWritten_own (own : field.answersTo name = true)
    (required : field.presence = .required)
    (reads : shape.ReadsWritten kept depth x) :
    TracksWritten ((Fields.cons field shape rest).readMember depth)
      ((Fields.cons field shape rest).viewMember kept) (name, x) := by
  rintro ⟨slot, slots⟩ left stops
  obtain ⟨_, _, _⟩ := field
  cases required
  simp only [readMember, readMember?, viewMember, viewMember?, own, if_true, Option.getD_some]
  cases slot with
  | some v =>
    exact faultOver_follows
  | none =>
    change Follows (shape.read depth (x.write ++ left) >>= _) _ left
    exact (reads left stops).bind fun v _ => .done

/-- What is done with a member that belongs to a later field. -/
theorem tracksWritten_others (other : field.answersTo name = false)
    (tracks : TracksWritten (rest.readMember depth) (rest.viewMember kept) (name, x)) :
    TracksWritten ((Fields.cons field shape rest).readMember depth)
      ((Fields.cons field shape rest).viewMember kept) (name, x) := by
  rintro ⟨slot, slots⟩ left stops
  have later := tracks slots left stops
  rw [viewMember_others other]
  simp only [readMember, readMember?, other, Bool.false_eq_true, if_false] at later ⊢
  generalize rest.readMember? depth name slots = found at later ⊢
  cases found with
  | some reader => exact later.map fun t => (slot, t)
  | none =>
    change Follows (Json.skip (x.write ++ left) >>= _) _ left at later
    change Follows (Json.skip (x.write ++ left) >>= _) _ left
    have both := later.map fun t => (slot, t)
    rw [bind_assoc] at both
    exact both

end Fields

/-- A record is read off an object that was written if its members are. -/
theorem Shape.record_readsWritten {kept : Kept} {depth : Nat} {noun : String} {fields : Fields}
    {ms : List (String × Json)}
    (each : ∀ m ∈ ms, TracksWritten (fields.readMember depth) (fields.viewMember kept) m) :
    (Shape.record noun fields).ReadsWritten kept (depth + 1) (.object ms) := by
  intro rest _
  obtain ⟨bytes, written, body⟩ := objectBody_follows_write each fields.noSlots rest
  rw [written, view_object]
  change Follows (fields.readObject (fields.readMember? depth) (bytes ++ rest)) _ rest
  refine Follows.bind body fun slots _ => ?_
  dsimp only
  cases fields.finish slots with
  | ok vs => exact .done
  | error name => exact .failed

end AdmissionGuest
