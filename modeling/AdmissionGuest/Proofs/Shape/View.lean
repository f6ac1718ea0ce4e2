import AdmissionGuest.Proofs.Json.Read
import AdmissionGuest.Shape.View
/-!
Viewing an object as a record goes member by member: each one goes into the slot of its field or is
passed over.
-/

namespace AdmissionGuest

theorem ok_of_mapError {ε δ α : Type} {x : Except ε α} {f : ε → δ} {a : α}
    (done : x.mapError f = .ok a) : x = .ok a := by
  cases x with
  | error e => exact nomatch done
  | ok a => rw [Except.ok.inj done]

theorem map_ok_iff {ε α β : Type} {f : α → β} {x : Except ε α} {b : β} :
    f <$> x = .ok b ↔ ∃ a, x = .ok a ∧ b = f a := by
  cases x with
  | error e => exact ⟨nofun, fun ⟨_, done, _⟩ => nomatch done⟩
  | ok a =>
    constructor
    · rintro ⟨⟩
      exact ⟨a, rfl, rfl⟩
    · rintro ⟨_, ⟨⟩, rfl⟩
      rfl

variable {kept : Kept} {fields : Fields}

/-- One step of viewing an object as a record. -/
def Fields.viewMember (kept : Kept) (fields : Fields) (slots : fields.Slots)
    (member : String × Json) : Except Cause fields.Slots :=
  (fields.viewMember? kept member.1 member.2 slots).getD (.ok slots)

theorem view_object {noun : String} {members : List (String × Json)} :
    (Shape.record noun fields).view kept (.object members) = (do
      let slots ← members.foldlM (fields.viewMember kept) fields.noSlots
      (fields.finish slots).mapError .missingMember : Except Cause fields.Val) := rfl

theorem view_object_ok {noun : String} {members : List (String × Json)} {v : fields.Val}
    (viewed : (Shape.record noun fields).view kept (.object members) = .ok v) :
    ∃ slots, members.foldlM (fields.viewMember kept) fields.noSlots = .ok slots ∧
      fields.finish slots = .ok v := by
  rw [view_object] at viewed
  obtain ⟨slots, run, finished⟩ := ok_of_bind viewed
  exact ⟨slots, run, ok_of_mapError finished⟩

end AdmissionGuest
