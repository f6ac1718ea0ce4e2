import AdmissionGuest.Json.Value
import AdmissionGuest.Proofs.Json.Parts
import AdmissionGuest.Proofs.Json.Read
/-!
How deep documents are nested that were read within a limit. Whatever the loops of lists and objects
keep at every part holds of the whole.
-/

namespace AdmissionGuest

open Ascii Scan

/-! Carried documents -/

namespace Entries

theorem mem_foldl_insert {κ α : Type} [Ord κ] {entries sorted : List (κ × α)} {e : κ × α}
    (member : e ∈ entries.foldl (fun sorted (key, value) => insert key value sorted) sorted) :
    e ∈ entries ∨ e ∈ sorted := by
  induction entries generalizing sorted with
  | nil => exact .inr member
  | cons entry entries ih =>
    rcases ih member with later | inserted
    · exact .inl (List.mem_cons_of_mem _ later)
    · rcases mem_insert inserted with rfl | before
      · exact .inl List.mem_cons_self
      · exact .inr before

theorem mem_ofList {κ α : Type} [Ord κ] {entries : List (κ × α)} {e : κ × α}
    (member : e ∈ ofList entries) : e ∈ entries :=
  (mem_foldl_insert member).resolve_right List.not_mem_nil

end Entries

namespace Json

theorem isNull_canonical (j : Json) : j.canonical.isNull = j.isNull := by
  cases j <;> rfl

mutual

theorem height_canonical (j : Json) : j.canonical.height ≤ j.height := by
  cases j with
  | list xs =>
    exact Nat.succ_le_succ (heightItems_le_iff.mpr (height_canonicalItems xs))
  | object ms =>
    refine Nat.succ_le_succ (heightMembers_le_iff.mpr fun m member => ?_)
    exact height_canonicalMembers ms m (Entries.mem_ofList member)
  | _ => exact Nat.le_refl _

theorem height_canonicalItems (xs : List Json) :
    ∀ x ∈ canonicalItems xs, x.height ≤ heightItems xs := by
  intro x member
  cases xs with
  | nil => exact nomatch member
  | cons y xs =>
    rcases List.mem_cons.mp member with rfl | later
    · exact (height_canonical y).trans (Nat.le_max_left _ _)
    · exact (height_canonicalItems xs x later).trans (Nat.le_max_right _ _)

theorem height_canonicalMembers (ms : List (String × Json)) :
    ∀ m ∈ canonicalMembers ms, m.2.height ≤ heightMembers ms := by
  intro m member
  cases ms with
  | nil => exact nomatch member
  | cons n ms =>
    rcases List.mem_cons.mp member with rfl | later
    · exact (height_canonical n.2).trans (Nat.le_max_left _ _)
    · exact (height_canonicalMembers ms m later).trans (Nat.le_max_right _ _)

end

end Json

/-! What the loops keep -/

namespace Scan

theorem items_forall {α : Type} {item : Reader α} {P : α → Prop}
    (each : ∀ bytes x rest, item bytes = .ok (x, rest) → P x) {bound bytes rest : Bytes}
    {first : Bool} {xs : List α} (read : items item bound first bytes = .ok (xs, rest)) :
    ∀ x ∈ xs, P x := by
  induction bound generalizing first bytes xs with
  | nil => exact nomatch read
  | cons _ bound ih =>
    obtain ⟨⟨more, next⟩, _, read⟩ := ok_of_bind read
    cases more with
    | false =>
      cases read
      exact nofun
    | true =>
      obtain ⟨⟨x, left⟩, here, read⟩ := ok_of_bind (show item next >>= _ = _ from read)
      obtain ⟨⟨xs, _⟩, later, read⟩ := ok_of_bind read
      cases read
      exact List.forall_mem_cons.mpr ⟨each _ _ _ here, ih later⟩

theorem listBody_forall {α : Type} {item : Reader α} {P : α → Prop}
    (each : ∀ bytes x rest, item bytes = .ok (x, rest) → P x) {bytes rest : Bytes} {xs : List α}
    (read : listBody item bytes = .ok (xs, rest)) : ∀ x ∈ xs, P x := by
  obtain ⟨⟨xs, _⟩, read, closing⟩ := ok_of_bind read
  obtain ⟨⟨⟨⟩, _⟩, _, closing⟩ := ok_of_bind closing
  cases closing
  exact items_forall each read

theorem members_keep {σ : Type} {member : String → σ → Reader σ} {I : σ → Prop}
    (step : ∀ name s bytes t rest, I s → member name s bytes = .ok (t, rest) → I t)
    {bound bytes rest : Bytes} {first : Bool} {s t : σ} (start : I s)
    (read : members member bound first s bytes = .ok (t, rest)) : I t := by
  induction bound generalizing first bytes s with
  | nil => exact nomatch read
  | cons _ bound ih =>
    obtain ⟨⟨name, next⟩, _, read⟩ := ok_of_bind read
    cases name with
    | none =>
      cases read
      exact start
    | some name =>
      obtain ⟨⟨s', left⟩, here, read⟩ := ok_of_bind read
      exact ih (step _ _ _ _ _ start here) read

theorem objectBody_keep {σ : Type} {member : String → σ → Reader σ} {I : σ → Prop}
    (step : ∀ name s bytes t rest, I s → member name s bytes = .ok (t, rest) → I t)
    {bytes rest : Bytes} {s t : σ} (start : I s)
    (read : objectBody member s bytes = .ok (t, rest)) : I t := by
  obtain ⟨⟨t, _⟩, read, closing⟩ := ok_of_bind read
  obtain ⟨⟨⟨⟩, _⟩, _, closing⟩ := ok_of_bind closing
  cases closing
  exact members_keep step start read

end Scan

theorem Json.height_of_read {depth : Nat} {bytes rest : Bytes} {j : Json}
    (read : Json.read depth bytes = .ok (j, rest)) : j.height ≤ depth := by
  induction depth using Nat.strongRecOn generalizing bytes rest j with
  | _ depth ih =>
    have begins := begins_of_read read
    generalize skipBlanks bytes = visible at begins
    cases begins with
    | null | yes | no | number | text => exact Nat.zero_le _
    | @list inner _ _ xs deeper body =>
      subst deeper
      refine Nat.succ_le_succ (heightItems_le_iff.mpr ?_)
      exact listBody_forall (fun _ _ _ here => ih inner (Nat.lt_succ_self _) here) body
    | @object inner _ _ ms deeper body =>
      subst deeper
      refine Nat.succ_le_succ (heightMembers_le_iff.mpr fun m member => ?_)
      refine objectBody_keep (I := fun ms => ∀ m ∈ ms, m.2.height ≤ inner) ?_ nofun body m
        (List.mem_reverse.mp member)
      intro name ms bytes t rest shallow here
      obtain ⟨⟨⟨⟩, value⟩, _, here⟩ := ok_of_bind here
      obtain ⟨⟨x, _⟩, inside, here⟩ := ok_of_bind here
      cases here
      exact List.forall_mem_cons.mpr ⟨ih inner (Nat.lt_succ_self _) inside, shallow⟩

end AdmissionGuest
