import Mathlib.Data.List.Sort
import AdmissionGuest.Proofs.Json.Value
/-!
Looking a key up in a map. What is found says everything about a map: two maps in which every key is
found alike are the same.
-/

namespace AdmissionGuest

namespace Entries

variable {κ α : Type} [DecidableEq κ]

theorem find?_cons (key k : κ) (v : α) (rest : List (κ × α)) :
    find? key ((k, v) :: rest) = if k = key then some v else find? key rest := by
  by_cases here : k = key
  · simp [find?, here]
  · simp [find?, here]

variable [Ord κ] [Std.LawfulEqOrd κ]

theorem find?_insert (key other : κ) (value : α) (entries : List (κ × α)) :
    find? other (insert key value entries) =
      if key = other then some value else find? other entries := by
  induction entries with
  | nil => simp [insert, find?_cons]
  | cons entry rest ih =>
    obtain ⟨k, v⟩ := entry
    unfold insert
    split
    next => rw [find?_cons]
    next eq =>
      obtain rfl := Std.LawfulEqCmp.eq_of_compare eq
      rw [find?_cons, find?_cons]
      split <;> rfl
    next gt =>
      have apart : k ≠ key := by
        rintro rfl
        rw [Std.ReflOrd.compare_self] at gt
        cases gt
      rw [find?_cons, ih, find?_cons]
      by_cases here : k = other
      · rw [if_pos here, if_pos here, if_neg (here ▸ apart.symm)]
      · rw [if_neg here, if_neg here]

theorem find?_eq_some_iff {entries : List (κ × α)} (ascending : Ascending entries) {key : κ}
    {value : α} : find? key entries = some value ↔ (key, value) ∈ entries := by
  induction entries with
  | nil => exact ⟨nofun, nofun⟩
  | cons entry rest ih =>
    obtain ⟨k, v⟩ := entry
    have later := ih (List.pairwise_cons.mp ascending).2
    rw [find?_cons]
    by_cases here : k = key
    · subst here
      rw [if_pos rfl]
      constructor
      · rintro ⟨⟩
        exact List.mem_cons_self
      · intro member
        rw [ascending.unique List.mem_cons_self member]
    · rw [if_neg here, later]
      simp [Ne.symm here]

end Entries

namespace Dict

variable {κ α : Type} [Ord κ] [DecidableEq κ]

/-- The value under a key. -/
def get? (d : Dict κ α) (key : κ) : Option α :=
  Entries.find? key d.entries

variable [Std.TransOrd κ] [Std.LawfulEqOrd κ]

theorem get?_insert (d : Dict κ α) (key other : κ) (value : α) :
    (d.insert key value).get? other = if key = other then some value else d.get? other :=
  Entries.find?_insert key other value d.entries

/-- Of two maps with the same values under all keys, the entries are the same: there are the same
ones, and both times they ascend. -/
theorem ext_get? {a b : Dict κ α} (same : ∀ key, a.get? key = b.get? key) : a = b := by
  have distinct (d : Dict κ α) : d.entries.Nodup := by
    refine d.ascending.imp ?_
    rintro e _ less rfl
    rw [Std.ReflOrd.compare_self] at less
    exact nomatch less
  have perm : a.entries.Perm b.entries := by
    rw [List.perm_ext_iff_of_nodup (distinct a) (distinct b)]
    rintro ⟨key, value⟩
    rw [← Entries.find?_eq_some_iff a.ascending, ← Entries.find?_eq_some_iff b.ascending]
    exact iff_of_eq (congrArg (· = some value) (same key))
  apply ext
  refine perm.eq_of_pairwise ?_ a.ascending b.ascending
  intro e e' _ _ less less'
  rw [← Std.OrientedCmp.gt_iff_lt, less] at less'
  exact nomatch less'

end Dict

end AdmissionGuest
