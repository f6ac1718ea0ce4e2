/-!
Finite maps with an order of their own: the entries stand in ascending key order whatever order they
arrived in, and a later entry replaces an earlier one with the same key. Equal maps are therefore
equal lists. A map that is kept by hashes may have its members written in any order; here they are
always written in the order of their keys, which is one of those orders.
-/

namespace AdmissionGuest

namespace Entries

variable {κ α : Type} [Ord κ]

/-- Puts an entry in its place, over any entry with its key. -/
def insert (key : κ) (value : α) : List (κ × α) → List (κ × α)
  | [] => [(key, value)]
  | (k, v) :: rest =>
    match compare key k with
    | .lt => (key, value) :: (k, v) :: rest
    | .eq => (key, value) :: rest
    | .gt => (k, v) :: insert key value rest

/-- The entries of a list in ascending key order, the last one for each key. -/
def ofList (entries : List (κ × α)) : List (κ × α) :=
  entries.foldl (fun sorted (key, value) => insert key value sorted) []

/-- Strictly ascending keys. -/
def Ascending (entries : List (κ × α)) : Prop :=
  entries.Pairwise fun a b => compare a.1 b.1 = .lt

theorem mem_insert {key : κ} {value : α} {entries : List (κ × α)} {e : κ × α}
    (h : e ∈ insert key value entries) : e = (key, value) ∨ e ∈ entries := by
  induction entries with
  | nil => simpa [insert] using h
  | cons entry rest ih =>
    obtain ⟨k, v⟩ := entry
    simp only [insert] at h
    split at h
    · simpa using h
    · simp only [List.mem_cons] at h ⊢
      exact h.imp_right .inr
    · simp only [List.mem_cons] at h ⊢
      rcases h with h | h
      · exact .inr (.inl h)
      · exact (ih h).imp_right .inr

theorem ascending_insert [Std.TransOrd κ] [Std.LawfulEqOrd κ] (key : κ) (value : α)
    {entries : List (κ × α)} (h : Ascending entries) : Ascending (insert key value entries) := by
  induction entries with
  | nil => simp [insert, Ascending]
  | cons entry rest ih =>
    obtain ⟨k, v⟩ := entry
    have ⟨above, tail⟩ := List.pairwise_cons.1 h
    simp only [insert]
    split
    next lt =>
      refine List.pairwise_cons.2 ⟨fun e he => ?_, h⟩
      rcases List.mem_cons.1 he with rfl | he
      · exact lt
      · exact Std.TransCmp.lt_trans lt (above e he)
    next eq =>
      obtain rfl := Std.LawfulEqCmp.eq_of_compare eq
      exact List.pairwise_cons.2 ⟨above, tail⟩
    next gt =>
      refine List.pairwise_cons.2 ⟨fun e he => ?_, ih tail⟩
      rcases mem_insert he with rfl | he
      · exact Std.OrientedCmp.gt_iff_lt.1 gt
      · exact above e he

theorem ascending_foldl_insert [Std.TransOrd κ] [Std.LawfulEqOrd κ] (entries : List (κ × α))
    {sorted : List (κ × α)} (h : Ascending sorted) :
    Ascending (entries.foldl (fun sorted (key, value) => insert key value sorted) sorted) := by
  induction entries generalizing sorted with
  | nil => exact h
  | cons entry rest ih => exact ih (ascending_insert entry.1 entry.2 h)

theorem ascending_ofList [Std.TransOrd κ] [Std.LawfulEqOrd κ] (entries : List (κ × α)) :
    Ascending (ofList entries) :=
  ascending_foldl_insert entries List.Pairwise.nil

def find? [BEq κ] (key : κ) (entries : List (κ × α)) : Option α :=
  (entries.find? fun e => e.1 == key).map Prod.snd

end Entries

/-- A finite map, as its entries in ascending key order. -/
structure Dict (κ α : Type) [Ord κ] where
  entries : List (κ × α)
  ascending : Entries.Ascending entries

namespace Dict

variable {κ α : Type} [Ord κ]

@[ext]
theorem ext {a b : Dict κ α} (h : a.entries = b.entries) : a = b := by
  cases a; cases b; cases h; rfl

instance [DecidableEq κ] [DecidableEq α] : DecidableEq (Dict κ α) := fun a b =>
  decidable_of_iff (a.entries = b.entries) ⟨ext, congrArg _⟩

def empty : Dict κ α := ⟨[], List.Pairwise.nil⟩

instance : Inhabited (Dict κ α) := ⟨empty⟩

def map {β : Type} (f : α → β) (d : Dict κ α) : Dict κ β :=
  ⟨d.entries.map fun e => (e.1, f e.2), by
    rw [Entries.Ascending, List.pairwise_map]
    exact d.ascending⟩

@[simp]
theorem map_map {β γ : Type} (f : α → β) (g : β → γ) (d : Dict κ α) :
    (d.map f).map g = d.map (g ∘ f) :=
  ext (by simp [map, Function.comp_def])

@[simp]
theorem map_id' (d : Dict κ α) : d.map (fun v => v) = d :=
  ext (by simp [map])

variable [Std.TransOrd κ] [Std.LawfulEqOrd κ]

def insert (d : Dict κ α) (key : κ) (value : α) : Dict κ α :=
  ⟨Entries.insert key value d.entries, Entries.ascending_insert key value d.ascending⟩

/-- The map that a list of entries describes: of entries with one key, the last counts. -/
def ofList (entries : List (κ × α)) : Dict κ α :=
  ⟨Entries.ofList entries, Entries.ascending_ofList entries⟩

end Dict

end AdmissionGuest
