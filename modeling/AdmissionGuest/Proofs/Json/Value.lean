import Mathlib.Data.List.Forall2
import AdmissionGuest.Json.Value
/-!
Members of canonical documents. A name stands for one member at most, so looking it up finds
whatever stands under it, and putting the members in order once more changes nothing. Putting them
in order takes their names into account and nothing else.
-/

namespace AdmissionGuest

namespace Entries

theorem Ascending.unique {κ α : Type} [Ord κ] [Std.LawfulEqOrd κ] {entries : List (κ × α)}
    (ascending : Ascending entries) {key : κ} {x y : α} (first : (key, x) ∈ entries)
    (second : (key, y) ∈ entries) : x = y := by
  induction entries with
  | nil => cases first
  | cons entry rest ih =>
    have ⟨above, tail⟩ := List.pairwise_cons.mp ascending
    have irrefl : compare key key ≠ .lt := by
      rw [Std.ReflOrd.compare_self]
      exact nofun
    rcases List.mem_cons.mp first with here | later
    · rcases List.mem_cons.mp second with same | other
      · exact (Prod.mk.inj (here.trans same.symm)).2
      · have below := above _ other
        rw [← here] at below
        exact absurd below irrefl
    · rcases List.mem_cons.mp second with here | other
      · have below := above _ later
        rw [← here] at below
        exact absurd below irrefl
      · exact ih tail later other

theorem insert_of_below {κ α : Type} [Ord κ] {key : κ} {value : α}
    {entries : List (κ × α)} (below : ∀ e ∈ entries, compare key e.1 = .lt) :
    insert key value entries = (key, value) :: entries := by
  cases entries with
  | nil => rfl
  | cons entry rest => simp only [insert, below entry List.mem_cons_self]

section Distinct

variable {κ α : Type} [Ord κ] [Std.LawfulEqOrd κ]

theorem insert_perm {key : κ} {value : α} {entries : List (κ × α)}
    (fresh : key ∉ entries.map Prod.fst) :
    (insert key value entries).Perm ((key, value) :: entries) := by
  induction entries with
  | nil => exact .refl _
  | cons entry rest ih =>
    obtain ⟨k, v⟩ := entry
    obtain ⟨other, later⟩ := not_or.mp (mt List.mem_cons.mpr fresh)
    unfold insert
    split
    next => exact .refl _
    next eq => exact absurd (Std.LawfulEqCmp.eq_of_compare eq) other
    next => exact ((ih later).cons (k, v)).trans (.swap (key, value) (k, v) rest)

/-- If no key stands twice, then none of the entries gets lost. -/
theorem foldl_insert_perm {entries sorted : List (κ × α)}
    (distinct : ((entries ++ sorted).map Prod.fst).Nodup) :
    (entries.foldl (fun sorted (key, value) => insert key value sorted) sorted).Perm
      (entries ++ sorted) := by
  induction entries generalizing sorted with
  | nil => exact .refl _
  | cons entry rest ih =>
    obtain ⟨key, value⟩ := entry
    have fresh : key ∉ sorted.map Prod.fst := by
      intro member
      rw [List.cons_append, List.map_cons, List.map_append, List.nodup_cons] at distinct
      exact distinct.1 (List.mem_append_right _ member)
    have moved : (rest ++ insert key value sorted).Perm ((key, value) :: rest ++ sorted) :=
      ((insert_perm fresh).append_left rest).trans List.perm_middle
    exact (ih ((moved.map Prod.fst).nodup_iff.mpr distinct)).trans moved

theorem filter_insert_of_neg {p : κ → Bool} {key : κ} {value : α} (dropped : p key = false)
    (entries : List (κ × α)) :
    (insert key value entries).filter (fun e => p e.1) = entries.filter fun e => p e.1 := by
  induction entries with
  | nil => simp [insert, dropped]
  | cons entry rest ih =>
    obtain ⟨k, v⟩ := entry
    unfold insert
    split
    next => simp [dropped]
    next eq =>
      obtain rfl := Std.LawfulEqCmp.eq_of_compare eq
      simp [dropped]
    next => simp only [List.filter_cons, ih]

end Distinct

section Order

variable {κ α : Type} [Ord κ] [Std.TransOrd κ]

theorem insert_of_above {key : κ} {value : α} {entries : List (κ × α)}
    (above : ∀ e ∈ entries, compare e.1 key = .lt) :
    insert key value entries = entries ++ [(key, value)] := by
  induction entries with
  | nil => rfl
  | cons entry rest ih =>
    obtain ⟨k, v⟩ := entry
    have here : compare key k = .gt := Std.OrientedCmp.gt_iff_lt.mpr (above _ List.mem_cons_self)
    have later := ih fun e he => above e (List.mem_cons_of_mem _ he)
    simp only [insert, here, later, List.cons_append]

theorem foldl_insert_of_ascending {entries sorted : List (κ × α)}
    (ascending : Ascending (sorted ++ entries)) :
    entries.foldl (fun sorted (key, value) => insert key value sorted) sorted =
      sorted ++ entries := by
  induction entries generalizing sorted with
  | nil => simp
  | cons entry rest ih =>
    obtain ⟨key, value⟩ := entry
    have above : ∀ e ∈ sorted, compare e.1 key = .lt := fun e he =>
      (List.pairwise_append.mp ascending).2.2 e he (key, value) List.mem_cons_self
    rw [← List.singleton_append, ← List.append_assoc] at ascending ⊢
    simp only [List.singleton_append, List.foldl_cons, insert_of_above above]
    exact ih ascending

theorem ofList_of_ascending {entries : List (κ × α)} (ascending : Ascending entries) :
    ofList entries = entries :=
  foldl_insert_of_ascending ascending

variable [Std.LawfulEqOrd κ] {p : κ → Bool}

theorem filter_insert_of_pos {key : κ} {value : α} (kept : p key = true)
    {entries : List (κ × α)} (ascending : Ascending entries) :
    (insert key value entries).filter (fun e => p e.1) =
      insert key value (entries.filter fun e => p e.1) := by
  induction entries with
  | nil => simp [insert, kept]
  | cons entry rest ih =>
    obtain ⟨k, v⟩ := entry
    obtain ⟨above, tail⟩ := List.pairwise_cons.mp ascending
    cases order : compare key k with
    | lt =>
      have below : ∀ e ∈ ((k, v) :: rest).filter (fun e => p e.1), compare key e.1 = .lt := by
        intro e member
        rcases List.mem_cons.mp (List.mem_filter.mp member).1 with rfl | later
        · exact order
        · exact Std.TransCmp.lt_trans order (above e later)
      rw [insert_of_below below]
      simp [insert, order, kept]
    | eq =>
      obtain rfl := Std.LawfulEqCmp.eq_of_compare order
      simp [insert, kept]
    | gt =>
      cases here : p k with
      | true => simp [insert, order, here, ih tail]
      | false => simp [insert, order, here, ih tail]

/-- Which entries of some keys remain is decided by the entries of these keys alone. -/
theorem filter_foldl_insert {entries sorted : List (κ × α)} (ascending : Ascending sorted) :
    (entries.foldl (fun sorted (key, value) => insert key value sorted) sorted).filter
        (fun e => p e.1) =
      (entries.filter fun e => p e.1).foldl (fun sorted (key, value) => insert key value sorted)
        (sorted.filter fun e => p e.1) := by
  induction entries generalizing sorted with
  | nil => rfl
  | cons entry rest ih =>
    obtain ⟨key, value⟩ := entry
    rw [List.foldl_cons, ih (ascending_insert key value ascending)]
    cases kept : p key with
    | true => simp [kept, filter_insert_of_pos kept ascending]
    | false => simp [kept, filter_insert_of_neg kept sorted]

theorem filter_ofList (entries : List (κ × α)) :
    (ofList entries).filter (fun e => p e.1) = ofList (entries.filter fun e => p e.1) :=
  filter_foldl_insert List.Pairwise.nil

end Order

section Corresponding

variable {κ α β : Type} {R : α → β → Prop}

/-- Entries with one key and corresponding values. -/
structure Same (R : α → β → Prop) (a : κ × α) (b : κ × β) : Prop where
  key : a.1 = b.1
  value : R a.2 b.2

variable [Ord κ] {as : List (κ × α)} {bs : List (κ × β)}

theorem same_insert {key : κ} {a : α} {b : β} (here : R a b)
    (same : List.Forall₂ (Same R) as bs) :
    List.Forall₂ (Same R) (insert key a as) (insert key b bs) := by
  induction same with
  | nil => exact .cons ⟨rfl, here⟩ .nil
  | @cons m n as bs first later ih =>
    obtain ⟨k, x⟩ := m
    obtain ⟨l, y⟩ := n
    obtain rfl : k = l := first.key
    -- The keys are the same, so both entries find their place after the same comparisons.
    simp only [insert]
    cases compare key k with
    | lt => exact .cons ⟨rfl, here⟩ (.cons first later)
    | eq => exact .cons ⟨rfl, here⟩ later
    | gt => exact .cons first ih

theorem same_foldl_insert {xs : List (κ × α)} {ys : List (κ × β)}
    (same : List.Forall₂ (Same R) as bs) (sorted : List.Forall₂ (Same R) xs ys) :
    List.Forall₂ (Same R) (as.foldl (fun sorted (key, value) => insert key value sorted) xs)
      (bs.foldl (fun sorted (key, value) => insert key value sorted) ys) := by
  induction same generalizing xs ys with
  | nil => exact sorted
  | @cons m n as bs first later ih =>
    obtain ⟨k, x⟩ := m
    obtain ⟨l, y⟩ := n
    obtain ⟨⟨⟩, here⟩ := first
    exact ih (same_insert here sorted)

theorem same_ofList (same : List.Forall₂ (Same R) as bs) :
    List.Forall₂ (Same R) (ofList as) (ofList bs) :=
  same_foldl_insert same .nil

omit [Ord κ] in
theorem map_of_same {f : β → α} (same : List.Forall₂ (Same fun a b => a = f b) as bs) :
    bs.map (fun e => (e.1, f e.2)) = as := by
  induction same with
  | nil => rfl
  | cons first _ ih => rw [List.map_cons, ih, ← first.key, ← first.value]

end Corresponding

end Entries

namespace Json

mutual

/-- A canonical document is its own canonical form. -/
theorem Canonical.canonical_eq {j : Json} (canonical : j.Canonical) : j.canonical = j := by
  cases j with
  | list xs => exact congrArg list (canonicalItems_eq canonical)
  | object ms =>
    rw [Json.canonical, canonicalMembers_eq canonical.2, Entries.ofList_of_ascending canonical.1]
  | _ => rfl

theorem canonicalItems_eq {xs : List Json} (canonical : CanonicalItems xs) :
    canonicalItems xs = xs := by
  cases xs with
  | nil => rfl
  | cons x xs => rw [canonicalItems, canonical.1.canonical_eq, canonicalItems_eq canonical.2]

theorem canonicalMembers_eq {ms : List (String × Json)} (canonical : CanonicalMembers ms) :
    canonicalMembers ms = ms := by
  cases ms with
  | nil => rfl
  | cons m ms =>
    rw [canonicalMembers, canonical.1.canonical_eq, canonicalMembers_eq canonical.2]

end

theorem mem_of_find? {members : List (String × Json)} {name : String} {m : String × Json}
    (found : (members.find? fun m => m.1 == name) = some m) : (name, m.2) ∈ members := by
  have named := List.find?_some found
  have member := List.mem_of_find?_eq_some found
  simp only [beq_iff_eq] at named
  rwa [← named]

theorem get?_object {members : List (String × Json)} (ascending : Entries.Ascending members)
    {name : String} {x : Json} :
    (object members).get? name = some x ↔ (name, x) ∈ members := by
  constructor
  · intro looked
    obtain ⟨m, found, rfl⟩ := Option.map_eq_some_iff.mp looked
    exact mem_of_find? found
  · intro member
    have present : (members.find? fun m => m.1 == name).isSome :=
      List.find?_isSome.mpr ⟨_, member, beq_self_eq_true name⟩
    obtain ⟨m, found⟩ := Option.isSome_iff_exists.mp present
    have same : m.2 = x := ascending.unique (mem_of_find? found) member
    simp only [get?, found, Option.map_some, same]

theorem get?_eq_some {j : Json} (canonical : j.Canonical) {name : String} {x : Json} :
    j.get? name = some x ↔ ∃ members, j = object members ∧ (name, x) ∈ members := by
  cases j with
  | object members =>
    rw [get?_object canonical.1]
    constructor
    · intro member
      exact ⟨members, rfl, member⟩
    · rintro ⟨_, same, member⟩
      cases same
      exact member
  | _ => exact ⟨nofun, fun ⟨_, same, _⟩ => nomatch same⟩

theorem Canonical.get? {j x : Json} (canonical : j.Canonical) {name : String}
    (found : j.get? name = some x) : x.Canonical := by
  obtain ⟨members, rfl, member⟩ := (get?_eq_some canonical).mp found
  exact canonicalMembers_iff.mp canonical.2 _ member

end Json

theorem Value.ofJson_json (v : Value) : Value.ofJson v.json = v :=
  Value.ext v.canonical.canonical_eq

end AdmissionGuest
