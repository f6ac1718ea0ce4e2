import AdmissionGuest.Proofs.Json.RoundTrip
/-!
What holds of a document because it holds of its parts.
-/

namespace AdmissionGuest.Json

/-- Whether a document is null. -/
def isNull : Json → Bool
  | null => true
  | _ => false

theorem isNull_iff {j : Json} : j.isNull = true ↔ j = .null := by
  cases j <;> simp [isNull]

theorem wholeItems_iff {xs : List Json} : WholeItems xs ↔ ∀ x ∈ xs, x.Whole := by
  induction xs with
  | nil => simp [WholeItems]
  | cons x xs ih => simp [WholeItems, ih]

theorem wholeMembers_iff {ms : List (String × Json)} : WholeMembers ms ↔ ∀ m ∈ ms, m.2.Whole := by
  induction ms with
  | nil => simp [WholeMembers]
  | cons m ms ih => simp [WholeMembers, ih]

theorem heightItems_le_iff {xs : List Json} {d : Nat} :
    heightItems xs ≤ d ↔ ∀ x ∈ xs, x.height ≤ d := by
  induction xs with
  | nil => simp [heightItems]
  | cons x xs ih => simp [heightItems, ih]

theorem heightMembers_le_iff {ms : List (String × Json)} {d : Nat} :
    heightMembers ms ≤ d ↔ ∀ m ∈ ms, m.2.height ≤ d := by
  induction ms with
  | nil => simp [heightMembers]
  | cons m ms ih => simp [heightMembers, ih]

mutual

/-- Whether null occurs nowhere. -/
def NullFree : Json → Prop
  | null => False
  | list xs => NullFreeItems xs
  | object ms => NullFreeMembers ms
  | _ => True

def NullFreeItems : List Json → Prop
  | [] => True
  | x :: xs => x.NullFree ∧ NullFreeItems xs

def NullFreeMembers : List (String × Json) → Prop
  | [] => True
  | (_, x) :: ms => x.NullFree ∧ NullFreeMembers ms

end

theorem nullFreeItems_iff {xs : List Json} : NullFreeItems xs ↔ ∀ x ∈ xs, x.NullFree := by
  induction xs with
  | nil => simp [NullFreeItems]
  | cons x xs ih => simp [NullFreeItems, ih]

theorem nullFreeMembers_iff {ms : List (String × Json)} :
    NullFreeMembers ms ↔ ∀ m ∈ ms, m.2.NullFree := by
  induction ms with
  | nil => simp [NullFreeMembers]
  | cons m ms ih => simp [NullFreeMembers, ih]

/-- A property that lists and objects inherit from their parts, and that integers, texts and truth
values have. -/
structure Inherited (P : Json → Prop) : Prop where
  flag : ∀ b, P (.flag b)
  int : ∀ n, (Number.int n).Whole → P (.number (.int n))
  text : ∀ s, P (.text s)
  list : ∀ xs, (∀ x ∈ xs, P x) → P (.list xs)
  object : ∀ ms, (∀ m ∈ ms, P m.2) → P (.object ms)

theorem whole_inherited : Inherited Whole where
  flag _ := trivial
  int _ whole := whole
  text _ := trivial
  list _ parts := wholeItems_iff.mpr parts
  object _ parts := wholeMembers_iff.mpr parts

theorem nullFree_inherited : Inherited NullFree where
  flag _ := trivial
  int _ _ := trivial
  text _ := trivial
  list _ parts := nullFreeItems_iff.mpr parts
  object _ parts := nullFreeMembers_iff.mpr parts

end AdmissionGuest.Json
