import AdmissionGuest.Dict
import AdmissionGuest.Json.Write
/-!
Documents that are carried without being interpreted. The members of their objects stand in
ascending order of their names, each name once, so that two values are equal exactly if they are the
same document.
-/

namespace AdmissionGuest

namespace Json

mutual

def Canonical : Json → Prop
  | list xs => CanonicalItems xs
  | object ms => Entries.Ascending ms ∧ CanonicalMembers ms
  | _ => True

def CanonicalItems : List Json → Prop
  | [] => True
  | x :: xs => x.Canonical ∧ CanonicalItems xs

def CanonicalMembers : List (String × Json) → Prop
  | [] => True
  | (_, x) :: ms => x.Canonical ∧ CanonicalMembers ms

end

mutual

/-- Orders the members of every object; of members with one name, the last counts. -/
def canonical : Json → Json
  | list xs => list (canonicalItems xs)
  | object ms => object (Entries.ofList (canonicalMembers ms))
  | j => j

def canonicalItems : List Json → List Json
  | [] => []
  | x :: xs => x.canonical :: canonicalItems xs

/-- Every member in canonical form, in the given order. -/
def canonicalMembers : List (String × Json) → List (String × Json)
  | [] => []
  | (name, x) :: ms => (name, x.canonical) :: canonicalMembers ms

end

theorem canonicalMembers_iff {ms : List (String × Json)} :
    CanonicalMembers ms ↔ ∀ m ∈ ms, m.2.Canonical := by
  induction ms with
  | nil => simp [CanonicalMembers]
  | cons m ms ih => obtain ⟨name, x⟩ := m; simp [CanonicalMembers, ih]

theorem canonicalMembers_insert {name : String} {x : Json} {ms : List (String × Json)}
    (hx : x.Canonical) (h : CanonicalMembers ms) :
    CanonicalMembers (Entries.insert name x ms) := by
  rw [canonicalMembers_iff] at *
  intro m hm
  rcases Entries.mem_insert hm with rfl | hm
  · exact hx
  · exact h m hm

theorem canonicalMembers_foldl_insert {ms sorted : List (String × Json)}
    (h : CanonicalMembers ms) (hs : CanonicalMembers sorted) :
    CanonicalMembers (ms.foldl (fun sorted (name, x) => Entries.insert name x sorted) sorted) := by
  induction ms generalizing sorted with
  | nil => exact hs
  | cons m ms ih => exact ih h.2 (canonicalMembers_insert h.1 hs)

mutual

/-- Ordering the members yields a canonical document. -/
theorem canonical_canonical (j : Json) : j.canonical.Canonical := by
  cases j with
  | list xs => exact canonical_canonicalItems xs
  | object ms =>
    exact ⟨Entries.ascending_ofList _,
      canonicalMembers_foldl_insert (canonical_canonicalMembers ms) trivial⟩
  | _ => exact trivial

theorem canonical_canonicalItems (xs : List Json) : CanonicalItems (canonicalItems xs) := by
  cases xs with
  | nil => exact trivial
  | cons x xs => exact ⟨canonical_canonical x, canonical_canonicalItems xs⟩

theorem canonical_canonicalMembers (ms : List (String × Json)) :
    CanonicalMembers (canonicalMembers ms) := by
  cases ms with
  | nil => exact trivial
  | cons m ms => exact ⟨canonical_canonical m.2, canonical_canonicalMembers ms⟩

end

end Json

/-- A document that is carried as it is. -/
structure Value where
  json : Json
  canonical : json.Canonical

namespace Value

@[ext]
theorem ext {a b : Value} (h : a.json = b.json) : a = b := by
  cases a; cases b; cases h; rfl

def ofJson (j : Json) : Value := ⟨j.canonical, j.canonical_canonical⟩

def null : Value := ⟨.null, trivial⟩

instance : Inhabited Value := ⟨null⟩

end Value

end AdmissionGuest
