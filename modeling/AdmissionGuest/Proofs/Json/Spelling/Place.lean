import AdmissionGuest.Proofs.Json.Spelling.Basic
/-!
Places in documents. A place in a spelled document is given by what surrounds it, from the outside
in; a place in a document that was read is given by the way there.
-/

namespace AdmissionGuest

/-- A step from a document to one of its parts. -/
inductive Step where
  | member (name : String)
  | item (index : Nat)
  deriving DecidableEq, Repr

/-- What stands where a way through a document ends. -/
def Json.follow? : List Step → Json → Option Json
  | [], j => some j
  | .member name :: path, j => do (← j.get? name).follow? path
  | .item index :: path, .list xs => do (← xs[index]?).follow? path
  | .item _ :: _, _ => none

theorem Json.follow?_append (path path' : List Step) (j : Json) :
    j.follow? (path ++ path') = (j.follow? path).bind (follow? path') := by
  induction path generalizing j with
  | nil => rfl
  | cons step path ih =>
    cases step with
    | member name =>
      simp only [List.cons_append, follow?, Option.bind_eq_bind, Option.bind_assoc, ih]
    | item index =>
      cases j with
      | list xs => simp only [List.cons_append, follow?, Option.bind_eq_bind, Option.bind_assoc, ih]
      | _ => rfl

namespace Spelling

/-- What surrounds a part of a spelled document, on one level. -/
inductive Layer where
  | item (inside : List Blank) (before : List (Item Spelling)) (hole : Item Unit)
    (after : List (Item Spelling))
  | member (inside : List Blank) (before : List (Member Spelling)) (hole : Member Unit)
    (after : List (Member Spelling))

def Item.holding (hole : Item Unit) (d : Spelling) : Item Spelling := { hole with value := d }

def Member.holding (hole : Member Unit) (d : Spelling) : Member Spelling := { hole with value := d }

def Layer.fill : Layer → Spelling → Spelling
  | .item inside before hole after, d => .list inside (before ++ hole.holding d :: after)
  | .member inside before hole after, d => .object inside (before ++ hole.holding d :: after)

/-- The document that has a part at a place. -/
def fill (place : List Layer) (d : Spelling) : Spelling := place.foldr Layer.fill d

theorem Layer.fill_ne_null (f : Layer) (d : Spelling) : f.fill d ≠ .null := by
  cases f <;> exact nofun

theorem fill_ne_null (place : List Layer) {d : Spelling} (some : d ≠ .null) :
    fill place d ≠ .null := by
  cases place with
  | nil => exact some
  | cons f place => exact f.fill_ne_null _

end Spelling

end AdmissionGuest
