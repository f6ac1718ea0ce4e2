import AdmissionGuest.Number.Double
/-!
JSON documents as they are written: the members of an object stand in the order of the text and a
name may be repeated.
-/

namespace AdmissionGuest

/-- A number of a document. An integer is read as such if it lies between `-2^63` and `2^64`, both
without; everything else is a double. -/
inductive Number where
  | int (n : Int)
  | double (d : Double)
  deriving DecidableEq, Repr

/-- A JSON document. -/
inductive Json where
  | null
  | flag (b : Bool)
  | number (n : Number)
  | text (s : String)
  | list (items : List Json)
  | object (members : List (String × Json))
  deriving Repr

instance : Inhabited Json := ⟨.null⟩

namespace Json

/-- The first member with a name, if the document is an object that has one. -/
def get? (name : String) : Json → Option Json
  | object members => (members.find? fun m => m.1 == name).map Prod.snd
  | _ => none

def text? : Json → Option String
  | text s => some s
  | _ => none

end Json

end AdmissionGuest
