import AdmissionGuest.Json.Value
/-!
The shapes that documents are read and written by. A shape gives the type of its values and the
document of each of them; the readers are built on the same shapes, so that one description of a
record serves all directions.

A record is an object whose members have fixed names. Its fields say what an absent member means.
-/

namespace AdmissionGuest

/-- The integers a member may hold. -/
inductive Width where
  | u8
  | u16
  | u32
  | i64
  deriving DecidableEq, Repr

namespace Width

def Val : Width → Type
  | u8 => UInt8
  | u16 => UInt16
  | u32 => UInt32
  | i64 => Int64

def name : Width → String
  | u8 => "u8"
  | u16 => "u16"
  | u32 => "u32"
  | i64 => "i64"

def least : Width → Int
  | i64 => -0x8000000000000000
  | _ => 0

def greatest : Width → Int
  | u8 => 0xFF
  | u16 => 0xFFFF
  | u32 => 0xFFFFFFFF
  | i64 => 0x7FFFFFFFFFFFFFFF

def toInt : (w : Width) → w.Val → Int
  | u8, n => (UInt8.toNat n : Int)
  | u16, n => (UInt16.toNat n : Int)
  | u32, n => (UInt32.toNat n : Int)
  | i64, n => Int64.toInt n

/-- The value of an integer within the limits of a width. -/
def wrap : (w : Width) → Int → w.Val
  | u8, n => UInt8.ofNat n.toNat
  | u16, n => UInt16.ofNat n.toNat
  | u32, n => UInt32.ofNat n.toNat
  | i64, n => Int64.ofInt n

def ofInt? (w : Width) (n : Int) : Option w.Val :=
  if w.least ≤ n ∧ n ≤ w.greatest then some (w.wrap n) else none

end Width

/-- What the absence of a member means: a fault, the absence of a value, or the empty value. An
optional member may also be null; it is not written if it is absent. -/
inductive Presence where
  | required
  | optional
  | defaulted
  deriving DecidableEq, Repr

/-- The values of a member whose own shape has these values. -/
@[reducible] def Presence.Val : Presence → Type → Type
  | optional, α => Option α
  | required, α => α
  | defaulted, α => α

/-- A member of a record: the name it is written under, and other names it may be read under. -/
structure Field where
  name : String
  presence : Presence
  aliases : List String
  deriving DecidableEq, Repr

/-- Whether a member with this name belongs to the field. -/
def Field.answersTo (field : Field) (name : String) : Bool :=
  name == field.name || field.aliases.contains name

mutual

/-- The shape of a document. -/
inductive Shape where
  | text
  | flag
  | int (width : Width)
  /-- any document, carried as it is -/
  | any
  /-- one of several names -/
  | choice (first : String) (others : List String)
  | list (item : Shape)
  /-- an object with arbitrary names -/
  | dict (item : Shape)
  /-- an object whose members are the fields; the noun names it in messages -/
  | record (noun : String) (fields : Fields)

/-- The fields of a record in the order in which they are written. -/
inductive Fields where
  | nil
  | cons (field : Field) (shape : Shape) (rest : Fields)

end

mutual

def Shape.Val : Shape → Type
  | .text => String
  | .flag => Bool
  | .int width => width.Val
  | .any => Value
  | .choice _ others => Fin (others.length + 1)
  | .list item => List item.Val
  | .dict item => Dict String item.Val
  | .record _ fields => fields.Val

def Fields.Val : Fields → Type
  | .nil => Unit
  | .cons field shape rest => field.presence.Val shape.Val × rest.Val

end

@[reducible] def Shape.named (name : String) (fields : Fields) : Shape :=
  .record ("struct " ++ name) fields

namespace Fields

@[reducible] def required (name : String) (shape : Shape) (rest : Fields) : Fields :=
  .cons ⟨name, .required, []⟩ shape rest

@[reducible] def optional (name : String) (shape : Shape) (rest : Fields) : Fields :=
  .cons ⟨name, .optional, []⟩ shape rest

/-- A member that may be absent and may be read under another name. -/
@[reducible] def optionalAs (name other : String) (shape : Shape) (rest : Fields) : Fields :=
  .cons ⟨name, .optional, [other]⟩ shape rest

@[reducible] def defaulted (name : String) (shape : Shape) (rest : Fields) : Fields :=
  .cons ⟨name, .defaulted, []⟩ shape rest

/-- A member that is empty if it is absent, and may be read under another name. -/
@[reducible] def defaultedAs (name other : String) (shape : Shape) (rest : Fields) : Fields :=
  .cons ⟨name, .defaulted, [other]⟩ shape rest

def length : Fields → Nat
  | .nil => 0
  | .cons _ _ rest => rest.length + 1

end Fields

mutual

def Shape.empty : (s : Shape) → s.Val
  | .text => ""
  | .flag => false
  | .int width => width.wrap 0
  | .any => Value.null
  | .choice _ _ => (0 : Fin _)
  | .list _ => []
  | .dict _ => Dict.empty
  | .record _ fields => fields.empty

def Fields.empty : (fields : Fields) → fields.Val
  | .nil => ()
  | .cons ⟨_, .required, _⟩ shape rest => (shape.empty, rest.empty)
  | .cons ⟨_, .optional, _⟩ _ rest => (none, rest.empty)
  | .cons ⟨_, .defaulted, _⟩ shape rest => (shape.empty, rest.empty)

end

mutual

def Shape.json : (s : Shape) → s.Val → Json
  | .text, v => .text v
  | .flag, v => .flag v
  | .int width, v => .number (.int (width.toInt v))
  | .any, v => Value.json v
  | .choice first others, v => .text ((first :: others).get v)
  | .list item, v => .list (List.map item.json v)
  | .dict item, v => .object ((Dict.entries v).map fun e => (e.1, item.json e.2))
  | .record _ fields, v => .object (fields.members v)

/-- The members of a record; an absent optional one is left out. -/
def Fields.members : (fields : Fields) → fields.Val → List (String × Json)
  | .nil, _ => []
  | .cons ⟨name, .required, _⟩ shape rest, (v, vs) => (name, shape.json v) :: rest.members vs
  | .cons ⟨_, .optional, _⟩ _ rest, (none, vs) => rest.members vs
  | .cons ⟨name, .optional, _⟩ shape rest, (some v, vs) =>
    (name, shape.json v) :: rest.members vs
  | .cons ⟨name, .defaulted, _⟩ shape rest, (v, vs) => (name, shape.json v) :: rest.members vs

end

/-- The values of fields that are being collected: none for a field that was not met. -/
def Fields.Slots : Fields → Type
  | .nil => Unit
  | .cons field shape rest => Option (field.presence.Val shape.Val) × rest.Slots

/-- No field was met yet. -/
def Fields.noSlots : (fields : Fields) → fields.Slots
  | .nil => ()
  | .cons _ _ rest => (none, rest.noSlots)

/-- What an absent member stands for, unless it is required. -/
def absent? : (p : Presence) → (s : Shape) → Option (p.Val s.Val)
  | .required, _ => none
  | .optional, _ => some none
  | .defaulted, s => some s.empty

/-- The values of all fields, if none is missing that must be there; otherwise the name of the first
missing one. -/
def Fields.finish : (fields : Fields) → fields.Slots → Except String fields.Val
  | .nil, _ => .ok ()
  | .cons field shape rest, (slot, slots) => do
    let v ← (slot <|> absent? field.presence shape).elim (.error field.name) .ok
    let vs ← rest.finish slots
    return (v, vs)

end AdmissionGuest
