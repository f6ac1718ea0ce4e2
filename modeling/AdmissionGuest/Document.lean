import AdmissionGuest.Error
import AdmissionGuest.Shape.View
import AdmissionGuest.Label
/-!
Types that are written as documents and read from documents. A type with a shape is both; a type
that no shape describes says for itself how it is written or read. Failures name the type.
-/

namespace AdmissionGuest

/-- A type whose values have documents, unless a member would have no name. -/
class ToDocument (α : Type) where
  document : α → Except Cause Json

/-- A type whose values are read from documents. -/
class OfDocument (α : Type) where
  read : Reader α

def encode {α : Type} [Named α] [ToDocument α] (a : α) : Except Error Bytes :=
  match ToDocument.document a with
  | .ok j => .ok j.write
  | .error cause => .error (.serialization (label α) cause.message)

def decode {α : Type} [Named α] [OfDocument α] (bytes : Bytes) : Except Error α :=
  match (OfDocument.read (α := α)).whole bytes with
  | .ok a => .ok a
  | .error fault => .error (.decode (label α) (fault.message bytes))

/-- A type whose values correspond to the values of a shape. -/
class Shaped (α : Type) where
  shape : Shape
  toVal : α → shape.Val
  ofVal : shape.Val → α
  ofVal_toVal : ∀ a, ofVal (toVal a) = a
  toVal_ofVal : ∀ v, toVal (ofVal v) = v

namespace Shaped

attribute [simp] ofVal_toVal toVal_ofVal

def json {α : Type} [Shaped α] (a : α) : Json :=
  (shape α).json (toVal a)

/-- Reads a value, with at most so many lists and objects inside each other. -/
def read {α : Type} [Shaped α] (depth : Nat) : Reader α := do
  return ofVal (← (shape α).read depth)

def view {α : Type} [Shaped α] (kept : Kept) (j : Json) : Except Cause α :=
  ofVal <$> (shape α).view kept j

end Shaped

instance (α : Type) [Shaped α] : ToDocument α := ⟨fun a => .ok (Shaped.json a)⟩

instance (α : Type) [Shaped α] : OfDocument α := ⟨Shaped.read Json.nestingLimit⟩

namespace Shaped

instance : Shaped String := ⟨.text, id, id, fun _ => rfl, fun _ => rfl⟩
instance : Shaped Bool := ⟨.flag, id, id, fun _ => rfl, fun _ => rfl⟩
instance : Shaped UInt8 := ⟨.int .u8, id, id, fun _ => rfl, fun _ => rfl⟩
instance : Shaped UInt16 := ⟨.int .u16, id, id, fun _ => rfl, fun _ => rfl⟩
instance : Shaped UInt32 := ⟨.int .u32, id, id, fun _ => rfl, fun _ => rfl⟩
instance : Shaped Int64 := ⟨.int .i64, id, id, fun _ => rfl, fun _ => rfl⟩
instance : Shaped Value := ⟨.any, id, id, fun _ => rfl, fun _ => rfl⟩

instance {α : Type} [Shaped α] : Shaped (List α) where
  shape := .list (shape α)
  toVal := List.map toVal
  ofVal := List.map ofVal
  ofVal_toVal xs := by simp [Function.comp_def]
  toVal_ofVal (vs : List (shape α).Val) := by
    simp [Function.comp_def]
    rfl

instance {α : Type} [Shaped α] : Shaped (Dict String α) where
  shape := .dict (shape α)
  toVal := Dict.map toVal
  ofVal := Dict.map ofVal
  ofVal_toVal d := by simp [Function.comp_def]
  toVal_ofVal (d : Dict String (shape α).Val) := by
    simp [Function.comp_def]
    rfl

end Shaped

instance : Named Value := ⟨"serde_json::value::Value"⟩

end AdmissionGuest
