/-!
The names under which messages report types. A message leaves out the path of a type but keeps its
arguments as they are, paths included.
-/

namespace AdmissionGuest

/-- What follows the last pair of colons, if there is one. -/
def afterLastPair : List Char → Option (List Char)
  | c :: d :: rest =>
    afterLastPair (d :: rest) <|> (if c = ':' ∧ d = ':' then some rest else none)
  | _ => none

/-- A full type name without the path before its own name. Only pairs of colons before the arguments
belong to that path. -/
def labelOf (name : String) : String :=
  let path := name.toList.takeWhile (· != '<')
  let arguments := name.toList.dropWhile (· != '<')
  match afterLastPair path with
  | some own => String.ofList (own ++ arguments)
  | none => name

/-- A type with a name for messages. Types that occur as arguments have their path in it. -/
class Named (α : Type) where
  name : String

def label (α : Type) [Named α] : String :=
  labelOf (Named.name α)

instance : Named String := ⟨"alloc::string::String"⟩
instance : Named UInt8 := ⟨"u8"⟩
instance : Named Bool := ⟨"bool"⟩
instance : Named Int := ⟨"i64"⟩

instance (α : Type) [Named α] : Named (List α) :=
  ⟨"alloc::vec::Vec<" ++ Named.name α ++ ">"⟩

instance (α : Type) [Named α] : Named (Option α) :=
  ⟨"core::option::Option<" ++ Named.name α ++ ">"⟩

end AdmissionGuest
