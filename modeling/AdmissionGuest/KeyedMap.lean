import AdmissionGuest.Document
/-!
Maps whose keys are not texts. Their entries stand in the order of the keys; they have a document
only if every key has a text, which is then the name of a member.
-/

namespace AdmissionGuest

/-- Keys that may have a text. -/
class KeyText (κ : Type) where
  text? : κ → Option String

instance : KeyText String := ⟨some⟩
instance : KeyText Int := ⟨fun n => some (toString n)⟩
instance : KeyText Bool := ⟨fun b => some (if b then "true" else "false")⟩
instance (α : Type) : KeyText (List α) := ⟨fun _ => none⟩
instance (κ : Type) [KeyText κ] : KeyText (Option κ) := ⟨fun k => k.bind KeyText.text?⟩

/-- A map to texts with keys of some type. -/
structure KeyedMap (κ : Type) [Ord κ] where
  dict : Dict κ String

instance (κ : Type) [Ord κ] [Named κ] : Named (KeyedMap κ) :=
  ⟨"BTreeMap<" ++ Named.name κ ++ ", " ++ Named.name String ++ ">"⟩

/-- The members of a map; the first key without a text is a fault. -/
def KeyedMap.members {κ : Type} [KeyText κ] :
    List (κ × String) → Except Cause (List (String × Json))
  | [] => .ok []
  | (key, value) :: rest =>
    match KeyText.text? key with
    | some name => ((name, .text value) :: ·) <$> members rest
    | none => .error .expectedName

instance (κ : Type) [Ord κ] [KeyText κ] : ToDocument (KeyedMap κ) :=
  ⟨fun m => .object <$> KeyedMap.members m.dict.entries⟩

end AdmissionGuest
