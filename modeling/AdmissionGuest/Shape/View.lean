import AdmissionGuest.Shape.Read
/-!
Viewing a document that is already read as a value of a shape. The rules are those of reading; only
a list that has more items than a record has fields is reported in words that depend on where the
document is kept.
-/

namespace AdmissionGuest

/-- Where a document is kept while it is viewed. -/
inductive Kept where
  /-- as a value that is carried without being interpreted -/
  | asValue
  /-- in a buffer, until it is known what it should be -/
  | inBuffer
  deriving DecidableEq, Repr

def Kept.tooLong (kept : Kept) (count fields : Nat) : Cause :=
  .wrongLength count <| match kept with
    | asValue => "fewer elements in array"
    | inBuffer =>
      toString fields ++ (if fields = 1 then " element in sequence" else " elements in sequence")

namespace Shape

def viewChoice (first : String) (others : List String) (j : Json) :
    Except Cause (Fin (others.length + 1)) :=
  match j with
  | .text name => choiceOf first others name
  | .object [(name, x)] => do
    let i ← choiceOf first others name
    match x with
    | .null => return i
    | x => .error (.wrongType x.found "unit")
  | j => .error (.wrongType j.found (Shape.choice first others).expected)

def viewPresent {α : Type} (item : Json → Except Cause α) :
    (p : Presence) → Json → Except Cause (p.Val α)
  | .required, j => item j
  | .optional, .null => .ok none
  | .optional, j => some <$> item j
  | .defaulted, j => item j

end Shape

def Fields.viewRecord (noun : String) (fields : Fields) (kept : Kept)
    (member? : String → Json → fields.Slots → Option (Except Cause fields.Slots))
    (items : Nat → List Json → Except Cause (fields.Val × List Json)) :
    Json → Except Cause fields.Val
  | .object ms => do
    let slots ← ms.foldlM (fun slots (name, x) => (member? name x slots).getD (.ok slots))
      fields.noSlots
    (fields.finish slots).mapError .missingMember
  | .list xs => do
    let (vs, left) ← items 0 xs
    match left with
    | [] => return vs
    | _ => .error (kept.tooLong xs.length (xs.length - left.length))
  | j => .error (.wrongType j.found noun)

mutual

def Shape.view (kept : Kept) : (s : Shape) → Json → Except Cause s.Val
  | .text, .text t => .ok t
  | .text, j => .error (.wrongType j.found Shape.text.expected)
  | .flag, .flag b => .ok b
  | .flag, j => .error (.wrongType j.found Shape.flag.expected)
  | .int width, .number n => Shape.intOf width n
  | .int width, j => .error (.wrongType j.found (Shape.int width).expected)
  | .any, j => .ok (Value.ofJson j)
  | .choice first others, j => Shape.viewChoice first others j
  | .list item, .list xs => xs.mapM (item.view kept)
  | .list item, j => .error (.wrongType j.found (Shape.list item).expected)
  | .dict item, .object ms =>
    ms.foldlM (fun d (name, x) => return Dict.insert d name (← item.view kept x)) Dict.empty
  | .dict item, j => .error (.wrongType j.found (Shape.dict item).expected)
  | .record noun fields, j =>
    fields.viewRecord noun kept (fields.viewMember? kept)
      (fields.viewItems kept (fields.expected noun)) j

/-- Views the member with a name and puts it into its slot; none if no field has that name. -/
def Fields.viewMember? (kept : Kept) : (fields : Fields) → String → Json → fields.Slots →
    Option (Except Cause fields.Slots)
  | .nil, _, _, _ => none
  | .cons field shape rest, name, x, (slot, slots) =>
    if field.answersTo name then
      some <| match slot with
        | some _ => .error (.repeatedMember field.name)
        | none => do
          return (some (← Shape.viewPresent (shape.view kept) field.presence x), slots)
    else
      (rest.viewMember? kept name x slots).map fun slots => do return (slot, ← slots)

/-- Views the fields in their order, and gives the items that are left. -/
def Fields.viewItems (kept : Kept) : (fields : Fields) → String → Nat → List Json →
    Except Cause (fields.Val × List Json)
  | .nil, _, _, xs => .ok ((), xs)
  | .cons field shape rest, expected, index, x :: xs => do
    let v ← Shape.viewPresent (shape.view kept) field.presence x
    let (vs, left) ← rest.viewItems kept expected (index + 1) xs
    return ((v, vs), left)
  | .cons field shape rest, expected, index, [] =>
    match absent? field.presence shape with
    | some v => do
      let (vs, left) ← rest.viewItems kept expected (index + 1) []
      return ((v, vs), left)
    | none => .error (.wrongLength index expected)

end

end AdmissionGuest
