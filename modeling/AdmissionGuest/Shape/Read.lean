import AdmissionGuest.Json.Read
import AdmissionGuest.Json.Skip
import AdmissionGuest.Shape.Basic
/-!
Reading the values of a shape off a document, in one pass and without building the document. The
first thing that is wrong decides the fault, be it in the syntax or in the shape.

A record is read from an object, whose unknown members are skipped, or from the list of its fields
in their order.
-/

namespace AdmissionGuest

open Ascii Scan

namespace Shape

def expected : Shape → String
  | .text => "a string"
  | .flag => "a boolean"
  | .int width => width.name
  | .any => "any value"
  | .choice _ _ => "string or map"
  | .list _ => "a sequence"
  | .dict _ => "a map"
  | .record noun _ => noun

/-- Finds a value of another kind than expected. A value without parts is read first and may have a
fault of its own; a list or an object is not entered. -/
def mismatch {α : Type} (expected : String) : Reader α := fun bytes =>
  let wrong (found : Found) (rest : Bytes) : Except Fault (α × Bytes) :=
    faultAfter (.wrongType found expected) rest
  match bytes with
  | [] => faultAt .endInValue []
  | b :: rest =>
    if b = letterN then do
      let ((), rest) ← letters [letterU, 0x6C, 0x6C] rest
      wrong .null rest
    else if b = letterT then do
      let ((), rest) ← letters [letterR, letterU, 0x65] rest
      wrong (.flag true) rest
    else if b = letterF then do
      let ((), rest) ← letters [0x61, 0x6C, 0x73, 0x65] rest
      wrong (.flag false) rest
    else if b = minus ∨ isDigit b then do
      let (n, rest) ← Scan.number bytes
      wrong (.number n) rest
    else if b = quote then do
      let (s, rest) ← textBody rest
      wrong (.text s) rest
    else if b = openList then wrong .list bytes
    else if b = openObject then wrong .object bytes
    else faultAt .expectedValue bytes

def readText (expected : String) : Reader String := fun bytes =>
  match skipBlanks bytes with
  | [] => mismatch expected []
  | b :: rest => if b = quote then textBody rest else mismatch expected (b :: rest)

def readFlag (expected : String) : Reader Bool := fun bytes =>
  match skipBlanks bytes with
  | [] => mismatch expected []
  | b :: rest =>
    if b = letterT then do
      let ((), rest) ← letters [letterR, letterU, 0x65] rest
      return (true, rest)
    else if b = letterF then do
      let ((), rest) ← letters [0x61, 0x6C, 0x73, 0x65] rest
      return (false, rest)
    else mismatch expected (b :: rest)

/-- The value of a number, if it is an integer that fits. -/
def intOf (width : Width) : Number → Except Cause width.Val
  | .int n =>
    match width.ofInt? n with
    | some v => .ok v
    | none => .error (.integerOutOfRange n width.name)
  | .double d => .error (.wrongType (.number (.double d)) width.name)

def readInt (width : Width) : Reader width.Val := fun bytes =>
  match skipBlanks bytes with
  | [] => mismatch width.name []
  | b :: rest =>
    if b = minus ∨ isDigit b then do
      let (n, rest) ← Scan.number (b :: rest)
      match intOf width n with
      | .ok v => return (v, rest)
      | .error cause => faultAfter cause rest
    else mismatch width.name (b :: rest)

/-- Enters a list or an object, unless it is nested too deep. -/
def entering {α : Type} (depth : Nat) (inner : Nat → Reader α) : Reader α := fun bytes =>
  match depth with
  | 0 => faultAt .tooDeep bytes
  | depth + 1 => inner depth bytes.tail

def readList {α : Type} (expected : String) (item : Nat → Reader α) (depth : Nat) :
    Reader (List α) := fun bytes =>
  match skipBlanks bytes with
  | [] => mismatch expected []
  | b :: rest =>
    if b = openList then entering depth (fun depth => listBody (item depth)) (b :: rest)
    else mismatch expected (b :: rest)

def readDict {α : Type} (expected : String) (item : Nat → Reader α) (depth : Nat) :
    Reader (Dict String α) := fun bytes =>
  match skipBlanks bytes with
  | [] => mismatch expected []
  | b :: rest =>
    if b = openObject then
      let member depth name (d : Dict String α) : Reader (Dict String α) := do
        memberColon
        return d.insert name (← item depth)
      entering depth (fun depth => objectBody (member depth) Dict.empty) (b :: rest)
    else mismatch expected (b :: rest)

def readOptional {α : Type} (item : Reader α) : Reader (Option α) := fun bytes =>
  match skipBlanks bytes with
  | [] => do
    let (v, rest) ← item []
    return (some v, rest)
  | b :: rest =>
    if b = letterN then do
      let ((), rest) ← letters [letterU, 0x6C, 0x6C] rest
      return (none, rest)
    else do
      let (v, rest) ← item (b :: rest)
      return (some v, rest)

def readPresent {α : Type} : (p : Presence) → Reader α → Reader (p.Val α)
  | .required, item => item
  | .optional, item => readOptional item
  | .defaulted, item => item

def choiceOf (first : String) (others : List String) (name : String) :
    Except Cause (Fin (others.length + 1)) :=
  match (first :: others).finIdxOf? name with
  | some i => .ok i
  | none => .error (.unknownChoice name (first :: others))

/-- Reads the name of a choice after its opening quote. -/
def readChoiceName (first : String) (others : List String) :
    Reader (Fin (others.length + 1)) := fun bytes => do
  let (name, rest) ← textBody bytes
  match choiceOf first others name with
  | .ok i => return (i, rest)
  | .error cause => faultAfter cause rest

/-- Reads a choice written as an object with its name and null, after the opening bracket. -/
def readChoiceObject (first : String) (others : List String) :
    Reader (Fin (others.length + 1)) := fun bytes =>
  match skipBlanks bytes with
  | [] => faultAt .endInObject []
  | b :: rest =>
    if b = quote then do
      let (i, rest) ← readChoiceName first others rest
      let ((), rest) ← memberColon rest
      let rest := skipBlanks rest
      let ((), rest) ← match rest with
        | [] => mismatch "unit" []
        | c :: after =>
          if c = letterN then letters [letterU, 0x6C, 0x6C] after else mismatch "unit" rest
      match skipBlanks rest with
      | [] => faultAfter .endInObject []
      | c :: after =>
        if c = closeObject then return (i, after) else faultAfter .expectedValue (c :: after)
    else if b = closeObject then faultAt .expectedValue (b :: rest)
    else faultAt .expectedName (b :: rest)

def readChoice (first : String) (others : List String) (depth : Nat) :
    Reader (Fin (others.length + 1)) := fun bytes =>
  match skipBlanks bytes with
  | [] => faultAt .endInValue []
  | b :: rest =>
    if b = quote then readChoiceName first others rest
    else if b = openObject then
      entering depth (fun _ => readChoiceObject first others) (b :: rest)
    else faultAt .expectedValue (b :: rest)

end Shape

/-- What a list of the fields of a record is called in a message. -/
def Fields.expected (noun : String) (fields : Fields) : String :=
  let count := fields.length
  noun ++ " with " ++ toString count ++ (if count = 1 then " element" else " elements")

/-- Reads a record from an object, after the opening bracket, given how to read the member with a
name into its slot. -/
def Fields.readObject (fields : Fields)
    (member? : String → fields.Slots → Option (Reader fields.Slots)) : Reader fields.Val :=
  fun bytes => do
    let member name (slots : fields.Slots) : Reader fields.Slots :=
      match member? name slots with
      | some reader => reader
      | none => do
        memberColon
        Json.skip
        return slots
    let (slots, bytes) ← objectBody member fields.noSlots bytes
    match fields.finish slots with
    | .ok vs => return (vs, bytes)
    | .error name => faultAfter (.missingMember name) bytes

/-- Reads a record from an object or from a list, given how to read its parts at a depth. -/
def Fields.readRecord (noun : String) (fields : Fields)
    (member? : Nat → String → fields.Slots → Option (Reader fields.Slots))
    (items : Nat → Nat → Bool → Reader fields.Val) (depth : Nat) : Reader fields.Val := fun bytes =>
  match skipBlanks bytes with
  | [] => faultAt .endInValue []
  | b :: rest =>
    if b = openObject then
      Shape.entering depth (fun depth => fields.readObject (member? depth)) (b :: rest)
    else if b = openList then
      let list depth : Reader fields.Val := do
        let vs ← items depth 0 true
        endList
        return vs
      Shape.entering depth list (b :: rest)
    else Shape.mismatch noun (b :: rest)

mutual

/-- Reads a value of a shape, with at most so many lists and objects inside each other. -/
def Shape.read : (s : Shape) → Nat → Reader s.Val
  | .text, _ => Shape.readText Shape.text.expected
  | .flag, _ => Shape.readFlag Shape.flag.expected
  | .int width, _ => Shape.readInt width
  | .any, depth => Value.ofJson <$> Json.read depth
  | .choice first others, depth => Shape.readChoice first others depth
  | .list item, depth => Shape.readList (Shape.list item).expected item.read depth
  | .dict item, depth => Shape.readDict (Shape.dict item).expected item.read depth
  | .record noun fields, depth =>
    fields.readRecord noun fields.readMember? (fields.readItems (fields.expected noun)) depth

/-- How to read the member with a name into its slot; none if no field has that name. A member that
is there already is a fault. -/
def Fields.readMember? : (fields : Fields) → Nat → String → fields.Slots →
    Option (Reader fields.Slots)
  | .nil, _, _, _ => none
  | .cons field shape rest, depth, name, (slot, slots) =>
    if field.answersTo name then
      some <| match slot with
        | some _ => faultOver closeObject (.repeatedMember field.name)
        | none => do
          memberColon
          return (some (← Shape.readPresent field.presence (shape.read depth)), slots)
    else
      (rest.readMember? depth name slots).map fun reader => do return (slot, ← reader)

/-- Reads the fields in their order from a list. Absent ones at its end have their default; the
index of the first required one tells the length in the fault. -/
def Fields.readItems : (fields : Fields) → String → Nat → Nat → Bool → Reader fields.Val
  | .nil, _, _, _, _ => return ()
  | .cons field shape rest, expected, depth, index, first => do
    if ← nextItem first then
      let v ← Shape.readPresent field.presence (shape.read depth)
      return (v, ← rest.readItems expected depth (index + 1) false)
    else
      match absent? field.presence shape with
      | some v => return (v, ← rest.readItems expected depth (index + 1) first)
      | none => faultOver closeList (.wrongLength index expected)

end

end AdmissionGuest
