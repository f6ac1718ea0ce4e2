import AdmissionGuest.Json.Scan
/-!
Reading a document of any kind. Lists and objects may be nested up to a limit.
-/

namespace AdmissionGuest.Json

open Ascii Scan

/-- Lists and objects are nested at most this deep. -/
def nestingLimit : Nat := 127

/-- Reads a value; the parts of lists and objects are read by `inner`, if nesting is allowed. -/
def readValue (inner : Option (Reader Json)) : Reader Json := fun bytes =>
  let bytes := skipBlanks bytes
  match bytes with
  | [] => faultAt .endInValue []
  | b :: rest =>
    if b = letterN then do
      let ((), rest) ← letters [letterU, 0x6C, 0x6C] rest
      return (null, rest)
    else if b = letterT then do
      let ((), rest) ← letters [letterR, letterU, 0x65] rest
      return (flag true, rest)
    else if b = letterF then do
      let ((), rest) ← letters [0x61, 0x6C, 0x73, 0x65] rest
      return (flag false, rest)
    else if b = minus ∨ isDigit b then do
      let (n, rest) ← Scan.number bytes
      return (number n, rest)
    else if b = quote then do
      let (s, rest) ← textBody rest
      return (text s, rest)
    else if b = openList then
      match inner with
      | none => faultAt .tooDeep bytes
      | some inner => do
        let (xs, rest) ← listBody inner rest
        return (list xs, rest)
    else if b = openObject then
      match inner with
      | none => faultAt .tooDeep bytes
      | some inner => do
        let member name (ms : List (String × Json)) : Reader (List (String × Json)) := do
          memberColon
          return (name, ← inner) :: ms
        let (ms, rest) ← objectBody member [] rest
        return (object ms.reverse, rest)
    else faultAt .expectedValue bytes

/-- Reads a value with at most so many lists and objects inside each other. -/
def read : Nat → Reader Json
  | 0, bytes => readValue none bytes
  | depth + 1, bytes => readValue (some (read depth)) bytes

end AdmissionGuest.Json

namespace AdmissionGuest

/-- Only blanks may follow a document. -/
def Reader.whole {α : Type} (reader : Reader α) (document : Bytes) : Except Fault α := do
  let (value, rest) ← reader document
  match Ascii.skipBlanks rest with
  | [] => return value
  | b :: rest => Scan.faultAt .trailingCharacters (b :: rest)

end AdmissionGuest
