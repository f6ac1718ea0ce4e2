import AdmissionGuest.Json.Ascii
import AdmissionGuest.Json.Basic
import AdmissionGuest.Number.Layout
/-!
The compact text of a document: no blanks, members in the order they are given, and in texts only
quotes, backslashes and control characters escaped.
-/

namespace AdmissionGuest

open Ascii

def hexByte (n : Nat) : UInt8 :=
  UInt8.ofNat (if n < 10 then 0x30 + n else 0x57 + n)

/-- One character inside quotes. Five control characters have a letter, the others a number. -/
def escapedChar (c : Char) : Bytes :=
  let n := c.toNat
  if c = '"' then [backslash, quote]
  else if c = '\\' then [backslash, backslash]
  else if n = 0x08 then [backslash, letterB]
  else if n = 0x09 then [backslash, letterT]
  else if n = 0x0A then [backslash, letterN]
  else if n = 0x0C then [backslash, letterF]
  else if n = 0x0D then [backslash, letterR]
  else if n < 0x20 then
    [backslash, letterU, zero, zero, hexByte (n / 16), hexByte (n % 16)]
  else String.utf8EncodeChar c

def writeText (s : String) : Bytes :=
  quote :: s.toList.flatMap escapedChar ++ [quote]

/-- The decimal digits of an integer, after a minus if it is negative. -/
def writeInt : Int → Bytes
  | .ofNat n => word (Nat.toDigits 10 n)
  | .negSucc n => minus :: word (Nat.toDigits 10 (n + 1))

def Number.write : Number → Bytes
  | .int n => writeInt n
  | .double d => word d.text

namespace Json

mutual

def write : Json → Bytes
  | null => word ['n', 'u', 'l', 'l']
  | flag true => word ['t', 'r', 'u', 'e']
  | flag false => word ['f', 'a', 'l', 's', 'e']
  | number n => n.write
  | text s => writeText s
  | list [] => [openList, closeList]
  | list (x :: xs) => openList :: x.write ++ writeItems xs
  | object [] => [openObject, closeObject]
  | object ((name, x) :: ms) => openObject :: writeText name ++ colon :: x.write ++ writeMembers ms

/-- The items after the first one, and the closing bracket. -/
def writeItems : List Json → Bytes
  | [] => [closeList]
  | x :: xs => comma :: x.write ++ writeItems xs

/-- The members after the first one, and the closing bracket. -/
def writeMembers : List (String × Json) → Bytes
  | [] => [closeObject]
  | (name, x) :: ms => comma :: writeText name ++ colon :: x.write ++ writeMembers ms

end

end Json

end AdmissionGuest
