import AdmissionGuest.Text.Utf8
/-!
The ASCII characters that JSON text is built from, as bytes.
-/

namespace AdmissionGuest.Ascii

@[match_pattern] abbrev quote : UInt8 := 0x22
@[match_pattern] abbrev backslash : UInt8 := 0x5C
@[match_pattern] abbrev comma : UInt8 := 0x2C
@[match_pattern] abbrev colon : UInt8 := 0x3A
@[match_pattern] abbrev openList : UInt8 := 0x5B
@[match_pattern] abbrev closeList : UInt8 := 0x5D
@[match_pattern] abbrev openObject : UInt8 := 0x7B
@[match_pattern] abbrev closeObject : UInt8 := 0x7D
@[match_pattern] abbrev minus : UInt8 := 0x2D
@[match_pattern] abbrev plus : UInt8 := 0x2B
@[match_pattern] abbrev point : UInt8 := 0x2E
@[match_pattern] abbrev zero : UInt8 := 0x30
@[match_pattern] abbrev letterB : UInt8 := 0x62
@[match_pattern] abbrev letterF : UInt8 := 0x66
@[match_pattern] abbrev letterN : UInt8 := 0x6E
@[match_pattern] abbrev letterR : UInt8 := 0x72
@[match_pattern] abbrev letterT : UInt8 := 0x74
@[match_pattern] abbrev letterU : UInt8 := 0x75
@[match_pattern] abbrev slash : UInt8 := 0x2F
@[match_pattern] abbrev lineFeed : UInt8 := 0x0A

def word (cs : List Char) : Bytes :=
  cs.map fun c => UInt8.ofNat c.toNat

def isDigit (b : UInt8) : Bool :=
  zero ≤ b && b ≤ 0x39

def digit (b : UInt8) : Nat :=
  b.toNat - zero.toNat

def isExponentMark (b : UInt8) : Bool :=
  b == 0x65 || b == 0x45

/-- Blanks between the parts of a document: space, tab, line feed and carriage return. -/
def isBlank (b : UInt8) : Bool :=
  b == 0x20 || b == 0x09 || b == lineFeed || b == 0x0D

/-- Drops leading blanks. -/
def skipBlanks (bytes : Bytes) : Bytes :=
  bytes.dropWhile isBlank

def hexDigit? (b : UInt8) : Option Nat :=
  let n := b.toNat
  if 0x30 ≤ n ∧ n ≤ 0x39 then some (n - 0x30)
  else if 0x41 ≤ n ∧ n ≤ 0x46 then some (n - 0x41 + 10)
  else if 0x61 ≤ n ∧ n ≤ 0x66 then some (n - 0x61 + 10)
  else none

end AdmissionGuest.Ascii
