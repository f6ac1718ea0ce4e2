/-!
Blank characters, those with the Unicode property White_Space, and trimming them off both ends of a
text.
-/

namespace AdmissionGuest.Text

/-- The twenty-five characters with the property White_Space. -/
def isBlank (c : Char) : Bool :=
  let n := c.toNat
  (0x9 ≤ n && n ≤ 0xD) || n == 0x20 || n == 0x85 || n == 0xA0 || n == 0x1680 ||
    (0x2000 ≤ n && n ≤ 0x200A) || n == 0x2028 || n == 0x2029 || n == 0x202F || n == 0x205F ||
    n == 0x3000

/-- Trims blanks off both ends of a list of characters. -/
def trimBlanks (cs : List Char) : List Char :=
  ((cs.dropWhile isBlank).reverse.dropWhile isBlank).reverse

/-- Trims blanks off both ends of a text. -/
def trim (text : String) : String :=
  String.ofList (trimBlanks text.toList)

/-- The lower-case form of an ASCII letter; every other character is unchanged. -/
def asciiLower (text : String) : String :=
  String.ofList (text.toList.map Char.toLower)

end AdmissionGuest.Text
