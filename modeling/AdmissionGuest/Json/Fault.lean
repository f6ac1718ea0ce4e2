import AdmissionGuest.Json.Ascii
import AdmissionGuest.Json.Basic
import AdmissionGuest.Number.Layout
import AdmissionGuest.Text.Quoted
/-!
What can be wrong with a document, and where. A reader only knows how much of the document is left,
so a fault carries that; the line and column are worked out once the whole document is at hand.
-/

namespace AdmissionGuest

/-- What a reader met where a value of another kind is due. -/
inductive Found where
  | null
  | flag (b : Bool)
  | number (n : Number)
  | text (s : String)
  | list
  | object
  deriving DecidableEq, Repr

/-- The kind of a value, with the value itself where that is short. -/
def Json.found : Json → Found
  | .null => .null
  | .flag b => .flag b
  | .number n => .number n
  | .text s => .text s
  | .list _ => .list
  | .object _ => .object

/-- Why reading a document fails. -/
inductive Cause where
  | endInValue
  | endInList
  | endInObject
  | endInText
  | expectedValue
  | expectedWord
  | expectedColon
  | expectedListEnd
  | expectedObjectEnd
  | expectedName
  | trailingComma
  | trailingCharacters
  | invalidNumber
  | numberOutOfRange
  | controlCharacter
  | invalidEscape
  | loneSurrogate
  | unfinishedSurrogate
  | invalidCodePoint
  | tooDeep
  | wrongType (found : Found) (expected : String)
  | integerOutOfRange (n : Int) (expected : String)
  | wrongLength (count : Nat) (expected : String)
  | repeatedMember (name : String)
  | missingMember (name : String)
  | unknownChoice (name : String) (choices : List String)
  | noAlternative (type : String)
  deriving DecidableEq, Repr

/-- A name as error messages show it. -/
def tick (name : String) : String :=
  "`" ++ name ++ "`"

def Number.shown : Number → String
  | .int n => "integer " ++ tick (toString n)
  | .double d => "floating point " ++ tick (String.ofList d.text)

def Found.shown : Found → String
  | .null => "null"
  | .flag true => "boolean " ++ tick "true"
  | .flag false => "boolean " ++ tick "false"
  | .number n => n.shown
  | .text s => "string " ++ Text.quoted s
  | .list => "sequence"
  | .object => "map"

def shownChoices : List String → String
  | [] => "there are no variants"
  | [a] => "expected " ++ tick a
  | [a, b] => "expected " ++ tick a ++ " or " ++ tick b
  | names => "expected one of " ++ ", ".intercalate (names.map tick)

def Cause.message : Cause → String
  | endInValue => "EOF while parsing a value"
  | endInList => "EOF while parsing a list"
  | endInObject => "EOF while parsing an object"
  | endInText => "EOF while parsing a string"
  | expectedValue => "expected value"
  | expectedWord => "expected ident"
  | expectedColon => "expected `:`"
  | expectedListEnd => "expected `,` or `]`"
  | expectedObjectEnd => "expected `,` or `\x7d`"
  | expectedName => "key must be a string"
  | trailingComma => "trailing comma"
  | trailingCharacters => "trailing characters"
  | invalidNumber => "invalid number"
  | numberOutOfRange => "number out of range"
  | controlCharacter => "control character (\\u0000-\\u001F) found while parsing a string"
  | invalidEscape => "invalid escape"
  | loneSurrogate => "lone leading surrogate in hex escape"
  | unfinishedSurrogate => "unexpected end of hex escape"
  | invalidCodePoint => "invalid unicode code point"
  | tooDeep => "recursion limit exceeded"
  | wrongType found expected => "invalid type: " ++ found.shown ++ ", expected " ++ expected
  | integerOutOfRange n expected =>
    "invalid value: integer " ++ tick (toString n) ++ ", expected " ++ expected
  | wrongLength count expected => "invalid length " ++ toString count ++ ", expected " ++ expected
  | repeatedMember name => "duplicate field " ++ tick name
  | missingMember name => "missing field " ++ tick name
  | unknownChoice name choices => "unknown variant " ++ tick name ++ ", " ++ shownChoices choices
  | noAlternative type => "data did not match any variant of untagged enum " ++ type

/-- A place in a document: lines count from one, and the column is the number of bytes of the line
before the place. -/
structure Position where
  line : Nat
  column : Nat
  deriving DecidableEq, Repr

def Position.before (left : Nat) (document : Bytes) : Position :=
  let read := document.take (document.length - left)
  ⟨1 + read.count Ascii.lineFeed, (read.reverse.takeWhile (· != Ascii.lineFeed)).length⟩

/-- A cause and, unless it concerns the document as a whole, how many bytes are left after the place
it is reported at. -/
structure Fault where
  cause : Cause
  left : Option Nat := none
  deriving DecidableEq, Repr

def Fault.message (document : Bytes) (fault : Fault) : String :=
  match fault.left with
  | none => fault.cause.message
  | some left =>
    let place := Position.before left document
    fault.cause.message ++ " at line " ++ toString place.line ++ " column " ++ toString place.column

end AdmissionGuest
