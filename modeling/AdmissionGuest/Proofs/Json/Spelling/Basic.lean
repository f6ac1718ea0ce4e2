import AdmissionGuest.Json.Fault
/-!
Documents as they are spelled. One value has many spellings, by blanks, escapes and forms of
numerals; a spelling keeps all of that, so that its text is determined by it. Every spelling is well
formed: its parts are the words of the grammar, and nothing that the grammar forbids can be built.
-/

namespace AdmissionGuest

open Ascii

namespace Spelling

/-- A blank between the parts of a document. -/
inductive Blank where
  | space
  | tab
  | lineFeed
  | carriageReturn
  deriving DecidableEq, Repr

def Blank.byte : Blank → UInt8
  | space => 0x20
  | tab => 0x09
  | lineFeed => Ascii.lineFeed
  | carriageReturn => 0x0D

def blanks (bs : List Blank) : Bytes := bs.map Blank.byte

/-! Numerals -/

/-- The byte of a decimal digit. -/
def digit (d : Fin 10) : UInt8 := UInt8.ofNat (0x30 + d)

/-- A numeral before its point: zero alone, or digits of which the first is not zero. -/
inductive Integral where
  | zero
  | digits (first : Fin 9) (more : List (Fin 10))
  deriving DecidableEq, Repr

def Integral.bytes : Integral → Bytes
  | zero => [digit 0]
  | digits first more => digit first.succ :: more.map digit

inductive Sign where
  | plus
  | minus
  deriving DecidableEq, Repr

def Sign.byte : Sign → UInt8
  | plus => Ascii.plus
  | minus => Ascii.minus

/-- Digits of which there is at least one. -/
structure Digits where
  first : Fin 10
  more : List (Fin 10) := []
  deriving DecidableEq, Repr

def Digits.bytes (ds : Digits) : Bytes := digit ds.first :: ds.more.map digit

structure Exponent where
  capital : Bool := false
  sign : Option Sign := none
  digits : Digits
  deriving DecidableEq, Repr

namespace Exponent

def mark (e : Exponent) : UInt8 := if e.capital then 0x45 else 0x65

/-- An exponent after its mark. -/
def tail (e : Exponent) : Bytes := (e.sign.map Sign.byte).toList ++ e.digits.bytes

def bytes (e : Exponent) : Bytes := e.mark :: e.tail

end Exponent

structure Numeral where
  negative : Bool := false
  integral : Integral
  decimals : Option Digits := none
  exponent : Option Exponent := none
  deriving DecidableEq, Repr

namespace Numeral

/-- A numeral after its digits: the exponent, if there is one. -/
def scale (n : Numeral) : Bytes := n.exponent.elim [] Exponent.bytes

/-- A numeral after its integral part. -/
def fraction (n : Numeral) : Bytes :=
  n.decimals.elim [] (fun ds => point :: ds.bytes) ++ n.scale

/-- A numeral after its sign. -/
def unsigned (n : Numeral) : Bytes := n.integral.bytes ++ n.fraction

def bytes (n : Numeral) : Bytes := (if n.negative then [minus] else []) ++ n.unsigned

end Numeral

/-! Texts -/

/-- The characters that have an escape of one letter. -/
inductive Short where
  | quote
  | backslash
  | slash
  | backspace
  | formFeed
  | lineFeed
  | carriageReturn
  | tab
  deriving DecidableEq, Repr

def Short.letter : Short → UInt8
  | quote => Ascii.quote
  | backslash => Ascii.backslash
  | slash => Ascii.slash
  | backspace => letterB
  | formFeed => letterF
  | lineFeed => letterN
  | carriageReturn => letterR
  | tab => letterT

def Short.char : Short → Char
  | quote => '"'
  | backslash => '\\'
  | slash => '/'
  | backspace => '\x08'
  | formFeed => '\x0c'
  | lineFeed => '\n'
  | carriageReturn => '\r'
  | tab => '\t'

/-- A hexadecimal digit; letters may be capital. -/
structure HexDigit where
  value : Fin 16
  capital : Bool := false
  deriving DecidableEq, Repr

def HexDigit.byte (h : HexDigit) : UInt8 :=
  UInt8.ofNat <|
    if h.value < 10 then 0x30 + h.value
    else if h.capital then 0x41 + (h.value - 10)
    else 0x61 + (h.value - 10)

/-- A sixteen-bit unit in hexadecimal digits. -/
structure CodeUnit where
  first : HexDigit
  second : HexDigit
  third : HexDigit
  fourth : HexDigit
  deriving DecidableEq, Repr

namespace CodeUnit

def value (u : CodeUnit) : Nat :=
  ((u.first.value * 16 + u.second.value) * 16 + u.third.value) * 16 + u.fourth.value

def bytes (u : CodeUnit) : Bytes :=
  [u.first.byte, u.second.byte, u.third.byte, u.fourth.byte]

/-- The first half of a surrogate pair. -/
def High (u : CodeUnit) : Prop := 0xD800 ≤ u.value ∧ u.value ≤ 0xDBFF

/-- The second half of a surrogate pair. -/
def Low (u : CodeUnit) : Prop := 0xDC00 ≤ u.value ∧ u.value ≤ 0xDFFF

instance (u : CodeUnit) : Decidable u.High := inferInstanceAs (Decidable (_ ∧ _))

instance (u : CodeUnit) : Decidable u.Low := inferInstanceAs (Decidable (_ ∧ _))

/-- The character of a surrogate pair. -/
def pair (high low : CodeUnit) : Char :=
  Char.ofNat ((high.value - 0xD800) * 0x400 + (low.value - 0xDC00) + 0x10000)

end CodeUnit

/-- A character that stands for itself. -/
def Unescaped (c : Char) : Prop := c ≠ '"' ∧ c ≠ '\\' ∧ ¬ c.toNat < 0x20

instance (c : Char) : Decidable (Unescaped c) := inferInstanceAs (Decidable (_ ∧ _))

/-- What a text is spelled with. -/
inductive Mark where
  | plain (c : Char) (unescaped : Unescaped c)
  | short (s : Short)
  | code (u : CodeUnit)
  deriving DecidableEq, Repr

def Mark.bytes : Mark → Bytes
  | plain c _ => String.utf8EncodeChar c
  | short s => [backslash, s.letter]
  | code u => backslash :: letterU :: u.bytes

/-- The marks of a text after its opening quote. -/
def markBytes (ms : List Mark) : Bytes := ms.flatMap Mark.bytes

/-- The characters that marks stand for. Surrogates must come in pairs. -/
def charsOf : List Mark → Except Cause (List Char)
  | [] => .ok []
  | .plain c _ :: ms => (c :: ·) <$> charsOf ms
  | .short s :: ms => (s.char :: ·) <$> charsOf ms
  | .code u :: ms =>
    if u.Low then .error .loneSurrogate
    else if u.High then
      match ms with
      | .code v :: ms =>
        if v.Low then (u.pair v :: ·) <$> charsOf ms else .error .loneSurrogate
      | _ => .error .unfinishedSurrogate
    else (Char.ofNat u.value :: ·) <$> charsOf ms

/-- The text that marks stand for. -/
def textOf (ms : List Mark) : Except Cause String := String.ofList <$> charsOf ms

/-! Parts -/

/-- An item of a list, with the blanks before and after it. -/
structure Item (α : Type) where
  before : List Blank := []
  value : α
  after : List Blank := []

/-- A member of an object, with the blanks around its name and around its value. -/
structure Member (α : Type) where
  before : List Blank := []
  name : List Mark
  beforeColon : List Blank := []
  afterColon : List Blank := []
  value : α
  after : List Blank := []

end Spelling

/-- A spelled document. The blanks of a list or an object follow its opening bracket. -/
inductive Spelling where
  | null
  | flag (b : Bool)
  | number (n : Spelling.Numeral)
  | text (marks : List Spelling.Mark)
  | list (inside : List Spelling.Blank) (items : List (Spelling.Item Spelling))
  | object (inside : List Spelling.Blank) (members : List (Spelling.Member Spelling))

namespace Spelling

mutual

/-- The text of a spelled document. -/
def bytes : Spelling → Bytes
  | .null => [letterN, letterU, 0x6C, 0x6C]
  | .flag true => [letterT, letterR, letterU, 0x65]
  | .flag false => [letterF, 0x61, 0x6C, 0x73, 0x65]
  | .number n => n.bytes
  | .text ms => quote :: (markBytes ms ++ [quote])
  | .list inside xs => openList :: (blanks inside ++ (itemBytes true xs ++ [closeList]))
  | .object inside ms => openObject :: (blanks inside ++ (memberBytes true ms ++ [closeObject]))

/-- The items of a list; a comma comes before all but the first. -/
def itemBytes : Bool → List (Item Spelling) → Bytes
  | _, [] => []
  | first, ⟨before, value, after⟩ :: xs =>
    (if first then [] else [comma]) ++
      (blanks before ++ (value.bytes ++ (blanks after ++ itemBytes false xs)))

/-- The members of an object; a comma comes before all but the first. -/
def memberBytes : Bool → List (Member Spelling) → Bytes
  | _, [] => []
  | first, ⟨before, name, beforeColon, afterColon, value, after⟩ :: ms =>
    (if first then [] else [comma]) ++
      (blanks before ++ (quote :: (markBytes name ++ (quote :: (blanks beforeColon ++
        (colon :: (blanks afterColon ++ (value.bytes ++
          (blanks after ++ memberBytes false ms)))))))))

end

end Spelling

end AdmissionGuest
