import AdmissionGuest.Json.Fault
/-!
The parts every JSON reader is made of: words, numbers, texts, and the punctuation of lists and
objects. A reader takes its value off the front of the bytes and leaves the rest.

A fault stands either after the last byte read, or at the next byte, which is then counted as read.
-/

namespace AdmissionGuest

/-- Takes a value off the front of a document. -/
abbrev Reader (α : Type) := StateT Bytes (Except Fault) α

namespace Scan

open Ascii

/-- A fault after the bytes read so far. -/
def faultAfter {α : Type} (cause : Cause) (rest : Bytes) : Except Fault α :=
  .error ⟨cause, some rest.length⟩

/-- A fault at the next byte, if there is one. -/
def faultAt {α : Type} (cause : Cause) (rest : Bytes) : Except Fault α :=
  .error ⟨cause, some rest.tail.length⟩

def letters : List UInt8 → Reader Unit
  | [], rest => .ok ((), rest)
  | _ :: _, [] => faultAfter .endInValue []
  | letter :: more, b :: rest =>
    if b = letter then letters more rest else faultAfter .expectedWord rest

/-! Numbers -/

/-- A significand has sixty-four bits. -/
def significandLimit : Nat := 0x10000000000000000

def leastMagnitude : Nat := 0x8000000000000000

/-- A significand, and the number of digits that were dropped because it would not hold them. -/
structure Significand where
  value : Nat
  dropped : Nat

/-- Appends a digit; after the first dropped digit all further ones are dropped. -/
def Significand.push (s : Significand) (b : UInt8) : Significand :=
  if s.dropped = 0 ∧ s.value * 10 + digit b < significandLimit then
    ⟨s.value * 10 + digit b, 0⟩
  else
    ⟨s.value, s.dropped + 1⟩

/-- The number of a plain numeral. Without dropped digits it is an integer, unless it is below the
least one or a negative zero. -/
def plainNumber (negative : Bool) (s : Significand) : Option Number :=
  if s.dropped = 0 then
    if !negative then some (.int s.value)
    else if 0 < s.value ∧ s.value ≤ leastMagnitude then some (.int (-s.value))
    else some (.double ⟨true, Binary64.ofQuotient s.value 1⟩)
  else
    (Binary64.ofDecimal s.value s.dropped).map fun rank => .double ⟨negative, rank⟩

/-- The number of a numeral with decimals or an exponent. -/
def scaledNumber (negative : Bool) (significand : Nat) (exponent : Int) : Option Number :=
  (Binary64.ofDecimal significand exponent).map fun rank => .double ⟨negative, rank⟩

def endNumber (number : Option Number) : Reader Number := fun rest =>
  match number with
  | some n => .ok (n, rest)
  | none => faultAfter .numberOutOfRange rest

def exponentLimit : Nat := 2147483647

/-- Reads the digits of an exponent, up to the one that exceeds the limit. -/
def exponentDigits : Nat → Bytes → Nat × Bytes
  | n, [] => (n, [])
  | n, b :: rest =>
    if isDigit b then
      let n := n * 10 + digit b
      if exponentLimit < n then (n, rest) else exponentDigits n rest
    else
      (n, b :: rest)

/-- Reads the digits of an exponent after its sign. Beyond the limit the number is out of range or,
if its significand or its exponent makes it small, zero. -/
def exponentValue (negative : Bool) (significand : Nat) (scale : Int) (below : Bool) :
    Reader Number
  | [] => faultAfter .endInValue []
  | b :: rest =>
    if isDigit b then
      let (n, rest) := exponentDigits (digit b) rest
      if n ≤ exponentLimit then
        let shift : Int := if below then -n else n
        endNumber (scaledNumber negative significand (scale + shift)) rest
      else if significand ≠ 0 ∧ !below then
        faultAfter .numberOutOfRange rest
      else
        .ok (.double ⟨negative, 0⟩, rest.dropWhile isDigit)
    else
      faultAfter .invalidNumber rest

def exponent (negative : Bool) (significand : Nat) (scale : Int) : Reader Number
  | plus :: rest => exponentValue negative significand scale false rest
  | minus :: rest => exponentValue negative significand scale true rest
  | rest => exponentValue negative significand scale false rest

/-- Reads the decimals after the point: those that the significand holds lower the scale. -/
def decimals (negative : Bool) (whole : Significand) : Reader Number := fun bytes =>
  let digits := bytes.takeWhile isDigit
  let rest := bytes.dropWhile isDigit
  if digits.isEmpty then
    match rest with
    | [] => faultAt .endInValue []
    | _ => faultAt .invalidNumber rest
  else
    let s := digits.foldl Significand.push ⟨whole.value, 0⟩
    let scale : Int := whole.dropped - (digits.length - s.dropped : Nat)
    match rest with
    | b :: after =>
      if isExponentMark b then exponent negative s.value scale after
      else endNumber (scaledNumber negative s.value scale) rest
    | [] => endNumber (scaledNumber negative s.value scale) []

/-- Reads what follows the whole part of a numeral. -/
def afterWhole (negative : Bool) (whole : Significand) : Reader Number
  | [] => endNumber (plainNumber negative whole) []
  | b :: rest =>
    if b = point then decimals negative whole rest
    else if isExponentMark b then exponent negative whole.value whole.dropped rest
    else endNumber (plainNumber negative whole) (b :: rest)

/-- Reads a numeral after its sign. A leading zero is the whole part by itself. -/
def unsignedNumber (negative : Bool) : Reader Number
  | [] => faultAfter .endInValue []
  | b :: rest =>
    if b = zero then
      match rest with
      | d :: _ => if isDigit d then faultAt .invalidNumber rest else afterWhole negative ⟨0, 0⟩ rest
      | [] => afterWhole negative ⟨0, 0⟩ rest
    else if isDigit b then
      let whole := (b :: rest.takeWhile isDigit).foldl Significand.push ⟨0, 0⟩
      afterWhole negative whole (rest.dropWhile isDigit)
    else
      faultAfter .invalidNumber rest

def number : Reader Number
  | minus :: rest => unsignedNumber true rest
  | rest => unsignedNumber false rest

/-! Texts -/

def hexEscape : Reader Nat
  | a :: b :: c :: d :: rest =>
    match hexDigit? a, hexDigit? b, hexDigit? c, hexDigit? d with
    | some a, some b, some c, some d => .ok (((a * 16 + b) * 16 + c) * 16 + d, rest)
    | _, _, _, _ => faultAfter .invalidEscape rest
  | _ => faultAfter .endInText []

/-- Reads the second half of a surrogate pair, after the value of its first half. -/
def trailingSurrogate (high : Nat) : Reader Char
  | [] | [backslash] => faultAfter .endInText []
  | backslash :: letterU :: rest => do
    let (low, rest) ← hexEscape rest
    if 0xDC00 ≤ low ∧ low ≤ 0xDFFF then
      return (Char.ofNat ((high - 0xD800) * 0x400 + (low - 0xDC00) + 0x10000), rest)
    else
      faultAfter .loneSurrogate rest
  | backslash :: _ :: rest => faultAfter .unfinishedSurrogate rest
  | _ :: rest => faultAfter .unfinishedSurrogate rest

/-- Reads the character of a hexadecimal escape, which may be a pair of surrogates. -/
def codeEscape : Reader Char := fun bytes => do
  let (n, rest) ← hexEscape bytes
  if 0xDC00 ≤ n ∧ n ≤ 0xDFFF then faultAfter .loneSurrogate rest
  else if 0xD800 ≤ n ∧ n ≤ 0xDBFF then trailingSurrogate n rest
  else return (Char.ofNat n, rest)

/-- Reads what follows a backslash: the bytes it stands for. -/
def escape : Reader Bytes
  | [] => faultAfter .endInText []
  | b :: rest =>
    if b = quote ∨ b = backslash ∨ b = slash then .ok ([b], rest)
    else if b = letterB then .ok ([0x08], rest)
    else if b = letterF then .ok ([0x0C], rest)
    else if b = letterN then .ok ([0x0A], rest)
    else if b = letterR then .ok ([0x0D], rest)
    else if b = letterT then .ok ([0x09], rest)
    else if b = letterU then do
      let (c, rest) ← codeEscape rest
      return (String.utf8EncodeChar c, rest)
    else faultAfter .invalidEscape rest

/-- Reads characters up to the closing quote, at most as many as the bound has bytes, and gives the
bytes they stand for. -/
def textBytes : Bytes → Reader Bytes
  | _, [] => faultAfter .endInText []
  | [], rest => faultAfter .endInText rest
  | _ :: bound, b :: rest =>
    if b = quote then .ok ([], rest)
    else if b = backslash then do
      let (first, rest) ← escape rest
      let (more, rest) ← textBytes bound rest
      return (first ++ more, rest)
    else if b < 0x20 then faultAfter .controlCharacter rest
    else do
      let (more, rest) ← textBytes bound rest
      return (b :: more, rest)

/-- Reads a text after its opening quote; every character takes at least one byte. That its bytes
are characters is checked at the closing quote; the place of the fault counts back from there over
the bytes the text stands for. -/
def textBody : Reader String := fun bytes => do
  let (body, rest) ← textBytes bytes bytes
  match Utf8.decode body with
  | .ok text => return (text, rest)
  | .error left => .error ⟨.invalidCodePoint, some (rest.length + left)⟩

/-! Lists and objects -/

/-- Whether a list has another item, and moves to it, or to the closing bracket. -/
def nextItem (first : Bool) : Reader Bool := fun bytes =>
  let bytes := skipBlanks bytes
  match bytes with
  | [] => faultAt .endInList []
  | b :: rest =>
    if b = closeList then .ok (false, bytes)
    else if first then .ok (true, bytes)
    else if b = comma then
      let rest := skipBlanks rest
      match rest with
      | [] => faultAt .endInValue []
      | c :: _ => if c = closeList then faultAt .trailingComma rest else .ok (true, rest)
    else faultAt .expectedListEnd bytes

def endList : Reader Unit := fun bytes =>
  let bytes := skipBlanks bytes
  match bytes with
  | [] => faultAt .endInList []
  | b :: rest =>
    if b = closeList then .ok ((), rest)
    else if b = comma then
      let rest := skipBlanks rest
      match rest with
      | [] => faultAt .trailingCharacters []
      | c :: _ =>
        if c = closeList then faultAt .trailingComma rest else faultAt .trailingCharacters rest
    else faultAt .trailingCharacters bytes

/-- Reads the items of a list up to the closing bracket, fewer than the bound has bytes. -/
def items {α : Type} (item : Reader α) : Bytes → Bool → Reader (List α)
  | [], _, bytes => faultAfter .expectedValue bytes
  | _ :: bound, first, bytes => do
    let (more, bytes) ← nextItem first bytes
    if more then
      let (x, bytes) ← item bytes
      let (xs, bytes) ← items item bound false bytes
      return (x :: xs, bytes)
    else
      return ([], bytes)

/-- Reads the rest of a list, which begins with its first item or after one. Every item takes at
least one byte, so there are fewer items than bytes from the byte before them on. -/
def restOfList {α : Type} (first : Bool) (item : Reader α) : Reader (List α) := fun bytes => do
  let (xs, bytes) ← items item (openList :: bytes) first bytes
  let ((), bytes) ← endList bytes
  return (xs, bytes)

def listBody {α : Type} (item : Reader α) : Reader (List α) :=
  restOfList true item

/-- The name of the next member of an object, or none at the closing bracket. -/
def nextName (first : Bool) : Reader (Option String) := fun bytes =>
  let bytes := skipBlanks bytes
  match bytes with
  | [] => faultAt .endInObject []
  | b :: rest =>
    if b = closeObject then .ok (none, bytes)
    else if first then
      if b = quote then do
        let (name, rest) ← textBody rest
        return (some name, rest)
      else faultAt .expectedName bytes
    else if b = comma then
      let rest := skipBlanks rest
      match rest with
      | [] => faultAt .endInValue []
      | c :: after =>
        if c = quote then do
          let (name, after) ← textBody after
          return (some name, after)
        else if c = closeObject then faultAt .trailingComma rest
        else faultAt .expectedName rest
    else faultAt .expectedObjectEnd bytes

/-- Expects the colon between the name and the value of a member. -/
def memberColon : Reader Unit := fun bytes =>
  let bytes := skipBlanks bytes
  match bytes with
  | [] => faultAt .endInObject []
  | b :: rest => if b = colon then .ok ((), rest) else faultAt .expectedColon bytes

/-- Reads the members of an object up to the closing bracket, fewer than the bound has bytes. What
is done with a member is decided by its name. -/
def members {σ : Type} (member : String → σ → Reader σ) : Bytes → Bool → σ → Reader σ
  | [], _, _, bytes => faultAfter .expectedValue bytes
  | _ :: bound, first, state, bytes => do
    match ← nextName first bytes with
    | (none, bytes) => return (state, bytes)
    | (some name, bytes) =>
      let (state, bytes) ← member name state bytes
      members member bound false state bytes

def endObject : Reader Unit := fun bytes =>
  match skipBlanks bytes with
  | [] => faultAt .endInObject []
  | b :: rest =>
    if b = closeObject then .ok ((), rest)
    else if b = comma then faultAt .trailingComma (b :: rest)
    else faultAt .trailingCharacters (b :: rest)

/-- Reads an object after its opening bracket. Every member takes at least one byte, so there are
fewer members than bytes from the bracket on. -/
def objectBody {σ : Type} (member : String → σ → Reader σ) (start : σ) : Reader σ := fun bytes => do
  let (state, bytes) ← members member (openObject :: bytes) true start bytes
  let ((), bytes) ← endObject bytes
  return (state, bytes)

/-- A fault of a list or an object as a whole. It stands after the blanks that follow, and after the
closing bracket if that comes next. -/
def faultOver {α : Type} (close : UInt8) (cause : Cause) (bytes : Bytes) : Except Fault α :=
  match skipBlanks bytes with
  | [] => faultAfter cause []
  | b :: rest => if b = close then faultAfter cause rest else faultAfter cause (b :: rest)

end Scan

end AdmissionGuest
