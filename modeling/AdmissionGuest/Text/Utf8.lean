/-!
UTF-8 as a way to cut bytes into pieces: well-formed characters, and maximal ill-formed prefixes
between them. Strict decoding accepts bytes all of whose pieces are characters; lossy decoding
writes one replacement character for each ill-formed prefix.
-/

namespace AdmissionGuest

/-- A finite byte string. Reading consumes it from the front. -/
abbrev Bytes := List UInt8

namespace Utf8

def encode (text : String) : Bytes :=
  text.toList.flatMap String.utf8EncodeChar

/-- A stretch of bytes that is decoded as one unit. -/
inductive Piece where
  | character (c : Char)
  | illFormed
  deriving DecidableEq, Repr

/-- What a lead byte announces: the bits it contributes, the range of the byte after it, and how
many continuation bytes follow in all. -/
structure Lead where
  value : Nat
  low : UInt8
  high : UInt8
  more : Nat

/-- The second byte of a sequence has a narrower range after four of the lead bytes: that excludes
overlong forms, surrogates and values above the last code point. -/
def lead (b : UInt8) : Option Lead :=
  let n := b.toNat
  if n < 0x80 then some ⟨n, 0x80, 0xBF, 0⟩
  else if n < 0xC2 then none
  else if n < 0xE0 then some ⟨n % 0x20, 0x80, 0xBF, 1⟩
  else if n = 0xE0 then some ⟨0, 0xA0, 0xBF, 2⟩
  else if n = 0xED then some ⟨0xD, 0x80, 0x9F, 2⟩
  else if n < 0xF0 then some ⟨n % 0x10, 0x80, 0xBF, 2⟩
  else if n = 0xF0 then some ⟨0, 0x90, 0xBF, 3⟩
  else if n < 0xF4 then some ⟨n % 8, 0x80, 0xBF, 3⟩
  else if n = 0xF4 then some ⟨4, 0x80, 0x8F, 3⟩
  else none

/-- Reads continuation bytes, the first of them within the given range. A byte out of range is left
for the next piece. -/
def follow : Nat → UInt8 → UInt8 → Nat → Bytes → Piece × Bytes
  | 0, _, _, value, rest => (.character (Char.ofNat value), rest)
  | _ + 1, _, _, _, [] => (.illFormed, [])
  | more + 1, low, high, value, b :: rest =>
    if low ≤ b ∧ b ≤ high then
      follow more 0x80 0xBF (value * 0x40 + b.toNat % 0x40) rest
    else
      (.illFormed, b :: rest)

/-- The piece that begins with byte `b`, and what is left after it. -/
def piece (b : UInt8) (rest : Bytes) : Piece × Bytes :=
  match lead b with
  | none => (.illFormed, rest)
  | some l => follow l.more l.low l.high l.value rest

/-- Cuts at most `fuel` pieces off the bytes. -/
def cut : Nat → Bytes → List Piece
  | 0, _ | _, [] => []
  | fuel + 1, b :: rest =>
    let (p, rest) := piece b rest
    p :: cut fuel rest

/-- All pieces of the bytes, in order: each takes at least one byte. -/
def pieces (bytes : Bytes) : List Piece :=
  cut bytes.length bytes

/-- U+FFFD, which stands for an ill-formed prefix. -/
def replacement : Char := '\uFFFD'

def Piece.shown : Piece → Char
  | .character c => c
  | .illFormed => replacement

/-- Decoding that never fails: each maximal ill-formed prefix becomes one replacement character. -/
def decodeLossy (bytes : Bytes) : String :=
  String.ofList ((pieces bytes).map Piece.shown)

/-- Strict decoding with at most `fuel` characters. The failure tells how many bytes there are from
the first ill-formed one to the end. -/
def decodeFrom : Nat → Bytes → Except Nat (List Char)
  | _, [] => .ok []
  | 0, bytes => .error bytes.length
  | fuel + 1, b :: rest =>
    match piece b rest with
    | (.character c, rest) => (c :: ·) <$> decodeFrom fuel rest
    | (.illFormed, _) => .error (rest.length + 1)

/-- Strict decoding. The failure tells how many bytes there are from the first ill-formed one to
the end. -/
def decode (bytes : Bytes) : Except Nat String :=
  String.ofList <$> decodeFrom bytes.length bytes

end Utf8

end AdmissionGuest
