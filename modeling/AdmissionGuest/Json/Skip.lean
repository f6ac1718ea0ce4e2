import AdmissionGuest.Json.Scan
/-!
Skipping a value whose content does not matter. Only its extent is found: nesting may be of any
depth, texts need not decode, and numerals need not be in range. The lists and objects that are
still open are kept on a stack.
-/

namespace AdmissionGuest.Skip

open Ascii Scan

/-- Skips digits, at least one of which must come first. -/
def exponentDigits : Bytes → Except Fault Bytes
  | [] => faultAfter .invalidNumber []
  | b :: rest =>
    if isDigit b then .ok (rest.dropWhile isDigit) else faultAfter .invalidNumber rest

def exponent : Bytes → Except Fault Bytes
  | plus :: rest | minus :: rest => exponentDigits rest
  | rest => exponentDigits rest

/-- Skips an exponent, if there is one. -/
def optionalExponent : Bytes → Except Fault Bytes
  | [] => .ok []
  | b :: rest => if isExponentMark b then exponent rest else .ok (b :: rest)

/-- Skips what follows the whole part of a numeral. -/
def afterWhole : Bytes → Except Fault Bytes
  | point :: rest =>
    match rest with
    | [] => faultAt .invalidNumber []
    | b :: _ =>
      if isDigit b then optionalExponent (rest.dropWhile isDigit) else faultAt .invalidNumber rest
  | rest => optionalExponent rest

def unsignedNumber : Bytes → Except Fault Bytes
  | [] => faultAfter .invalidNumber []
  | b :: rest =>
    if b = zero then
      match rest with
      | d :: _ => if isDigit d then faultAt .invalidNumber rest else afterWhole rest
      | [] => .ok []
    else if isDigit b then afterWhole (rest.dropWhile isDigit)
    else faultAfter .invalidNumber rest

/-- Skips characters up to the closing quote, at most as many as the bound has bytes. -/
def textUpTo : Bytes → Bytes → Except Fault Bytes
  | _, [] => faultAfter .endInText []
  | [], rest => faultAfter .endInText rest
  | _ :: bound, b :: rest =>
    if b = quote then .ok rest
    else if b = backslash then
      match rest with
      | [] => faultAfter .endInText []
      | c :: after =>
        if c = letterU then do
          let (_, after) ← hexEscape after
          textUpTo bound after
        else if c = quote ∨ c = backslash ∨ c = slash ∨ c = letterB ∨ c = letterF ∨ c = letterN ∨
            c = letterR ∨ c = letterT then
          textUpTo bound after
        else faultAfter .invalidEscape after
    else if b < 0x20 then faultAfter .controlCharacter (b :: rest)
    else textUpTo bound rest

/-- Skips a text after its opening quote; every character takes at least one byte. -/
def textBody (bytes : Bytes) : Except Fault Bytes :=
  textUpTo bytes bytes

/-- A list or an object that is not closed yet. -/
inductive Frame where
  | list
  | object
  deriving DecidableEq, Repr

def Frame.close : Frame → UInt8
  | list => closeList
  | object => closeObject

def Frame.ended : Frame → Cause
  | list => .endInList
  | object => .endInObject

/-- Neither a comma nor the end of the frame follows a value. -/
def Frame.expected : Frame → Cause
  | list => .expectedListEnd
  | object => .expectedObjectEnd

/-- Where skipping stands: at a value, or after one, inside the open frames. -/
inductive State where
  | value (frames : List Frame)
  | ended (frames : List Frame)

/-- Skips what comes before a value in a frame: nothing, or the name of a member. -/
def beforeValue (frame : Frame) (bytes : Bytes) : Except Fault Bytes :=
  match frame with
  | .list => .ok bytes
  | .object =>
    match skipBlanks bytes with
    | [] => faultAt .endInObject []
    | b :: rest =>
      if b = quote then do
        let bytes := skipBlanks (← textBody rest)
        match bytes with
        | [] => faultAt .endInObject []
        | c :: after => if c = colon then .ok after else faultAt .expectedColon bytes
      else faultAt .expectedName (b :: rest)

/-- Enters a frame: it may be closed at once. -/
def enter (frame : Frame) (frames : List Frame) (bytes : Bytes) : Except Fault (State × Bytes) :=
  match skipBlanks bytes with
  | [] => faultAt frame.ended []
  | b :: rest =>
    if b = frame.close then .ok (.ended frames, rest)
    else do
      let bytes ← beforeValue frame (b :: rest)
      return (.value (frame :: frames), bytes)

/-- Skips a value without parts, or enters one with parts. -/
def value (frames : List Frame) (bytes : Bytes) : Except Fault (State × Bytes) :=
  let scalar (r : Except Fault Bytes) : Except Fault (State × Bytes) :=
    r.map fun rest => (.ended frames, rest)
  let bytes := skipBlanks bytes
  match bytes with
  | [] => faultAt .endInValue []
  | b :: rest =>
    if b = letterN then scalar ((letters [letterU, 0x6C, 0x6C] rest).map Prod.snd)
    else if b = letterT then scalar ((letters [letterR, letterU, 0x65] rest).map Prod.snd)
    else if b = letterF then scalar ((letters [0x61, 0x6C, 0x73, 0x65] rest).map Prod.snd)
    else if b = minus then scalar (unsignedNumber rest)
    else if isDigit b then scalar (unsignedNumber bytes)
    else if b = quote then scalar (textBody rest)
    else if b = openList then enter .list frames rest
    else if b = openObject then enter .object frames rest
    else faultAt .expectedValue bytes

/-- Skips what follows a value in a frame: a comma with what comes before the next value, or the end
of the frame. -/
def afterValue (frame : Frame) (frames : List Frame) (bytes : Bytes) :
    Except Fault (State × Bytes) :=
  let bytes := skipBlanks bytes
  match bytes with
  | [] => faultAt frame.ended []
  | b :: rest =>
    if b = comma then do
      let rest ← beforeValue frame rest
      return (.value (frame :: frames), rest)
    else if b = frame.close then .ok (.ended frames, rest)
    else faultAt frame.expected bytes

/-- Skips until no frame is open, in at most as many steps as the bound has bytes. -/
def run : Bytes → State → Bytes → Except Fault Bytes
  | _, .ended [], bytes => .ok bytes
  | [], _, bytes => faultAfter .expectedValue bytes
  | _ :: bound, .value frames, bytes =>
    match value frames bytes with
    | .error fault => .error fault
    | .ok (state, bytes) => run bound state bytes
  | _ :: bound, .ended (frame :: frames), bytes =>
    match afterValue frame frames bytes with
    | .error fault => .error fault
    | .ok (state, bytes) => run bound state bytes

end AdmissionGuest.Skip

namespace AdmissionGuest

/-- Skips one value after its colon. Every step takes at least one byte or fails, so the colon and
the bytes after it are bound enough. -/
def Json.skip : Reader Unit := fun bytes => do
  let rest ← Skip.run (Ascii.colon :: bytes) (.value []) bytes
  return ((), rest)

end AdmissionGuest
