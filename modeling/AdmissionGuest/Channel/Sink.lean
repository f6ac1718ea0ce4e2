import AdmissionGuest.Text.Utf8
/-!
The stream a guest writes. It may be interrupted, take only part of what it is given, and fail. A
document is written only if every byte was taken and the stream could be flushed.
-/

namespace AdmissionGuest

/-- A stream to write: what it will accept, what it took so far, and how often it was called. -/
structure Sink where
  /-- the number of writes that will be interrupted first -/
  interrupts : Nat := 0
  /-- the most bytes that one write takes, if there is a limit -/
  step : Option Nat := none
  /-- the most bytes that are still taken, if there is a limit -/
  room : Option Nat := none
  /-- the failure of a write that takes nothing; without one such a write reports no bytes -/
  failure : Option String := none
  /-- the failure of a flush -/
  flushFailure : Option String := none
  /-- what each write took, the latest first -/
  pieces : List Bytes := []
  writes : Nat := 0
  flushes : Nat := 0
  deriving DecidableEq, Repr

/-- What one write reports. -/
inductive Writing where
  | wrote (count : Nat)
  | interrupted
  | failed (message : String)
  deriving DecidableEq, Repr

namespace Sink

def data (s : Sink) : Bytes := s.pieces.reverse.flatten

def upTo : Option Nat → Bytes → Bytes
  | none, bytes => bytes
  | some most, bytes => bytes.take most

/-- Which of the bytes the next write takes unless it is interrupted. -/
def accepted (s : Sink) (bytes : Bytes) : Bytes :=
  upTo s.room (upTo s.step bytes)

def write (s : Sink) (bytes : Bytes) : Writing × Sink :=
  let s := { s with writes := s.writes + 1 }
  match s.interrupts with
  | n + 1 => (.interrupted, { s with interrupts := n })
  | 0 =>
    match s.accepted bytes, s.failure with
    | [], some message => (.failed message, s)
    | piece, _ =>
      let room := s.room.map (· - piece.length)
      (.wrote piece.length, { s with room, pieces := piece :: s.pieces })

def flush (s : Sink) : Except String Unit × Sink :=
  let result := match s.flushFailure with
    | some message => .error message
    | none => .ok ()
  (result, { s with flushes := s.flushes + 1 })

/-- The failure of a write that reports no bytes although there are some to write. -/
def nothingWritten : String := "failed to write whole buffer"

/-- Writes all of the bytes, in at most `fuel` writes. -/
def push : Nat → Bytes → Sink → Except String Unit × Sink
  | _, [], s => (.ok (), s)
  | 0, _, s => (.error nothingWritten, s)
  | fuel + 1, bytes, s =>
    match s.write bytes with
    | (.interrupted, s) => push fuel bytes s
    | (.failed message, s) => (.error message, s)
    | (.wrote 0, s) => (.error nothingWritten, s)
    | (.wrote count, s) => push fuel (bytes.drop count) s

/-- Writes all of the bytes and flushes the stream. Interrupted writes are tried again. -/
def writeAll (s : Sink) (bytes : Bytes) : Except String Unit × Sink :=
  match s.push (s.interrupts + bytes.length) bytes with
  | (.ok (), s) => s.flush
  | (.error message, s) => (.error message, s)

end Sink

end AdmissionGuest
