import AdmissionGuest.Channel.Sink
import AdmissionGuest.Channel.Source
import AdmissionGuest.Document
import AdmissionGuest.Log.Event
/-!
What a guest does. A session holds the input stream, the host and the log; an action of the guest
changes the session and either returns a value or fails.
-/

namespace AdmissionGuest

/-- What a guest acts on. -/
structure Session (η : Type) where
  input : Source
  host : η
  /-- the events so far, the oldest first -/
  log : List Event := []

def Session.record {η : Type} (event : Event) (s : Session η) : Session η :=
  { s with log := s.log ++ [event] }

/-- An action of a guest with a host of type `η`. -/
abbrev Guest (η α : Type) := ExceptT Error (StateM (Session η)) α

def readInput {η : Type} : Guest η Bytes := do
  let s ← get
  let (result, input) := s.input.readAll
  set { s with input }
  match result with
  | .ok (bytes, reads) =>
    modify (Session.record (.documentRead bytes.length reads))
    return bytes
  | .error message => throw (.stream message)

/-- Writes the document of a value, flushes the stream, and logs that it was written. -/
def writeDocument {α : Type} [Named α] [ToDocument α] (a : α) (output : Sink) :
    Except Error Unit × Sink × List Event :=
  match encode a with
  | .error e => (.error e, output, [])
  | .ok bytes =>
    match output.writeAll bytes with
    | (.ok (), output) => (.ok (), output, [.documentWritten bytes.length])
    | (.error message, output) => (.error (.stream message), output, [])

end AdmissionGuest
