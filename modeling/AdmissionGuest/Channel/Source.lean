import AdmissionGuest.Text.Utf8
/-!
The stream a guest reads. What will arrive on it is a script of data, interruptions and failures; a
document has no length prefix and ends where the stream ends. How the data is cut into pieces does
not show in the document that is assembled from them.
-/

namespace AdmissionGuest

/-- The descriptor of the stream that carries requests and the host's replies. -/
def inputDescriptor : Nat := 0

/-- The descriptor of the stream that carries the response. -/
def outputDescriptor : Nat := 1

def chunkSize : Nat := 1024

/-- What may arrive on a stream. Data without bytes is an end of the stream. -/
inductive Arrival where
  | data (bytes : Bytes)
  | interrupt
  | failure (message : String)
  deriving DecidableEq, Repr

def Arrival.size : Arrival → Nat
  | data bytes => bytes.length
  | _ => 0

/-- A stream to read: what will arrive, how often it was read, and the largest buffer offered. -/
structure Source where
  arrivals : List Arrival
  reads : Nat := 0
  largest : Nat := 0
  deriving DecidableEq, Repr

/-- What one read gives; no bytes stand for the end of the stream. -/
inductive Reading where
  | data (bytes : Bytes)
  | interrupted
  | failed (message : String)
  deriving DecidableEq, Repr

namespace Source

def ofBytes (bytes : Bytes) : Source := { arrivals := [.data bytes] }

def volume : List Arrival → Nat
  | [] => 0
  | a :: rest => a.size + volume rest

def unread (s : Source) : Nat := volume s.arrivals

/-- What a read with a buffer of some size takes off the script. Data that does not fit into the
buffer stays for the next read. -/
def take (size : Nat) : List Arrival → Reading × List Arrival
  | [] => (.data [], [])
  | .interrupt :: rest => (.interrupted, rest)
  | .failure message :: rest => (.failed message, rest)
  | .data bytes :: rest =>
    match bytes.drop size with
    | [] => (.data bytes, rest)
    | left => (.data (bytes.take size), .data left :: rest)

def read (size : Nat) (s : Source) : Reading × Source :=
  let (reading, arrivals) := take size s.arrivals
  (reading, ⟨arrivals, s.reads + 1, max s.largest size⟩)

/-- An upper bound of the number of reads until the stream ends. -/
def bound (s : Source) : Nat :=
  s.arrivals.length + s.unread + 1

/-- Assembles the data of at most `fuel` reads, and counts the reads that brought data. -/
def collect : Nat → Source → Except String (Bytes × Nat) × Source
  | 0, s => (.ok ([], 0), s)
  | fuel + 1, s =>
    match s.read chunkSize with
    | (.data [], s) => (.ok ([], 0), s)
    | (.data (b :: bytes), s) =>
      let (result, s) := collect fuel s
      (result.map fun (more, reads) => (b :: bytes ++ more, reads + 1), s)
    | (.interrupted, s) => collect fuel s
    | (.failed message, s) => (.error message, s)

/-- Reads to the end of the stream. Interrupted reads are tried again; a failure leaves nothing. -/
def readAll (s : Source) : Except String (Bytes × Nat) × Source :=
  s.collect s.bound

end Source

end AdmissionGuest
