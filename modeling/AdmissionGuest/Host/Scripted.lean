import AdmissionGuest.Host.Basic
/-!
A host that plays back queued replies, the oldest first, and keeps every call.
-/

namespace AdmissionGuest

/-- A call that a host received. -/
structure RecordedCall where
  address : Address
  payload : Bytes
  deriving DecidableEq, Repr

def RecordedCall.payloadValue (call : RecordedCall) : Except Error Value :=
  decode call.payload

/-- A reply in the queue: the flag, and the bytes. -/
structure Reply where
  successful : Bool
  body : Bytes
  deriving DecidableEq, Repr

namespace Reply

/-- A reply of success that is the document of a value. -/
def ofValue (v : Value) : Reply := ⟨true, v.json.write⟩

/-- The reply to a call that none was queued for. -/
def missing (address : Address) : Reply :=
  ⟨false, Utf8.encode ("no scripted reply for " ++ address.shown)⟩

end Reply

/-- The state of a scripted host. -/
structure ScriptedHost where
  replies : List Reply
  /-- the calls so far, the oldest first -/
  calls : List RecordedCall := []
  /-- the body of the reply to the latest call, until it is read -/
  pending : Option Bytes := none
  deriving DecidableEq, Repr

namespace ScriptedHost

def queue (h : ScriptedHost) (reply : Reply) : ScriptedHost :=
  { h with replies := h.replies ++ [reply] }

def remaining (h : ScriptedHost) : Nat := h.replies.length

/-- Receives a call: the oldest reply answers it. -/
def receive (address : Address) (payload : Bytes) (h : ScriptedHost) : Bool × ScriptedHost :=
  let calls := h.calls ++ [⟨address, payload⟩]
  match h.replies with
  | reply :: replies => (reply.successful, ⟨replies, calls, some reply.body⟩)
  | [] =>
    let reply := Reply.missing address
    (reply.successful, ⟨[], calls, some reply.body⟩)

def release (h : ScriptedHost) : Bytes × ScriptedHost :=
  (h.pending.getD [], { h with pending := none })

end ScriptedHost

instance : Host ScriptedHost where
  call address payload s :=
    let (flag, host) := s.host.receive address payload
    (flag, { s with host })
  reply := modifyGet fun s =>
    let (body, host) := s.host.release
    (body, { s with host })

end AdmissionGuest
