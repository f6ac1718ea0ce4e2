import AdmissionGuest.Guest
/-!
Calling the host. A call names a capability and carries bytes; the host answers with a flag and,
on its channel, with one reply. The reply is read whatever the flag is: the flag only tells whether
it is the answer or the text of an error.
-/

namespace AdmissionGuest

/-- A host that can be called, and its reply channel. -/
class Host (η : Type) where
  /-- makes a call and gives the host's flag -/
  call : Address → Bytes → Session η → Bool × Session η
  /-- reads the reply to the latest call -/
  reply : Guest η Bytes

/-- Calls a capability: the reply if the host reports success, otherwise an error with the reply as
text. -/
def invoke {η : Type} [Host η] (address : Address) (payload : Bytes) : Guest η Bytes := do
  modify (Session.record (.callMade address payload.length))
  let successful ← modifyGet (Host.call address payload)
  let reply ← Host.reply
  if successful then
    modify (Session.record (.callSucceeded address reply.length))
    return reply
  else
    let message := Utf8.decodeLossy reply
    modify (Session.record (.callFailed address message))
    throw (.hostCall address.shown message)

end AdmissionGuest
