import AdmissionGuest.Host.Basic
/-!
Capabilities of the host, by the type of their requests and answers. Every one is used the same way:
the request is written, the host is called once, and its reply is read as an answer.
-/

namespace AdmissionGuest

/-- A capability that answers requests of one type with values of another. -/
structure Capability (Request Response : Type) where
  address : Address

namespace Capability

variable {Request Response η : Type} [Host η]

/-- Sends a request, and gives the reply as it is. -/
def send [Named Request] [ToDocument Request] (c : Capability Request Response)
    (request : Request) : Guest η Bytes := do
  let payload ← MonadExcept.ofExcept (encode request)
  invoke c.address payload

def call [Named Request] [ToDocument Request] [Named Response] [OfDocument Response]
    (c : Capability Request Response) (request : Request) : Guest η Response := do
  let reply ← c.send request
  MonadExcept.ofExcept (decode reply)

end Capability

end AdmissionGuest
