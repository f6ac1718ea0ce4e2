/-!
How a policy fails: an outgoing value has no document, an incoming document has the wrong form, the
host refuses a call, a stream fails, or the settings are not usable.
-/

namespace AdmissionGuest

/-- A failure of the guest. -/
inductive Error where
  /-- a value of the named type cannot be written -/
  | serialization (type reason : String)
  /-- a document is not one of the named type -/
  | decode (type reason : String)
  /-- the host failed the call of the named capability; the message is the host's own -/
  | hostCall (capability message : String)
  /-- a stream failed -/
  | stream (message : String)
  /-- the policy refuses its settings -/
  | invalidSettings (message : String)
  deriving DecidableEq, Repr

namespace Error

def message : Error → String
  | serialization type reason => "cannot serialize " ++ type ++ ": " ++ reason
  | decode type reason => "cannot decode " ++ type ++ ": " ++ reason
  | hostCall capability message => "host call " ++ capability ++ " failed: " ++ message
  | stream message => "I/O error: " ++ message
  | invalidSettings message => "invalid settings: " ++ message

def hostMessage? : Error → Option String
  | hostCall _ message => some message
  | _ => none

end Error

end AdmissionGuest
