import AdmissionGuest.Log.Level
/-!
What can be set from outside: how much is logged, and how a certificate request without a deadline
is sent. A value that is not understood is reported and otherwise ignored.
-/

namespace AdmissionGuest

/-- How a certificate request says that there is no deadline: hosts take a missing member, or a
member with an empty text. -/
inductive ExpiryEncoding where
  | omitted
  | emptyText
  deriving DecidableEq, Repr

namespace ExpiryEncoding

/-- The encoding that a text names, in any ASCII case and with blanks around it; otherwise the
message says what was not known. -/
def ofText (text : String) : Except String ExpiryEncoding :=
  let name := Text.asciiLower (Text.trim text)
  if name = "omit" then .ok omitted
  else if name = "empty" ∨ name = "empty-string" then .ok emptyText
  else .error ("unknown expiry encoding: " ++ name)

def name : ExpiryEncoding → String
  | omitted => "omit"
  | emptyText => "empty"

end ExpiryEncoding

/-- The configuration of a guest. -/
structure Config where
  logLevel : Level := .info
  expiry : ExpiryEncoding := .omitted
  deriving DecidableEq, Repr

namespace Config

def logVariable : String := "KUBEBRIDGE_LOG"

/-- The variable that sets how a missing deadline is sent. -/
def expiryVariable : String := "KUBEBRIDGE_NOT_AFTER"

/-- What is said about a value that is not understood. The value is quoted as it was given. -/
def ignoring (key value reason : String) : String :=
  "ignoring " ++ key ++ "=" ++ value ++ ": " ++ reason

/-- The log level that a value sets, or what is said about it. -/
def readLevel (value : String) : Except String Level :=
  match Level.ofText? (Text.trim value) with
  | some level => .ok level
  | none => .error (ignoring logVariable value "unknown log level")

/-- The expiry encoding that a value sets, or what is said about it. -/
def readExpiry (value : String) : Except String ExpiryEncoding :=
  (ExpiryEncoding.ofText value).mapError (ignoring expiryVariable value)

/-- What a variable sets: the default if it is not given or not understood, and in the second case a
message. -/
def setting {α : Type} (default : α) (read : String → Except String α) :
    Option String → α × List String
  | none => (default, [])
  | some value =>
    match read value with
    | .ok a => (a, [])
    | .error message => (default, [message])

/-- The configuration that variables set, and a message for each value that was ignored. -/
def ofLookup (lookup : String → Option String) : Config × List String :=
  let (logLevel, first) := setting .info readLevel (lookup logVariable)
  let (expiry, second) := setting .omitted readExpiry (lookup expiryVariable)
  ({ logLevel, expiry }, first ++ second)

end Config

end AdmissionGuest
