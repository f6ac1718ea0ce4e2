import AdmissionGuest.Error
import AdmissionGuest.Host.Address
import AdmissionGuest.Log.Level
import AdmissionGuest.Text.Quoted
/-!
What a guest reports about its work. Each event has a level, a message and fields; standard output
belongs to the response, so events go to a log of their own, one line each.
-/

namespace AdmissionGuest

/-- A thing worth logging. -/
inductive Event where
  | documentRead (bytes reads : Nat)
  | documentWritten (bytes : Nat)
  | callMade (address : Address) (bytes : Nat)
  | callSucceeded (address : Address) (bytes : Nat)
  | callFailed (address : Address) (message : String)
  | hostUnavailable (address : Address) (message : String)
  /-- a manifest was told from an index by its media type -/
  | manifestClassified (image : String) (mediaType : Option String)
  /-- of a manifest or an index of that kind, only the media type is kept -/
  | manifestReduced (kind reason : String)
  | actionUnknown (message : String)
  | policyStarted (action : String)
  | validationFailed (error : Error)
  | settingsValidationFailed (error : Error)
  | probeStarted (scenario uid : String)
  | settingIgnored (message : String)
  deriving DecidableEq, Repr

namespace Event

def level : Event → Level
  | documentRead _ _ | documentWritten _ | callMade _ _ | callSucceeded _ _ => .debug
  | manifestClassified _ _ => .debug
  | policyStarted _ | probeStarted _ _ => .info
  | callFailed _ _ | hostUnavailable _ _ | manifestReduced _ _ | actionUnknown _ => .warn
  | validationFailed _ | settingsValidationFailed _ | settingIgnored _ => .warn

def message : Event → String
  | documentRead _ _ => "read input document"
  | documentWritten _ => "wrote output document"
  | callMade _ _ => "host call"
  | callSucceeded _ _ => "host call succeeded"
  | callFailed _ message => "host call failed: " ++ message
  | hostUnavailable _ message => message
  | manifestClassified _ _ => "classified manifest"
  | manifestReduced kind reason => "keeping media type only for image " ++ kind ++ ": " ++ reason
  | actionUnknown message => message
  | policyStarted _ => "running policy"
  | validationFailed error => "validation failed: " ++ error.message
  | settingsValidationFailed error => "settings validation failed: " ++ error.message
  | probeStarted _ _ => "running probe"
  | settingIgnored message => message

def shownOption : Option String → String
  | none => "None"
  | some text => "Some(" ++ Text.quoted text ++ ")"

def fields : Event → List (String × String)
  | documentRead bytes reads => [("bytes", toString bytes), ("reads", toString reads)]
  | documentWritten bytes => [("bytes", toString bytes)]
  | callMade address bytes => [("capability", address.shown), ("bytes", toString bytes)]
  | callSucceeded address bytes => [("capability", address.shown), ("bytes", toString bytes)]
  | callFailed address _ => [("capability", address.shown)]
  | hostUnavailable address _ => [("capability", address.shown)]
  | manifestClassified image mediaType =>
    [("image", Text.quoted image), ("media_type", shownOption mediaType)]
  | policyStarted action => [("action", action)]
  | probeStarted scenario uid => [("scenario", scenario), ("uid", uid)]
  | _ => []

/-- One character of a message. Characters that a terminal would act on are shown by their code; the
ends of lines, tabs and the remaining control characters are not among them. -/
def messageChar (c : Char) : List Char :=
  let n := c.toNat
  if n = 0x07 ∨ n = 0x08 ∨ n = 0x0C ∨ n = 0x1B ∨ n = 0x7F then
    ['\\', 'x'] ++ (if n < 0x10 then ['0'] else []) ++ Text.hexDigits n
  else if 0x80 ≤ n ∧ n ≤ 0x9F then Text.byCode c
  else [c]

def line (e : Event) : String :=
  let message := String.ofList (e.message.toList.flatMap messageChar)
  let fields := e.fields.map fun (name, value) => " " ++ name ++ "=" ++ value
  e.level.name ++ " " ++ message ++ String.join fields

end Event

end AdmissionGuest
