/-!
What a guest is asked to do. The action is the first argument of the program.
-/

namespace AdmissionGuest

/-- What a guest is asked to do. -/
inductive PolicyAction where
  /-- judge a request -/
  | validate
  /-- judge settings -/
  | validateSettings
  deriving DecidableEq, Repr

namespace PolicyAction

def name : PolicyAction → String
  | validate => "validate"
  | validateSettings => "validate-settings"

def all : List PolicyAction := [validate, validateSettings]

/-- The action with exactly this name; otherwise the message says what was not known. -/
def ofText (text : String) : Except String PolicyAction :=
  match all.find? fun action => action.name == text with
  | some action => .ok action
  | none => .error ("unknown action: " ++ text)

/-- The message of the rejection that answers an unknown action. -/
def wrongInvocation : String := "wrong invocation"

end PolicyAction

end AdmissionGuest
