import AdmissionGuest.Text.Blank
/-!
How much is logged. A level is chosen by its name or by a number.
-/

namespace AdmissionGuest

/-- How important an event is, the most important first. -/
inductive Level where
  | error
  | warn
  | info
  | debug
  | trace
  deriving DecidableEq, Repr

namespace Level

def all : List Level := [error, warn, info, debug, trace]

def name : Level → String
  | error => "ERROR"
  | warn => "WARN"
  | info => "INFO"
  | debug => "DEBUG"
  | trace => "TRACE"

def rank : Level → Nat
  | error => 1
  | warn => 2
  | info => 3
  | debug => 4
  | trace => 5

/-- Whether a log at this level records events of another level. -/
def records (limit level : Level) : Bool :=
  level.rank ≤ limit.rank

/-- The value of a decimal numeral: digits, at least one, after an optional plus. -/
def numeral? (text : String) : Option Nat :=
  let digits := match text.toList with
    | '+' :: rest => rest
    | cs => cs
  if digits ≠ [] ∧ digits.all Char.isDigit then
    some (digits.foldl (fun n c => n * 10 + (c.toNat - '0'.toNat)) 0)
  else
    none

/-- The level that a text names, in any ASCII case, or numbers. -/
def ofText? (text : String) : Option Level :=
  let number := numeral? text
  let name := Text.asciiLower text
  all.find? fun level => number == some level.rank || name == Text.asciiLower level.name

end Level

end AdmissionGuest
