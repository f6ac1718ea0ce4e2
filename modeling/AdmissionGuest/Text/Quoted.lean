import AdmissionGuest.Text.Coded
/-!
Quoted text, the form in which error messages and log fields show a text they were given: between
double quotes, with a backslash before quotes and backslashes, and with every character that would
not print shown by its code.
-/

namespace AdmissionGuest.Text

/-- The digits of a number in base sixteen, lower case, at least one. -/
def hexDigits (n : Nat) : List Char :=
  Nat.toDigits 16 n

/-- A character by its code, as in `\u{e000}`. -/
def byCode (c : Char) : List Char :=
  ['\\', 'u', '\x7b'] ++ hexDigits c.toNat ++ ['\x7d']

def quotedChar (c : Char) : List Char :=
  if c = '\x00' then ['\\', '0']
  else if c = '\t' then ['\\', 't']
  else if c = '\r' then ['\\', 'r']
  else if c = '\n' then ['\\', 'n']
  else if c = '\\' then ['\\', '\\']
  else if c = '"' then ['\\', '"']
  else if isCoded c then byCode c
  else [c]

def quoted (text : String) : String :=
  String.ofList ('"' :: text.toList.flatMap quotedChar ++ ['"'])

end AdmissionGuest.Text
