import AdmissionGuest.Program
/-!
The command line of the probe policy. Standard input is read only if the action is known.
-/

namespace AdmissionGuest

/-- Reads a stream to its end. -/
partial def readToEnd (stream : IO.FS.Stream) (got : ByteArray) : IO ByteArray := do
  let chunk ← stream.read chunkSize.toUSize
  if chunk.isEmpty then return got else readToEnd stream (got ++ chunk)

end AdmissionGuest

open AdmissionGuest in
/-- Runs the program on the arguments and streams of the process. -/
def main (arguments : List String) : IO UInt32 := do
  let level ← IO.getEnv Config.logVariable
  let expiry ← IO.getEnv Config.expiryVariable
  let environment (key : String) : Option String :=
    if key = Config.logVariable then level
    else if key = Config.expiryVariable then expiry
    else none
  let known := (PolicyAction.ofText (arguments.headD "")).isOk
  let input ← if known then readToEnd (← IO.getStdin) ByteArray.empty else pure ByteArray.empty
  let outcome := Program.run arguments environment (.ofBytes input.toList) {}
  for line in outcome.log do
    IO.eprintln line
  let output ← IO.getStdout
  try
    output.write ⟨outcome.output.data.toArray⟩
    output.flush
    return outcome.exitCode.toUInt32
  catch e =>
    IO.eprintln ("error: " ++ (Error.stream (toString e)).message)
    return 1
