import AdmissionGuest.Host.Detached
import AdmissionGuest.Probe.Policy
/-!
The program that runs the probe policy without a host, as a function from its arguments, its
environment and its input to its output, its log and its exit code.
-/

namespace AdmissionGuest.Program

/-- What the program leaves behind. -/
structure Outcome where
  output : Sink
  /-- the lines on standard error -/
  log : List String
  exitCode : Nat

/-- The lines of a text that is written with a line feed after it. Each line ends at a line feed,
and a carriage return before that belongs to the end of the line. -/
def lines (text : String) : List String :=
  (text.splitOn "\n").map fun line =>
    if line.endsWith "\r" then (line.dropEnd 1).toString else line

/-- The lines that a log at some level shows of events. -/
def logLines (limit : Level) (log : List Event) : List String :=
  (log.filter fun event => limit.records event.level).flatMap fun event => lines event.line

/-- Runs the program. A missing action is an unknown one; values of the environment that are ignored
are logged first. -/
def run (arguments : List String) (environment : String → Option String) (input : Source)
    (output : Sink) : Outcome :=
  let (config, ignored) := Config.ofLookup environment
  let session : Session DetachedHost := ⟨input, {}, ignored.map .settingIgnored⟩
  let outcome := (Probe.policy config).run (arguments.headD "") session output
  let log := logLines config.logLevel outcome.session.log
  match outcome.result with
  | .ok () => ⟨outcome.output, log, 0⟩
  | .error e => ⟨outcome.output, log ++ lines ("error: " ++ e.message), 1⟩

end AdmissionGuest.Program
