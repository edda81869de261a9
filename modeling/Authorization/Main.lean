import Authorization.CommandLine.Run
import Std.Time.DateTime.Timestamp
import Std.Time.Format

/-!
# The program

Reads the configuration file, begins a log if one is asked for, runs the command and prints its
lines. Output to a terminal is styled unless the environment forbids it.
-/

namespace Authorization.CommandLine

/-- Whether output is styled: on a terminal, and where nobody asked for plain text. -/
def isStyled : IO Bool := do
  let terminal ← (← IO.getStdout).isTty
  let forbidden := (← IO.getEnv "NO_COLOR").isSome
  pure (terminal && !forbidden)

def readText? (path : String) : IO (Option String) := do
  try
    pure (some (← IO.FS.readFile path))
  catch _ => pure none

/-- The text of the configuration file that the arguments name, if they name a readable one. -/
def configurationText? (arguments : List String) : IO (Option String) :=
  match readInvocation arguments with
  | .ok invocation => readText? invocation.config
  | .error _ => pure none

/-- Why an action on files failed. -/
def reason : IO.Error → String
  | .alreadyExists .. => FileFault.taken.message
  | .inappropriateType .. => FileFault.notDirectory.message
  | .noFileOrDirectory .. => FileFault.missing.message
  | fault => toString fault

/-- The day, by universal time. -/
def today : IO String := do
  let now ← Std.Time.Timestamp.now
  pure (Std.Time.PlainDate.ofEpochDay now.toDaysSinceUnixEpoch).toSQLDateString

/-- Opens today's log file in a directory, so that a later run appends to it. -/
def openLog (path : String) : IO (Except LogFault Unit) := do
  try
    let _ ← IO.FS.Handle.mk (WorkingDirectory.logPath path (← today)) .append
    pure (.ok ())
  catch fault => pure (.error (.file (reason fault)))

/-- Begins the log of the day in a directory, which is made if need be. -/
def beginLog (path : String) : IO (Except LogFault Unit) := do
  try
    unless path.isEmpty do IO.FS.createDirAll path
    openLog path
  catch fault => pure (.error (.directory (reason fault)))

/-- Writes what the program does and gives its exit code. -/
def report (outcome : Outcome) : IO UInt32 := do
  for line in outcome.lines do
    IO.println line
  if let some error := outcome.error then
    IO.eprintln error
  pure (UInt32.ofNat outcome.code)

/-- Runs the program and gives its exit code. -/
def start (arguments : List String) : IO UInt32 := do
  let text ← configurationText? arguments
  match prepare (fun _ => text) arguments with
  | .error outcome => report outcome
  | .ok job =>
    let begun ← match job.config.logging.directory with
      | some path => beginLog path
      | none => pure (.ok ())
    report (job.finish (← isStyled) begun)

end Authorization.CommandLine

/-- Runs the program. -/
def main (arguments : List String) : IO UInt32 := Authorization.CommandLine.start arguments
