/-
  FiveStage.Main
  ──────────────
  **THE PROGRAM.**

      five-stage run -f program.hex [-c settings.json] [--cycles N] [--trace]
                     [--json-trace trace.json] [--stats SECTION]...

  Reads the files, performs the run, prints, and writes the trace.  The event
  log goes to the standard error.
-/
import FiveStage.CommandLine

namespace FiveStage.CommandLine

/-- How the program is called. -/
def usage : String :=
  "usage: five-stage run -f <FILE> [-c <FILE>] [--cycles <N>] [--trace] "
    ++ "[--json-trace <FILE>] [--stats <SECTION>]..."

/-- The bytes of a file, if it can be read. -/
def readFile? (path : String) : IO (Option ByteArray) := do
  try
    return some (← IO.FS.readBinFile path)
  catch _ =>
    return none

/-- Write a document; answers whether that succeeded. -/
def writeTrace (path : String) (document : Json) : IO Bool := do
  try
    IO.FS.writeFile path (document.pretty 0)
    return true
  catch e =>
    IO.eprintln ("failed to write trace: " ++ toString e)
    return false

/-- One line of the event log. -/
def logLine (e : Event) : String :=
  " ".intercalate
    ([e.level.text, e.message] ++ e.fields.map fun (name, value) => name ++ "=" ++ value)

/-- Perform the command `run`. -/
def runCommand (args : List String) : IO UInt32 := do
  match Request.ofArguments? args with
  | none =>
      IO.eprintln usage
      return refused
  | some r =>
      let config ← match r.config with
        | none => pure none
        | some path => readFile? path
      let image ← readFile? r.file
      let start ← IO.monoNanosNow
      match r.perform (Event.atLeast (if r.trace then .trace else .info)) config image with
      | .overflow =>
          IO.eprintln "attempt to add with overflow"
          return aborted
      | .value (.error message) =>
          IO.eprintln ("ERROR " ++ message)
          return failed
      | .value (.ok f) =>
          for e in f.events do
            IO.eprintln (logLine e)
          let stop ← IO.monoNanosNow
          IO.print (f.output r (some (stop - start)))
          let written ← match r.jsonTrace, f.trace with
            | some path, some document => writeTrace path document
            | _, _ => pure true
          return f.exitCode written

end FiveStage.CommandLine

/-- Run the program. -/
def main (args : List String) : IO UInt32 := do
  match args with
  | "run" :: rest => FiveStage.CommandLine.runCommand rest
  | _ =>
      IO.eprintln FiveStage.CommandLine.usage
      return FiveStage.CommandLine.refused
