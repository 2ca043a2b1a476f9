/-
  FiveStage.CommandLine
  ─────────────────────
  **THE COMMAND `run`.**

  The command reads an image and perhaps settings, runs the program, prints
  the registers and the statistics, and may write a JSON trace.  Here is all
  of it but the files and the terminal: what the arguments mean, and what is
  printed.  The exit code is 0 if the program halted, 2 if the cycle budget
  was spent or the arguments were refused, and 1 if a file was of no use; it
  is 101 if checking the settings overflowed.
-/
import FiveStage.Report
import FiveStage.Trace

namespace FiveStage.CommandLine

/-! ## §1. Arguments. -/

/-- The options of the command. -/
inductive OptionName where
  /-- Program image. -/
  | file
  /-- Settings. -/
  | config
  /-- Cycle budget. -/
  | cycles
  /-- Log every step. -/
  | trace
  /-- Where to write the JSON trace. -/
  | jsonTrace
  /-- A section of the statistics. -/
  | stats
  deriving Repr, DecidableEq

namespace OptionName

/-- The option of a long name. -/
def ofLong? (name : String) : Option OptionName :=
  [("file", file), ("config", config), ("cycles", cycles), ("trace", trace),
    ("json-trace", jsonTrace), ("stats", stats)].lookup name

/-- The option of a short name. -/
def ofShort? (c : Char) : Option OptionName :=
  [('f', file), ('c', config)].lookup c

/-- The option is followed by a value. -/
def takesValue (o : OptionName) : Bool :=
  o != trace

/-- The option may be given more than once. -/
def repeatable (o : OptionName) : Bool :=
  o == stats

end OptionName

/-- An argument by itself. -/
inductive Argument where
  /-- A whole option, its value empty if it takes none. -/
  | complete (o : OptionName) (value : String)
  /-- An option whose value is the next argument. -/
  | open (o : OptionName)
  deriving Repr, DecidableEq

/-- An option with what is attached to it, if anything is. -/
def Argument.attach? (o : OptionName) (value : Option (List Char)) : Option Argument :=
  match o.takesValue, value with
  | true, some v => some (.complete o (String.ofList v))
  | true, none => some (.open o)
  | false, none => some (.complete o "")
  | false, some _ => none

/-- Read one argument: `--name`, `--name=value`, `-n`, `-nvalue`, `-n=value`. -/
def Argument.read? (arg : List Char) : Option Argument :=
  match arg with
  | '-' :: '-' :: cs =>
      let name := cs.takeWhile (· != '=')
      let value := (cs.dropWhile (· != '=')).tail?
      (OptionName.ofLong? (String.ofList name)).bind (attach? · value)
  | '-' :: c :: cs =>
      let value := match cs with
        | [] => none
        | '=' :: v => some v
        | v => some v
      (OptionName.ofShort? c).bind (attach? · value)
  | _ => none

/-- A value does not begin with a dash, unless it is one. -/
def isValue (arg : String) : Bool :=
  arg == "-" || arg.toList.head? != some '-'

/-- The options given, in order, each with its value. -/
def givenOptions? : List String → Option (List (OptionName × String))
  | [] => some []
  | arg :: rest =>
      match Argument.read? arg.toList, rest with
      | none, _ => none
      | some (.complete o v), rest => (givenOptions? rest).map ((o, v) :: ·)
      | some (.open _), [] => none
      | some (.open o), v :: rest =>
          if isValue v then (givenOptions? rest).map ((o, v) :: ·) else none

/-- What a run is asked to do. -/
structure Request where
  /-- Path of the program image. -/
  file : String
  /-- Path of the settings. -/
  config : Option String := none
  /-- Cycle budget, in place of the one in the settings. -/
  cycles : Option UInt64 := none
  /-- Log every step. -/
  trace : Bool := false
  /-- Path of the JSON trace to write. -/
  jsonTrace : Option String := none
  /-- Names of the sections of the statistics to print. -/
  stats : List String := []
  deriving Repr, DecidableEq

/-- Read the arguments of the command; `none` if they are refused. -/
def Request.ofArguments? (args : List String) : Option Request := do
  let given ← givenOptions? args
  let values (o : OptionName) : List String := (given.filter (·.1 == o)).map (·.2)
  let once (o : OptionName) : Bool := o.repeatable || (values o).length ≤ 1
  guard (given.all (once ·.1))
  let path? (o : OptionName) : Option (Option String) :=
    match (values o).head? with
    | none => some none
    | some p => if p.isEmpty then none else some (some p)
  let file ← (← path? .file)
  let cycles ← match (values .cycles).head? with
    | none => some none
    | some s => (unsignedBits? 10 64 s.toList).map (some ·.toUInt64)
  guard ((values .stats).all sectionNames.contains)
  return { file
           config := ← path? .config
           cycles
           trace := !(values .trace).isEmpty
           jsonTrace := ← path? .jsonTrace
           stats := values .stats }

/-! ## §2. The run. -/

/-- A run that was performed. -/
structure Finished where
  /-- The simulator at the end of the run. -/
  simulator : Simulator
  /-- The JSON trace, if one was asked for. -/
  trace : Option Json
  /-- What happened, in order. -/
  events : List Event

/-- The settings a run is asked for: those of the file, with the budget and
the log of the arguments. -/
def Request.settings (r : Request) (config : Option ByteArray) :
    Checked (Except String Settings) := do
  let read ← match r.config with
    | none => pure (.ok {})
    | some _ => Settings.load config
  match read with
  | .error e => return .error e.message
  | .ok s =>
      return .ok { s with
        general.maxCycles := r.cycles.getD s.general.maxCycles
        general.traceInstructions := s.general.traceInstructions || r.trace }

/-- Perform the run, given the contents of the two files; what is wrong with
them otherwise.  Events are gathered if `log` says so. -/
def Request.perform (r : Request) (log : Event → Bool) (config image : Option ByteArray) :
    Checked (Except String Finished) := do
  match ← r.settings config with
  | .error message => return .error message
  | .ok s =>
      match ← Simulator.load s image with
      | .error e => return .error e.message
      | .ok (sim, loading) =>
          -- snapshots and events are gathered the latest first
          let observe := fun (seen, events) (c : Cycle) =>
            (if r.jsonTrace.isSome then c.core.snapshot :: seen else seen,
              (c.events.filter log).reverse ++ events)
          let (last, seen, events) := sim.runObserved observe ([], [])
          return .ok { simulator := last
                       trace := r.jsonTrace.map fun _ =>
                         last.traceJson (sim.core.snapshot :: seen.reverse)
                       events := loading.filter log ++ events.reverse }

namespace Finished

/-- How the run ended, as it is announced. -/
def headline : Outcome → String
  | .halted n => "[*] Halted after " ++ toString n ++ " cycles"
  | .cycleLimit n => "[!] Cycle limit reached after " ++ toString n ++ " cycles"

/-- What the command prints; `host` is the time the run took. -/
def output (f : Finished) (r : Request) (host : Option Nat) : String :=
  "\n" ++ headline f.simulator.outcome ++ "\n"
    ++ f.simulator.core.regs.dump ++ "\n"
    ++ f.simulator.core.counters.report host r.stats

/-- The exit code; a trace that was asked for but could not be written is a
failure. -/
def exitCode (f : Finished) (traceWritten : Bool) : UInt32 :=
  if f.trace.isSome && !traceWritten then 1
  else
    match f.simulator.outcome with
    | .halted _ => 0
    | .cycleLimit _ => 2

end Finished

/-- Exit code of arguments that are refused. -/
def refused : UInt32 := 2

/-- Exit code of files that are of no use. -/
def failed : UInt32 := 1

/-- Exit code of a program that an overflow has stopped. -/
def aborted : UInt32 := 101

end FiveStage.CommandLine
