/-
  FiveStage.Event
  ───────────────
  **THE EVENT LOG.**

  The machine tells what it does as a list of events.  An event has a level,
  a message, and named fields; the text of all three is fixed here, and the
  rest of the library only says what happened.
-/
import FiveStage.Isa.Assembly
import FiveStage.Pipeline.Bypass
import FiveStage.Pipeline.Snapshot
import FiveStage.Trap

namespace FiveStage

/-! ## §1. Levels. -/

/-- How important an event is. -/
inductive Level where
  /-- Every step of every stage. -/
  | trace
  /-- Stalls, redirects, diagrams. -/
  | debug
  /-- Milestones of a run. -/
  | info
  /-- Things a program should not do. -/
  | warn
  deriving Repr, DecidableEq

namespace Level

/-- Position in the order of importance. -/
def rank : Level → Nat
  | trace => 0
  | debug => 1
  | info => 2
  | warn => 3

/-- The level as it is written. -/
def text : Level → String
  | trace => "TRACE"
  | debug => "DEBUG"
  | info => "INFO"
  | warn => "WARN"

end Level

/-! ## §2. Events. -/

/-- Something the machine did. -/
inductive Event where
  /-- Fetch read an instruction. -/
  | fetched (e : InFlight)
  /-- Fetch could not read program memory. -/
  | fetchFailed (fault : Fault)
  /-- Decode waits for a load. -/
  | loadUseStall (e : InFlight)
  /-- Decode met a word that is no instruction. -/
  | notAnInstruction (e : InFlight) (anomaly : Anomaly)
  /-- Decode passed an instruction on. -/
  | decoded (e : IdEx)
  /-- Execute took operands from the bypass network. -/
  | forwarded (e : InFlight) (operands : Operands)
  /-- Execute met a halt. -/
  | haltReached (e : InFlight)
  /-- Execute returned from the interrupt handler. -/
  | handlerLeft (epc : Word)
  /-- Execute met a trap return with no handler active. -/
  | strayReturn (e : InFlight)
  /-- Execute redirected fetch. -/
  | redirected (e : InFlight) (target : Word)
  /-- Execute passed an instruction on. -/
  | executed (e : ExMem)
  /-- A load was performed. -/
  | loaded (e : ExMem) (value : Word)
  /-- A store was performed. -/
  | stored (e : ExMem)
  /-- A load was suppressed. -/
  | loadSuppressed (e : ExMem) (fault : Fault)
  /-- A store was suppressed. -/
  | storeSuppressed (e : ExMem) (fault : Fault)
  /-- Writeback wrote a register. -/
  | written (e : InFlight) (rd : Nat) (value : Word)
  /-- The core was reset. -/
  | reset (vector : Word)
  /-- An interrupt was taken. -/
  | interrupted (cause : InterruptCause) (epc vector : Word) (flushed : Nat)
  /-- The diagram of the pipeline after a cycle. -/
  | diagram (s : Snapshot)
  /-- A program image was read. -/
  | imageParsed (words : Nat)
  /-- A program was loaded from its image. -/
  | programLoaded (words : Nat)
  deriving Repr, DecidableEq

namespace Event

/-- The level of an event. -/
def level : Event → Level
  | fetched _ | decoded _ | forwarded _ _ | executed _ | loaded _ _ | stored _
  | written _ _ _ => .trace
  | loadUseStall _ | redirected _ _ | diagram _ | imageParsed _ => .debug
  | haltReached _ | handlerLeft _ | reset _ | interrupted _ _ _ _ | programLoaded _ => .info
  | fetchFailed _ | notAnInstruction _ _ | strayReturn _ | loadSuppressed _ _
  | storeSuppressed _ _ => .warn

/-- The number and address of an instruction, as stage messages begin. -/
def tag (e : InFlight) : String :=
  idText e.id ++ " pc=" ++ e.pc.hex ++ " "

/-- The message of an event. -/
def message : Event → String
  | fetched e => "IF  " ++ tag e ++ disassemble e.inst
  | fetchFailed _ => "instruction fetch failed; holding PC"
  | loadUseStall _ => "load-use stall"
  | notAnInstruction _ _ => "decode anomaly; instruction treated as a bubble"
  | decoded e =>
      "ID  " ++ tag e.toInFlight ++ padRight 24 (disassemble e.inst)
        ++ " rv1=" ++ e.rv1.hex ++ " rv2=" ++ e.rv2.hex
  | forwarded _ _ => "operands forwarded"
  | haltReached _ => "halt reached execute; fetch stopped"
  | handlerLeft _ => "returning from interrupt handler"
  | strayReturn _ => "mret outside an interrupt handler ignored"
  | redirected _ _ => "control transfer; flushing IF/ID"
  | executed e =>
      "EX  " ++ tag e.toInFlight ++ padRight 24 (disassemble e.inst)
        ++ " result=" ++ e.result.hex
  | loaded e value =>
      "MEM " ++ idText e.id ++ " load  [" ++ e.result.hex ++ "] -> " ++ value.hex
  | stored e =>
      "MEM " ++ idText e.id ++ " store [" ++ e.result.hex ++ "] <- " ++ e.storeData.hex
  | loadSuppressed _ _ => "load suppressed"
  | storeSuppressed _ _ => "store suppressed"
  | written e rd value => "WB  " ++ tag e ++ "x" ++ toString rd ++ " <= " ++ value.hex
  | reset _ => "reset"
  | interrupted _ _ _ _ => "interrupt taken"
  | diagram s => s.diagram
  | imageParsed _ => "parsed hex program image"
  | programLoaded _ => "program loaded"

/-- The fields naming an instruction. -/
def place (e : InFlight) : List (String × String) :=
  [("pc", e.pc.hex), ("id", idText e.id)]

/-- The named fields of an event, in order. -/
def fields : Event → List (String × String)
  | fetchFailed fault => [("fault", fault.message)]
  | loadUseStall e | haltReached e => place e
  | notAnInstruction e anomaly => place e ++ [("anomaly", anomaly.message)]
  | forwarded e o =>
      place e ++ [("rs1_src", o.rs1Source.text), ("rs2_src", o.rs2Source.text)]
  | handlerLeft epc => [("epc", epc.hex)]
  | strayReturn e => [("pc", e.pc.hex)]
  | redirected e target => [("pc", e.pc.hex), ("target", target.hex)]
  | loadSuppressed e fault | storeSuppressed e fault =>
      place e.toInFlight ++ [("f", fault.message)]
  | reset vector => [("vector", vector.hex)]
  | interrupted cause epc vector flushed =>
      [("cause", cause.text), ("epc", epc.hex), ("vector", vector.hex),
        ("flushed", toString flushed)]
  | imageParsed words | programLoaded words => [("words", toString words)]
  | fetched _ | decoded _ | executed _ | loaded _ _ | stored _ | written _ _ _ | diagram _ => []

/-- The event is at least as important as a level. -/
def atLeast (l : Level) (e : Event) : Bool :=
  l.rank ≤ e.level.rank

end Event

/-- What there is to tell about gathering the operands of an instruction. -/
def Operands.events (o : Operands) (e : InFlight) : List Event :=
  if o.bypassed then [.forwarded e o] else []

end FiveStage
