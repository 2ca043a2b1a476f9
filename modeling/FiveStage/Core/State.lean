/-
  FiveStage.Core.State
  ────────────────────
  **THE STATE OF THE CORE.**

  `Platform` is what the core is wired to and set up with; nothing in it
  changes while the core runs.  `Core` is everything that does.  A stage of
  the pipeline reads the latches of a core and answers a `StageResult`: what
  it found out, the core with the stage's own effects, and the events.  The
  latches of that core are still the old ones; the cycle replaces all four at
  once.
-/
import FiveStage.Counters
import FiveStage.Event
import FiveStage.Memory.Ram
import FiveStage.Memory.Rom
import FiveStage.Registers

namespace FiveStage

/-! ## §1. Platform. -/

/-- What the core is wired to and set up with. -/
structure Platform where
  /-- Program memory. -/
  program : ProgramMemory
  /-- What happens to misaligned loads and stores. -/
  misaligned : AlignmentPolicy
  /-- PC after reset. -/
  resetVector : Word
  /-- The interrupt controller. -/
  interrupts : InterruptSettings
  /-- Log a diagram of the pipeline after every cycle. -/
  traceInstructions : Bool
  deriving Repr, DecidableEq

/-- The platform that runs a program under these settings. -/
def Platform.ofSettings (s : Settings) (program : ProgramMemory) : Platform where
  program := program
  misaligned := s.memory.misaligned
  resetVector := s.general.resetVector
  interrupts := s.interrupts
  traceInstructions := s.general.traceInstructions

/-! ## §2. Records kept for inspection. -/

/-- A word that decode found to be no instruction. -/
structure AnomalyRecord where
  /-- Cycles elapsed before the cycle of the decoding. -/
  cycle : Nat
  /-- Number of the instruction. -/
  id : Nat
  /-- Its address. -/
  pc : Word
  /-- Why it is no instruction. -/
  anomaly : Anomaly
  deriving Repr, DecidableEq

/-- A memory access that was suppressed. -/
structure FaultRecord where
  /-- Cycles elapsed before the cycle of the access. -/
  cycle : Nat
  /-- Number of the instruction, zero for a fetch. -/
  id : Nat
  /-- Address of the instruction. -/
  pc : Word
  /-- The fault. -/
  fault : Fault
  deriving Repr, DecidableEq

/-- The instruction that writeback retired in a cycle. -/
structure Retirement where
  /-- Number of the instruction. -/
  id : Nat
  /-- Its address. -/
  pc : Word
  /-- The register written and its value, if one was. -/
  write : Option (Nat × Word)
  deriving Repr, DecidableEq

/-- Number of records kept of each kind. -/
def recordLimit : Nat := 64

/-- Keep a record, unless the log is full. -/
def keepRecord {α : Type} (log : List α) (record : α) : List α :=
  if log.length < recordLimit then log ++ [record] else log

/-! ## §3. The core. -/

/-- The state of the core. -/
structure Core where
  /-- Where fetch reads next. -/
  pc : Word
  /-- Registers. -/
  regs : Registers
  /-- Pipeline latches. -/
  latches : Latches
  /-- Data memory. -/
  dmem : Ram
  /-- Trap unit. -/
  traps : TrapUnit
  /-- A halt has reached execute; nothing is fetched any more. -/
  halted : Bool
  /-- Counters. -/
  counters : Counters
  /-- Number given to the instruction fetched last. -/
  lastId : Nat
  /-- The address at which fetch last reported a fault, until a reset or an
  interrupt makes it forget. -/
  reportedFetch : Option Word
  /-- The instruction retired in the last cycle. -/
  lastRetired : Option Retirement
  /-- The first anomalies, the oldest first. -/
  anomalies : List AnomalyRecord
  /-- The first faults, the oldest first. -/
  faults : List FaultRecord

namespace Core

/-- A core before its first cycle. -/
def initial (p : Platform) (dmem : Ram) : Core where
  pc := p.resetVector
  regs := .zero
  latches := .empty
  dmem := dmem
  traps := .atReset p.interrupts
  halted := false
  counters := {}
  lastId := 0
  reportedFetch := none
  lastRetired := none
  anomalies := []
  faults := []

/-- Every latch holds a bubble. -/
def drained (c : Core) : Bool :=
  c.latches.isEmpty

/-- The core has halted and everything older than the halt has retired. -/
def finished (c : Core) : Bool :=
  c.halted && c.drained

/-- What can be seen of the pipeline now. -/
def snapshot (c : Core) : Snapshot :=
  .ofLatches c.counters.cycles c.pc c.halted c.latches

/-- Count an anomaly, and keep it. -/
def noteAnomaly (c : Core) (e : InFlight) (anomaly : Anomaly) : Core :=
  { c with
    counters.anomalies := c.counters.anomalies + 1
    anomalies := keepRecord c.anomalies ⟨c.counters.cycles, e.id, e.pc, anomaly⟩ }

/-- Count a fault, and keep it. -/
def noteFault (c : Core) (id : Nat) (pc : Word) (fault : Fault) : Core :=
  { c with
    counters.faults := c.counters.faults + 1
    faults := keepRecord c.faults ⟨c.counters.cycles, id, pc, fault⟩ }

end Core

/-- What a stage answers. -/
structure StageResult (α : Type) where
  /-- What the stage found out. -/
  out : α
  /-- The core after the stage's own effects; its latches are the old ones. -/
  core : Core
  /-- What the stage has to tell. -/
  events : List Event := []

end FiveStage
