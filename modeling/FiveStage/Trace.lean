/-
  FiveStage.Trace
  ───────────────
  **THE JSON TRACE OF A RUN.**

  A trace document holds how a run ended, the registers and counters at its
  end, and a snapshot of the pipeline before the first cycle and after each.
-/
import FiveStage.Json.Basic
import FiveStage.Simulator

namespace FiveStage

open Json

/-! ## §1. Parts. -/

/-- A word as a number. -/
def Word.toJson (w : Word) : Json :=
  nat w.toNat

/-- A latch as it is seen in a snapshot. -/
def occupantJson (o : Option Occupant) : Json :=
  record
    [("id", optional (o.map fun o => nat o.id)),
      ("pc", optional (o.map fun o => Word.toJson o.pc)),
      ("rd", nat (o.elim 0 (·.rd))),
      ("rd_valid", bool (o.elim false (·.rdValid))),
      ("bubble", bool o.isNone)]

/-- A snapshot. -/
def Snapshot.toJson (s : Snapshot) : Json :=
  record
    [("cycle", nat s.cycle),
      ("pc", Word.toJson s.pc),
      ("halted", bool s.halted),
      ("if_id", occupantJson s.ifId),
      ("id_ex", occupantJson s.idEx),
      ("ex_mem", occupantJson s.exMem),
      ("mem_wb", occupantJson s.memWb)]

/-- Counters by name. -/
def Counters.toJson (k : Counters) : Json :=
  record (k.named.map fun (name, n) => (name, nat n))

/-- All registers, `x0` first. -/
def Registers.toJson (regs : Registers) : Json :=
  array (regs.toList.map Word.toJson)

/-! ## §2. The document. -/

/-- The name of an outcome in a trace. -/
def Outcome.label : Outcome → String
  | halted _ => "halted"
  | cycleLimit _ => "cycle_limit"

/-- The trace of a run that ended in this simulator. -/
def Simulator.traceJson (sim : Simulator) (snapshots : List Snapshot) : Json :=
  record
    [("outcome", text sim.outcome.label),
      ("cycles", nat sim.core.counters.cycles),
      ("registers", sim.core.regs.toJson),
      ("stats", sim.core.counters.toJson),
      ("snapshots", array (snapshots.map Snapshot.toJson))]

end FiveStage
