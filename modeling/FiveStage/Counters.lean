/-
  FiveStage.Counters
  ──────────────────
  **PERFORMANCE COUNTERS.**

  Everything the core counts while it runs.  `Counters.named` lists the
  counters under the names they have in every document.
-/
import FiveStage.Isa.Control

namespace FiveStage

/-- The counters of a core. -/
structure Counters where
  /-- Cycles elapsed, cycles under reset included. -/
  cycles : Nat := 0
  /-- Instructions retired; words that are no instruction do not count. -/
  retired : Nat := 0
  /-- Arithmetic instructions retired. -/
  alu : Nat := 0
  /-- Loads retired. -/
  loads : Nat := 0
  /-- Stores retired. -/
  stores : Nat := 0
  /-- Branches and jumps retired. -/
  branches : Nat := 0
  /-- Halts and trap returns retired. -/
  system : Nat := 0
  /-- Cycles in which decode waited for a load. -/
  dataStalls : Nat := 0
  /-- Cycles in which execute redirected fetch. -/
  controlStalls : Nat := 0
  /-- Instructions discarded by redirects, halts and interrupts. -/
  flushed : Nat := 0
  /-- Conditional branches taken in execute. -/
  branchesTaken : Nat := 0
  /-- Operands that came from EX/MEM. -/
  forwardsExMem : Nat := 0
  /-- Operands that came from MEM/WB. -/
  forwardsMemWb : Nat := 0
  /-- Interrupts accepted. -/
  interrupts : Nat := 0
  /-- Words decoded that are no instruction. -/
  anomalies : Nat := 0
  /-- Memory faults recorded. -/
  faults : Nat := 0
  /-- Cycles in which fetch could not read program memory. -/
  fetchFaultCycles : Nat := 0
  deriving Repr, DecidableEq

namespace Counters

/-- The counters by name. -/
def named (k : Counters) : List (String × Nat) :=
  [("cycles", k.cycles),
    ("instructions_retired", k.retired),
    ("inst_alu", k.alu),
    ("inst_load", k.loads),
    ("inst_store", k.stores),
    ("inst_branch", k.branches),
    ("inst_system", k.system),
    ("stalls_data", k.dataStalls),
    ("stalls_control", k.controlStalls),
    ("flushed_instructions", k.flushed),
    ("branches_taken", k.branchesTaken),
    ("forwards_ex_mem", k.forwardsExMem),
    ("forwards_mem_wb", k.forwardsMemWb),
    ("interrupts_taken", k.interrupts),
    ("decode_anomalies", k.anomalies),
    ("memory_faults", k.faults),
    ("fetch_fault_cycles", k.fetchFaultCycles)]

/-- Count the retirement of an instruction of this class. -/
def retire (k : Counters) : InstrClass → Counters
  | .regReg | .regImm | .lui | .auipc => { k with alu := k.alu + 1, retired := k.retired + 1 }
  | .load => { k with loads := k.loads + 1, retired := k.retired + 1 }
  | .store => { k with stores := k.stores + 1, retired := k.retired + 1 }
  | .branch | .jal | .jalr =>
      { k with branches := k.branches + 1, retired := k.retired + 1 }
  | .halt | .mret => { k with system := k.system + 1, retired := k.retired + 1 }
  | .illegal => k

end Counters

end FiveStage
