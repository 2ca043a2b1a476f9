/-
  FiveStage.Core.BackEnd
  ──────────────────────
  **MEMORY ACCESS AND WRITEBACK.**

  The memory stage performs loads and stores through the load/store unit.  A
  faulting access is suppressed and recorded: a store leaves memory as it
  was, a load goes on without writing its destination.  Writeback commits the
  value to the register file and retires the instruction.
-/
import FiveStage.Core.State
import FiveStage.LoadStore

namespace FiveStage.Core

/-! ## §1. Memory. -/

/-- The instruction as it leaves the memory stage with this value. -/
def accessed (e : ExMem) (value : Word) : MemWb :=
  { e with value := value, fault := none }

/-- A load whose access was suppressed. -/
def suppressedLoad (e : ExMem) (fault : Fault) : MemWb :=
  { e with control.rdValid := false, value := 0, fault := some fault }

/-- A store whose access was suppressed. -/
def suppressedStore (e : ExMem) (fault : Fault) : MemWb :=
  { e with value := e.result, fault := some fault }

/-- Memory access: the next contents of MEM/WB. -/
def access (p : Platform) (c : Core) : StageResult (Option MemWb) :=
  match c.latches.exMem with
  | none => { out := none, core := c }
  | some e =>
      match e.control.cls with
      | .load =>
          let load : Transaction Ram Word :=
            LoadStore.load p.misaligned e.result e.control.width e.control.signedLoad
          match load.perform c.dmem with
          | (.ok v, dmem) =>
              { out := some (accessed e v), core := { c with dmem }, events := [.loaded e v] }
          | (.error fault, dmem) =>
              { out := some (suppressedLoad e fault)
                core := { c with dmem }.noteFault e.id e.pc fault
                events := [.loadSuppressed e fault] }
      | .store =>
          let store : Transaction Ram Unit :=
            LoadStore.store p.misaligned e.result e.control.width e.storeData
          match store.perform c.dmem with
          | (.ok _, dmem) =>
              { out := some (accessed e e.result), core := { c with dmem }
                events := [.stored e] }
          | (.error fault, dmem) =>
              { out := some (suppressedStore e fault)
                core := { c with dmem }.noteFault e.id e.pc fault
                events := [.storeSuppressed e fault] }
      | .regReg | .regImm | .lui | .auipc | .jal | .jalr =>
          { out := some (accessed e e.result), core := c }
      | .branch | .halt | .mret | .illegal =>
          { out := some (accessed e 0), core := c }

/-! ## §2. Writeback. -/

/-- The register write of an instruction in MEM/WB, if it performs one. -/
def registerWrite? (e : MemWb) : Option (Nat × Word) :=
  if e.control.rdValid && Registers.writable e.control.rd then
    some (e.control.rd, e.value)
  else none

/-- Perform a register write, if there is one. -/
def applyWrite (regs : Registers) : Option (Nat × Word) → Registers
  | none => regs
  | some (rd, v) => regs.write rd v

/-- Writeback: the instruction retired. -/
def writeback (c : Core) : StageResult (Option Retirement) :=
  match c.latches.memWb with
  | none => { out := none, core := c }
  | some e =>
      let write := registerWrite? e
      { out := some ⟨e.id, e.pc, write⟩
        core :=
          { c with
            regs := applyWrite c.regs write
            counters := c.counters.retire e.control.cls }
        events := write.toList.map fun (rd, v) => .written e.toInFlight rd v }

end FiveStage.Core
