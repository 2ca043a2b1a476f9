/-
  FiveStage.Pipeline.Snapshot
  ───────────────────────────
  **WHAT CAN BE SEEN OF THE PIPELINE.**

  A snapshot shows, between two cycles, which instruction sits in which latch
  and what it will write.  It is the unit of the JSON trace, and its text is
  one line of the pipeline diagram:

      c12     pc=0x00000030 | IF/ID #12 | ID/EX   --   | EX/MEM #11 | MEM/WB #10
-/
import FiveStage.Pipeline.Latch

namespace FiveStage

/-- What can be seen of an instruction in a latch. -/
structure Occupant where
  /-- Number given at fetch. -/
  id : Nat
  /-- Its address. -/
  pc : Word
  /-- Number of its destination register. -/
  rd : Nat
  /-- The destination will be written. -/
  rdValid : Bool
  deriving Repr, DecidableEq

/-- An instruction as seen through the control signals it has. -/
def InFlight.occupant (e : InFlight) (k : Control) : Occupant :=
  ⟨e.id, e.pc, k.rd, k.rdValid⟩

/-- The pipeline between two cycles; `none` is a bubble. -/
structure Snapshot where
  /-- Cycles elapsed. -/
  cycle : Nat
  /-- Where fetch reads next. -/
  pc : Word
  /-- The core has executed a halt. -/
  halted : Bool
  /-- Fetch to decode. -/
  ifId : Option Occupant
  /-- Decode to execute. -/
  idEx : Option Occupant
  /-- Execute to memory. -/
  exMem : Option Occupant
  /-- Memory to writeback. -/
  memWb : Option Occupant
  deriving Repr, DecidableEq

namespace Snapshot

/-- The snapshot of these latches.  The instruction in IF/ID has no control
signals yet; it is seen through those that decode will give it. -/
def ofLatches (cycle : Nat) (pc : Word) (halted : Bool) (l : Latches) : Snapshot where
  cycle := cycle
  pc := pc
  halted := halted
  ifId := l.ifId.map fun e => e.occupant (Control.ofWord e.inst)
  idEx := l.idEx.map fun e => e.toInFlight.occupant e.control
  exMem := l.exMem.map fun e => e.toInFlight.occupant e.control
  memWb := l.memWb.map fun e => e.toInFlight.occupant e.control

/-- The four latches, the youngest first. -/
def latches (s : Snapshot) : List (Option Occupant) :=
  [s.ifId, s.idEx, s.exMem, s.memWb]

/-- A latch in the diagram: the number of its instruction, or dashes. -/
def cell (o : Option Occupant) : String :=
  o.elim "  --  " fun o => idText o.id

/-- One line of the pipeline diagram. -/
def diagram (s : Snapshot) : String :=
  "c" ++ padRight 6 (toString s.cycle) ++ " pc=" ++ s.pc.hex8
    ++ " | IF/ID " ++ cell s.ifId ++ " | ID/EX " ++ cell s.idEx
    ++ " | EX/MEM " ++ cell s.exMem ++ " | MEM/WB " ++ cell s.memWb
    ++ (if s.halted then " | HALTED" else "")

end Snapshot

end FiveStage
