/-
  FiveStage.Core.Compute
  ──────────────────────
  **EXECUTE.**

  Execute takes the operands from the bypass network, computes the result or
  the effective address, and resolves all control flow: branches, jumps, trap
  return and halt.  A transfer discards the instruction in IF/ID and the one
  being fetched, which are younger.
-/
import FiveStage.Core.State

namespace FiveStage

/-! ## §1. What an instruction computes. -/

namespace Control

/-- The link address of an instruction. -/
def link (pc : Word) : Word :=
  pc + instructionBytes

/-- The ALU result, the effective address, or the link address. -/
def result (k : Control) (pc : Word) (o : Operands) : Word :=
  match k.cls with
  | .regReg | .regImm | .lui | .auipc =>
      let a := match k.operandA with
        | .reg1 => o.rs1
        | .pc => pc
        | .zero => 0
      let b := match k.operandB with
        | .imm => k.imm
        | .reg2 => o.rs2
      Alu.eval k.alu a b
  | .load | .store => o.rs1 + k.imm
  | .jal | .jalr => link pc
  | .branch | .halt | .mret | .illegal => 0

/-- The instruction is a conditional branch whose condition holds. -/
def branchTaken (k : Control) (o : Operands) : Bool :=
  k.cls == .branch && k.branch.any fun c => c.holds o.rs1 o.rs2

end Control

/-- What execute asks of fetch. -/
inductive Transfer where
  /-- Go on fetching at the target. -/
  | redirect (target : Word)
  /-- Stop fetching, with the PC after the halt. -/
  | halt (resume : Word)
  deriving Repr, DecidableEq

/-- The transfer an instruction asks for; a trap return asks for one only if
a handler is active. -/
def Control.transfer? (k : Control) (pc : Word) (o : Operands) (traps : TrapUnit) :
    Option Transfer :=
  match k.cls with
  | .branch => if k.branchTaken o then some (.redirect (pc + k.imm)) else none
  | .jal => some (.redirect (pc + k.imm))
  | .jalr => some (.redirect ((o.rs1 + k.imm) &&& ~~~1))
  | .halt => some (.halt (link pc))
  | .mret => traps.resume?.map .redirect
  | _ => none

/-! ## §2. The stage. -/

/-- What execute answers. -/
structure ExecuteOut where
  /-- Next contents of EX/MEM. -/
  exMem : Option ExMem := none
  /-- What it asks of fetch. -/
  transfer : Option Transfer := none
  deriving Repr, DecidableEq

namespace Core

/-- The instruction as it leaves execute. -/
def executed (e : IdEx) (o : Operands) : ExMem :=
  { e with
    result := e.control.result e.pc o
    storeData := if e.control.isStore then o.rs2 else 0 }

/-- The counters after executing an instruction. -/
def countExecution (k : Counters) (e : IdEx) (o : Operands) : Counters :=
  { k with
    forwardsExMem := k.forwardsExMem + o.countFrom .exMem
    forwardsMemWb := k.forwardsMemWb + o.countFrom .memWb
    branchesTaken := k.branchesTaken + (if e.control.branchTaken o then 1 else 0) }

/-- What there is to tell about executing an instruction. -/
def executionEvents (e : IdEx) (o : Operands) (traps : TrapUnit) : List Event :=
  let at_ := e.toInFlight
  o.events at_
    ++ (match e.control.cls, traps.resume? with
      | .halt, _ => [.haltReached at_]
      | .mret, some epc => [.handlerLeft epc]
      | .mret, none => [.strayReturn at_]
      | _, _ => [])
    ++ (match e.control.transfer? e.pc o traps with
      | some (.redirect target) => [.redirected at_ target]
      | _ => [])
    ++ [.executed (executed e o)]

/-- Execute: the next contents of EX/MEM, and what it asks of fetch. -/
def execute (c : Core) : StageResult ExecuteOut :=
  match c.latches.idEx with
  | none => { out := {}, core := c }
  | some e =>
      let o := Operands.gather e c.latches.exMem c.latches.memWb
      { out :=
          { exMem := some (executed e o)
            transfer := e.control.transfer? e.pc o c.traps }
        core :=
          { c with
            counters := countExecution c.counters e o
            traps := if e.control.cls = .mret then c.traps.leave else c.traps }
        events := executionEvents e o c.traps }

end Core

end FiveStage
