/-
  FiveStage.Hart
  ──────────────
  **THE SEQUENTIAL MACHINE.**

  What a program means, with no pipeline in sight: a hart performs one
  instruction completely before it fetches the next.  It knows instructions
  only by `Instr`, never by their control signals, so it says on its own what
  the core has to compute:

      step?       fetch, decode, perform; nothing if the fetch faults or the
                  hart has halted
      history     what the first `n` instructions did, in program order
      after       the hart once they are performed

  A word that is no instruction has no effect, and so has a trap return,
  because the sequential machine takes no interrupts.
-/
import FiveStage.Isa.Decoding
import FiveStage.LoadStore
import FiveStage.Memory.Ram
import FiveStage.Memory.Rom
import FiveStage.Registers

namespace FiveStage

/-! ## §1. State. -/

/-- The architectural state. -/
structure Hart where
  /-- Address of the next instruction. -/
  pc : Word
  /-- Registers. -/
  regs : Registers
  /-- Data memory. -/
  dmem : Ram
  /-- A halt was performed. -/
  halted : Bool := false

/-- What one instruction does. -/
structure Effect where
  /-- The register it writes, and the value. -/
  write : Option (Reg × Word) := none
  /-- Data memory after it, if it stores. -/
  dmem : Option Ram := none
  /-- The access that was refused; the instruction then does nothing else. -/
  fault : Option Fault := none
  /-- Where it jumps, if it does. -/
  target : Option Word := none
  /-- It stops the hart. -/
  halts : Bool := false

namespace Hart

/-- The contents of a register. -/
def reg (h : Hart) (r : Reg) : Word :=
  h.regs.read r.toNat

/-! ## §2. One instruction. -/

/-- Load through the load/store unit. -/
def loadFrom (policy : AlignmentPolicy) (h : Hart) (f : LoadOp) (addr : Word) :
    Except Fault Word :=
  ((LoadStore.load policy addr f.width f.signed : Transaction Ram Word).perform h.dmem).1

/-- Store through the load/store unit: data memory afterwards. -/
def storeTo (policy : AlignmentPolicy) (h : Hart) (width : Width) (addr value : Word) :
    Except Fault Ram :=
  match (LoadStore.store policy addr width value : Transaction Ram Unit).perform h.dmem with
  | (.ok _, dmem) => .ok dmem
  | (.error fault, _) => .error fault

/-- What an instruction does here. -/
def effect (policy : AlignmentPolicy) (h : Hart) : Instr → Effect
  | .op f rd rs1 rs2 => { write := some (rd, Alu.eval f (h.reg rs1) (h.reg rs2)) }
  | .opImm f rd rs1 imm => { write := some (rd, Alu.eval f.alu (h.reg rs1) (imm.signExtend 32)) }
  | .shift f rd rs1 amount =>
      { write := some (rd, Alu.eval f.alu (h.reg rs1) (amount.setWidth 32)) }
  | .load f rd rs1 offset =>
      match h.loadFrom policy f (h.reg rs1 + offset.signExtend 32) with
      | .ok v => { write := some (rd, v) }
      | .error fault => { fault := some fault }
  | .store width rs2 rs1 offset =>
      match h.storeTo policy width (h.reg rs1 + offset.signExtend 32) (h.reg rs2) with
      | .ok dmem => { dmem := some dmem }
      | .error fault => { fault := some fault }
  | .lui rd imm => { write := some (rd, imm ++ 0#12) }
  | .auipc rd imm => { write := some (rd, h.pc + (imm ++ 0#12)) }
  | .branch c rs1 rs2 offset =>
      if c.holds (h.reg rs1) (h.reg rs2) then
        { target := some (h.pc + (offset ++ 0#1).signExtend 32) }
      else {}
  | .jal rd offset =>
      { write := some (rd, h.pc + instructionBytes)
        target := some (h.pc + (offset ++ 0#1).signExtend 32) }
  | .jalr rd rs1 offset =>
      { write := some (rd, h.pc + instructionBytes)
        target := some ((h.reg rs1 + offset.signExtend 32) &&& ~~~1) }
  | .halt => { halts := true }
  | .mret => {}

/-- What a word does here. -/
def effectOf (policy : AlignmentPolicy) (h : Hart) (inst : Word) : Effect :=
  match Instr.decode inst with
  | .ok i => h.effect policy i
  | .error _ => {}

/-- The hart after this effect. -/
def apply (h : Hart) (e : Effect) : Hart where
  pc := e.target.getD (h.pc + instructionBytes)
  regs := e.write.elim h.regs fun (rd, v) => h.regs.write rd.toNat v
  dmem := e.dmem.getD h.dmem
  halted := e.halts

end Hart

/-- An instruction that was performed. -/
structure Performed where
  /-- Its address. -/
  pc : Word
  /-- Its word. -/
  inst : Word
  /-- What it did. -/
  effect : Effect

namespace Performed

/-- The register write that can be seen: one of `x0` cannot. -/
def write? (s : Performed) : Option (Nat × Word) :=
  s.effect.write.bind fun (rd, v) => if rd = 0 then none else some (rd.toNat, v)

/-- Why the word is no instruction, if it is none. -/
def anomaly? (s : Performed) : Option Anomaly :=
  match Instr.decode s.inst with
  | .ok _ => none
  | .error anomaly => some anomaly

/-- It is a taken branch or a jump. -/
def jumps (s : Performed) : Bool :=
  s.effect.target.isSome

end Performed

namespace Hart

/-! ## §3. Runs. -/

/-- Perform the instruction at the PC: what was performed, and the hart
afterwards. -/
def step? (program : ProgramMemory) (policy : AlignmentPolicy) (h : Hart) :
    Option (Performed × Hart) :=
  if h.halted then none
  else
    match program.fetch h.pc with
    | .error _ => none
    | .ok inst =>
        let e := h.effectOf policy inst
        some (⟨h.pc, inst, e⟩, h.apply e)

/-- Perform up to `n` instructions, fewer if the hart cannot go on. -/
def run (program : ProgramMemory) (policy : AlignmentPolicy) :
    Nat → Hart → List Performed × Hart
  | 0, h => ([], h)
  | n + 1, h =>
      match h.step? program policy with
      | none => ([], h)
      | some (s, h) =>
          let (rest, last) := run program policy n h
          (s :: rest, last)

/-- What the first `n` instructions did, in program order. -/
def history (program : ProgramMemory) (policy : AlignmentPolicy) (n : Nat) (h : Hart) :
    List Performed :=
  (h.run program policy n).1

/-- The hart after up to `n` instructions. -/
def after (program : ProgramMemory) (policy : AlignmentPolicy) (n : Nat) (h : Hart) : Hart :=
  (h.run program policy n).2

end Hart

end FiveStage
