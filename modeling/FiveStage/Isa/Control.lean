/-
  FiveStage.Isa.Control
  ─────────────────────
  **THE CONTROL WORD OF AN INSTRUCTION.**

  What the decoder hands to the later stages is not the instruction but a
  bundle of control signals: the class, the registers read and written, the
  operand selectors, and what to do with memory.  The later stages obey the
  signals one by one, whatever combination they carry.
-/
import FiveStage.Isa.Decoding

namespace FiveStage

/-! ## §1. Signals. -/

/-- Class of an instruction. -/
inductive InstrClass where
  /-- Register-register arithmetic. -/
  | regReg
  /-- Register-immediate arithmetic. -/
  | regImm
  /-- Load. -/
  | load
  /-- Store. -/
  | store
  /-- Load upper immediate. -/
  | lui
  /-- Add upper immediate to PC. -/
  | auipc
  /-- Conditional branch. -/
  | branch
  /-- Jump and link. -/
  | jal
  /-- Jump and link register. -/
  | jalr
  /-- Stop the machine. -/
  | halt
  /-- Return from the interrupt handler. -/
  | mret
  /-- No instruction: flows through without effect. -/
  | illegal
  deriving Repr, DecidableEq

/-- First operand of the ALU. -/
inductive OperandA where
  /-- The first source register. -/
  | reg1
  /-- The instruction's own address. -/
  | pc
  /-- Zero. -/
  | zero
  deriving Repr, DecidableEq

/-- Second operand of the ALU. -/
inductive OperandB where
  /-- The immediate. -/
  | imm
  /-- The second source register. -/
  | reg2
  deriving Repr, DecidableEq

/-- What an instruction does with data memory. -/
inductive MemoryUse where
  /-- Nothing. -/
  | none
  /-- It reads. -/
  | load
  /-- It writes. -/
  | store
  deriving Repr, DecidableEq

/-- The control signals that travel with an instruction. -/
structure Control where
  /-- Class. -/
  cls : InstrClass := .illegal
  /-- Number of the destination register. -/
  rd : Nat := 0
  /-- The destination is written. -/
  rdValid : Bool := false
  /-- Number of the first source register, if one is read. -/
  rs1 : Option Nat := none
  /-- Number of the second source register, if one is read. -/
  rs2 : Option Nat := none
  /-- Immediate. -/
  imm : Word := 0
  /-- ALU operation. -/
  alu : AluOp := .add
  /-- First ALU operand. -/
  operandA : OperandA := .reg1
  /-- Second ALU operand. -/
  operandB : OperandB := .imm
  /-- Use of data memory. -/
  memory : MemoryUse := .none
  /-- Width of the memory access. -/
  width : Width := .word
  /-- Loaded data are sign-extended. -/
  signedLoad : Bool := false
  /-- Condition of a branch. -/
  branch : Option Condition := none
  /-- The instruction is halt or trap return. -/
  isTrap : Bool := false
  deriving Repr, DecidableEq

namespace Control

/-- The signals of a word that is no instruction. -/
def illegal : Control := {}

/-- The instruction loads. -/
def isLoad (k : Control) : Bool :=
  k.memory == .load

/-- The instruction stores. -/
def isStore (k : Control) : Bool :=
  k.memory == .store

/-- The instruction produces a value for register `r`; never for `x0`. -/
def writes (k : Control) (r : Nat) : Bool :=
  k.rdValid && r != 0 && k.rd == r

/-- The instruction reads register `r`; never `x0`. -/
def reads (k : Control) (r : Nat) : Bool :=
  r != 0 && (k.rs1 == some r || k.rs2 == some r)

end Control

/-! ## §2. The signals of an instruction. -/

/-- The signals common to instructions that produce a value for `rd`. -/
def Control.producing (rd : Reg) : Control where
  rd := rd.toNat
  rdValid := rd != 0

/-- The control word of an instruction.  The immediate of a constant shift
keeps its function code above the amount; the shifter does not look there. -/
def Instr.control : Instr → Control
  | op f rd rs1 rs2 =>
      { Control.producing rd with
        cls := .regReg, rs1 := some rs1.toNat, rs2 := some rs2.toNat, alu := f,
        operandB := .reg2 }
  | opImm f rd rs1 imm =>
      { Control.producing rd with
        cls := .regImm, rs1 := some rs1.toNat, alu := f.alu, imm := imm.signExtend 32 }
  | shift f rd rs1 amount =>
      { Control.producing rd with
        cls := .regImm, rs1 := some rs1.toNat, alu := f.alu,
        imm := (f.alu.funct7 ++ amount).signExtend 32 }
  | load f rd rs1 offset =>
      { Control.producing rd with
        cls := .load, rs1 := some rs1.toNat, memory := .load, width := f.width,
        signedLoad := f.signed, imm := offset.signExtend 32 }
  | store width rs2 rs1 offset =>
      { cls := .store, rs1 := some rs1.toNat, rs2 := some rs2.toNat, memory := .store,
        width := width, imm := offset.signExtend 32 }
  | lui rd imm =>
      { Control.producing rd with cls := .lui, operandA := .zero, imm := imm ++ 0#12 }
  | auipc rd imm =>
      { Control.producing rd with cls := .auipc, operandA := .pc, imm := imm ++ 0#12 }
  | branch c rs1 rs2 offset =>
      { cls := .branch, rs1 := some rs1.toNat, rs2 := some rs2.toNat, branch := some c,
        imm := (offset ++ 0#1).signExtend 32 }
  | jal rd offset =>
      { Control.producing rd with cls := .jal, imm := (offset ++ 0#1).signExtend 32 }
  | jalr rd rs1 offset =>
      { Control.producing rd with
        cls := .jalr, rs1 := some rs1.toNat, imm := offset.signExtend 32 }
  | halt => { cls := .halt, isTrap := true }
  | mret => { cls := .mret, isTrap := true }

/-- The control word of an instruction word. -/
def Control.decode (w : Word) : Except Anomaly Control :=
  (Instr.decode w).map Instr.control

/-- The control word that a word has in the pipeline: one that is no
instruction travels as `Control.illegal`. -/
def Control.ofWord (w : Word) : Control :=
  match Control.decode w with
  | .ok k => k
  | .error _ => .illegal

end FiveStage
