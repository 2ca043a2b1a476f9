/-
  FiveStage.Isa.Instr
  ───────────────────
  **THE SUPPORTED INSTRUCTIONS.**

  An `Instr` is an instruction of the supported RV32I subset with its operands.
  Operands have exactly the width of their field, so every value of the type
  can be encoded: immediates are 12 or 20 bits, shift amounts 5, and the
  offsets of branches and jumps count halfwords, because they are even.
-/
import FiveStage.Alu
import FiveStage.Isa.Fields

namespace FiveStage

/-! ## §1. Operation tables. -/

/-- Register-immediate operations with a 12-bit immediate. -/
inductive ImmOp where
  /-- Sum. -/
  | add
  /-- One if less as signed numbers. -/
  | slt
  /-- One if less as unsigned numbers. -/
  | sltu
  /-- Bitwise exclusive or. -/
  | xor
  /-- Bitwise or. -/
  | or
  /-- Bitwise and. -/
  | and
  deriving Repr, DecidableEq

/-- Shifts, which have an immediate form of their own. -/
inductive ShiftOp where
  /-- Shift left. -/
  | sll
  /-- Shift right, filling with zeros. -/
  | srl
  /-- Shift right, filling with the sign. -/
  | sra
  deriving Repr, DecidableEq

/-- Loads. -/
inductive LoadOp where
  /-- Byte, sign-extended. -/
  | lb
  /-- Halfword, sign-extended. -/
  | lh
  /-- Word. -/
  | lw
  /-- Byte, zero-extended. -/
  | lbu
  /-- Halfword, zero-extended. -/
  | lhu
  deriving Repr, DecidableEq

/-! ## §2. Instructions. -/

/-- An instruction of the supported subset. -/
inductive Instr where
  /-- Register-register arithmetic. -/
  | op (f : AluOp) (rd rs1 rs2 : Reg)
  /-- Register-immediate arithmetic. -/
  | opImm (f : ImmOp) (rd rs1 : Reg) (imm : BitVec 12)
  /-- Shift by a constant. -/
  | shift (f : ShiftOp) (rd rs1 : Reg) (amount : BitVec 5)
  /-- Load. -/
  | load (f : LoadOp) (rd rs1 : Reg) (offset : BitVec 12)
  /-- Store of the low bytes of `rs2`. -/
  | store (width : Width) (rs2 rs1 : Reg) (offset : BitVec 12)
  /-- Load upper immediate. -/
  | lui (rd : Reg) (imm : BitVec 20)
  /-- Add upper immediate to PC. -/
  | auipc (rd : Reg) (imm : BitVec 20)
  /-- Conditional branch; the offset counts halfwords. -/
  | branch (c : Condition) (rs1 rs2 : Reg) (offset : BitVec 12)
  /-- Jump and link; the offset counts halfwords. -/
  | jal (rd : Reg) (offset : BitVec 20)
  /-- Jump and link register. -/
  | jalr (rd rs1 : Reg) (offset : BitVec 12)
  /-- Stop the machine. -/
  | halt
  /-- Return from the interrupt handler. -/
  | mret
  deriving Repr, DecidableEq

/-- The canonical no-op, `addi x0, x0, 0`. -/
def Instr.nop : Instr :=
  .opImm .add 0 0 0

/-! ## §3. Function codes. -/

/-- The `funct7` of ordinary operations. -/
def functBase : BitVec 7 := 0x00

/-- The `funct7` of subtraction and of the arithmetic shift. -/
def functAlt : BitVec 7 := 0x20

/-- `funct3` of a register-register operation. -/
def AluOp.funct3 : AluOp → BitVec 3
  | .add | .sub => 0
  | .sll => 1
  | .slt => 2
  | .sltu => 3
  | .xor => 4
  | .srl | .sra => 5
  | .or => 6
  | .and => 7

/-- `funct7` of a register-register operation. -/
def AluOp.funct7 : AluOp → BitVec 7
  | .sub | .sra => functAlt
  | _ => functBase

/-- The register-register operation with these function codes. -/
def AluOp.ofFunct? (f3 : BitVec 3) (f7 : BitVec 7) : Option AluOp :=
  [add, sub, sll, slt, sltu, xor, srl, sra, or, and].find?
    fun f => f.funct3 == f3 && f.funct7 == f7

/-- What the ALU does for a register-immediate operation. -/
def ImmOp.alu : ImmOp → AluOp
  | .add => .add
  | .slt => .slt
  | .sltu => .sltu
  | .xor => .xor
  | .or => .or
  | .and => .and

/-- `funct3` of a register-immediate operation. -/
def ImmOp.funct3 (f : ImmOp) : BitVec 3 :=
  f.alu.funct3

/-- The register-immediate operation with this function code. -/
def ImmOp.ofFunct? (f3 : BitVec 3) : Option ImmOp :=
  [add, slt, sltu, xor, or, and].find? (·.funct3 == f3)

/-- What the ALU does for a shift. -/
def ShiftOp.alu : ShiftOp → AluOp
  | .sll => .sll
  | .srl => .srl
  | .sra => .sra

/-- The shift by a constant with these function codes. -/
def ShiftOp.ofFunct? (f3 : BitVec 3) (f7 : BitVec 7) : Option ShiftOp :=
  [sll, srl, sra].find? fun f => f.alu.funct3 == f3 && f.alu.funct7 == f7

/-- `funct3` of a load. -/
def LoadOp.funct3 : LoadOp → BitVec 3
  | .lb => 0
  | .lh => 1
  | .lw => 2
  | .lbu => 4
  | .lhu => 5

/-- The load with this function code. -/
def LoadOp.ofFunct? (f3 : BitVec 3) : Option LoadOp :=
  [lb, lh, lw, lbu, lhu].find? (·.funct3 == f3)

/-- How much a load reads. -/
def LoadOp.width : LoadOp → Width
  | .lb | .lbu => .byte
  | .lh | .lhu => .half
  | .lw => .word

/-- The loaded data are sign-extended (`lw` counts as signed). -/
def LoadOp.signed : LoadOp → Bool
  | .lb | .lh | .lw => true
  | .lbu | .lhu => false

/-- `funct3` of the store of this width. -/
def Width.funct3 : Width → BitVec 3
  | .byte => 0
  | .half => 1
  | .word => 2

/-- The width of the store with this function code. -/
def Width.ofFunct? (f3 : BitVec 3) : Option Width :=
  [byte, half, word].find? (·.funct3 == f3)

/-- `funct3` of the branch on this condition. -/
def Condition.funct3 : Condition → BitVec 3
  | .eq => 0
  | .ne => 1
  | .lt => 4
  | .ge => 5
  | .ltu => 6
  | .geu => 7

/-- The condition of the branch with this function code. -/
def Condition.ofFunct? (f3 : BitVec 3) : Option Condition :=
  [eq, ne, lt, ge, ltu, geu].find? (·.funct3 == f3)

end FiveStage
