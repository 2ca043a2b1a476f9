/-
  FiveStage.Isa.Fields
  ────────────────────
  **THE BIT FIELDS OF AN INSTRUCTION WORD.**

  Every RV32I word has its opcode, register and function fields in the same
  places; which of them mean anything depends on the opcode.  Immediates are
  scattered over the word in one of five formats and sign-extended:

      I   imm[11:0]                      at 31:20
      S   imm[11:5] | imm[4:0]           at 31:25, 11:7
      B   imm[12|10:5] | imm[4:1|11]     at 31:25, 11:7    (even)
      U   imm[31:12]                     at 31:12          (low bits zero)
      J   imm[20|10:1|11|19:12]          at 31:12          (even)
-/
import FiveStage.Access

namespace FiveStage

/-! ## §1. Immediate formats. -/

/-- Placement of the immediate in an instruction word. -/
inductive Format where
  /-- Register and 12-bit immediate. -/
  | I
  /-- Stores. -/
  | S
  /-- Conditional branches. -/
  | B
  /-- Upper immediates. -/
  | U
  /-- Jumps. -/
  | J
  deriving Repr, DecidableEq

namespace Format

/-- The twelve immediate bits of an I-format word. -/
def bitsI (w : Word) : BitVec 12 :=
  w.extractLsb' 20 12

/-- The twelve immediate bits of an S-format word. -/
def bitsS (w : Word) : BitVec 12 :=
  w.extractLsb' 25 7 ++ w.extractLsb' 7 5

/-- Bits 12 to 1 of the immediate of a B-format word. -/
def bitsB (w : Word) : BitVec 12 :=
  w.extractLsb' 31 1 ++ w.extractLsb' 7 1 ++ w.extractLsb' 25 6 ++ w.extractLsb' 8 4

/-- Bits 31 to 12 of the immediate of a U-format word. -/
def bitsU (w : Word) : BitVec 20 :=
  w.extractLsb' 12 20

/-- Bits 20 to 1 of the immediate of a J-format word. -/
def bitsJ (w : Word) : BitVec 20 :=
  w.extractLsb' 31 1 ++ w.extractLsb' 12 8 ++ w.extractLsb' 20 1 ++ w.extractLsb' 21 10

/-- The sign-extended immediate of a word read in this format. -/
def immediate : Format → Word → Word
  | I, w => (bitsI w).signExtend 32
  | S, w => (bitsS w).signExtend 32
  | B, w => (bitsB w ++ 0#1).signExtend 32
  | U, w => bitsU w ++ 0#12
  | J, w => (bitsJ w ++ 0#1).signExtend 32

end Format

/-! ## §2. Opcodes. -/

/-- The major opcodes of the supported subset. -/
inductive Opcode where
  /-- Loads. -/
  | load
  /-- Register-immediate arithmetic. -/
  | opImm
  /-- Add upper immediate to PC. -/
  | auipc
  /-- Stores. -/
  | store
  /-- Register-register arithmetic. -/
  | op
  /-- Load upper immediate. -/
  | lui
  /-- Conditional branches. -/
  | branch
  /-- Jump and link register. -/
  | jalr
  /-- Jump and link. -/
  | jal
  /-- System words. -/
  | system
  deriving Repr, DecidableEq

namespace Opcode

/-- The seven opcode bits. -/
def bits : Opcode → BitVec 7
  | load => 0x03
  | opImm => 0x13
  | auipc => 0x17
  | store => 0x23
  | op => 0x33
  | lui => 0x37
  | branch => 0x63
  | jalr => 0x67
  | jal => 0x6F
  | system => 0x73

/-- The opcode with these bits, if the subset has one. -/
def ofBits? (b : BitVec 7) : Option Opcode :=
  [load, opImm, auipc, store, op, lui, branch, jalr, jal, system].find? (·.bits == b)

/-- Where the immediate of this opcode's words is; `none` if they have none. -/
def format? : Opcode → Option Format
  | opImm | load | jalr => some .I
  | store => some .S
  | branch => some .B
  | lui | auipc => some .U
  | jal => some .J
  | op | system => none

end Opcode

/-! ## §3. The fields of a word. -/

/-- A register specifier, `x0` to `x31`. -/
abbrev Reg := BitVec 5

/-- An instruction word cut into its fields. -/
structure Fields where
  /-- The whole word. -/
  raw : Word
  /-- Bits 6 to 0. -/
  opcode : BitVec 7
  /-- Bits 11 to 7. -/
  rd : Reg
  /-- Bits 14 to 12. -/
  funct3 : BitVec 3
  /-- Bits 19 to 15. -/
  rs1 : Reg
  /-- Bits 24 to 20. -/
  rs2 : Reg
  /-- Bits 31 to 25. -/
  funct7 : BitVec 7
  /-- The immediate in the opcode's format, zero where the opcode has none. -/
  imm : Word
  deriving Repr, DecidableEq

/-- The fields of a word.  Nothing is classified here: every word has them. -/
def Fields.ofWord (w : Word) : Fields where
  raw := w
  opcode := w.extractLsb' 0 7
  rd := w.extractLsb' 7 5
  funct3 := w.extractLsb' 12 3
  rs1 := w.extractLsb' 15 5
  rs2 := w.extractLsb' 20 5
  funct7 := w.extractLsb' 25 7
  imm := ((Opcode.ofBits? (w.extractLsb' 0 7)).bind (·.format?)).elim 0 (·.immediate w)

end FiveStage
