/-
  FiveStage.Isa.Encoding
  ──────────────────────
  **THE WORD OF AN INSTRUCTION.**

  `Instr.encode` lays an instruction out in its RV32I format.  Written from
  the high end of the word:

      R   funct7 | rs2 | rs1 | funct3 | rd | opcode
      I   imm[11:0]    | rs1 | funct3 | rd | opcode
      S   imm[11:5] | rs2 | rs1 | funct3 | imm[4:0]    | opcode
      B   imm[12|10:5] | rs2 | rs1 | funct3 | imm[4:1|11] | opcode
      U   imm[31:12]                   | rd | opcode
      J   imm[20|10:1|11|19:12]        | rd | opcode
-/
import FiveStage.Isa.Instr

namespace FiveStage

namespace Encode

/-- Layout with two sources and a destination. -/
def formatR (opcode : Opcode) (f3 : BitVec 3) (f7 : BitVec 7) (rd rs1 rs2 : Reg) : Word :=
  f7 ++ rs2 ++ rs1 ++ f3 ++ rd ++ opcode.bits

/-- Layout with a source, a destination and a 12-bit immediate. -/
def formatI (opcode : Opcode) (f3 : BitVec 3) (rd rs1 : Reg) (imm : BitVec 12) : Word :=
  imm ++ rs1 ++ f3 ++ rd ++ opcode.bits

/-- Layout of stores. -/
def formatS (opcode : Opcode) (f3 : BitVec 3) (rs1 rs2 : Reg) (imm : BitVec 12) : Word :=
  imm.extractLsb' 5 7 ++ rs2 ++ rs1 ++ f3 ++ imm.extractLsb' 0 5 ++ opcode.bits

/-- Layout of branches; bit `i` of `half` is bit `i + 1` of the offset. -/
def formatB (opcode : Opcode) (f3 : BitVec 3) (rs1 rs2 : Reg) (half : BitVec 12) : Word :=
  half.extractLsb' 11 1 ++ half.extractLsb' 4 6 ++ rs2 ++ rs1 ++ f3
    ++ half.extractLsb' 0 4 ++ half.extractLsb' 10 1 ++ opcode.bits

/-- Layout of upper immediates. -/
def formatU (opcode : Opcode) (rd : Reg) (imm : BitVec 20) : Word :=
  imm ++ rd ++ opcode.bits

/-- Layout of jumps; bit `i` of `half` is bit `i + 1` of the offset. -/
def formatJ (opcode : Opcode) (rd : Reg) (half : BitVec 20) : Word :=
  half.extractLsb' 19 1 ++ half.extractLsb' 0 10 ++ half.extractLsb' 10 1
    ++ half.extractLsb' 11 8 ++ rd ++ opcode.bits

/-- The word that halts the machine. -/
def halt : Word := 0x00000073

/-- The word that returns from the interrupt handler. -/
def mret : Word := 0x30200073

end Encode

open Encode in
/-- The word of an instruction. -/
def Instr.encode : Instr → Word
  | op f rd rs1 rs2 => formatR .op f.funct3 f.funct7 rd rs1 rs2
  | opImm f rd rs1 imm => formatI .opImm f.funct3 rd rs1 imm
  | shift f rd rs1 amount => formatR .opImm f.alu.funct3 f.alu.funct7 rd rs1 amount
  | load f rd rs1 offset => formatI .load f.funct3 rd rs1 offset
  | store width rs2 rs1 offset => formatS .store width.funct3 rs1 rs2 offset
  | lui rd imm => formatU .lui rd imm
  | auipc rd imm => formatU .auipc rd imm
  | branch c rs1 rs2 offset => formatB .branch c.funct3 rs1 rs2 offset
  | jal rd offset => formatJ .jal rd offset
  | jalr rd rs1 offset => formatI .jalr 0 rd rs1 offset
  | halt => Encode.halt
  | mret => Encode.mret

/-- The word of the canonical no-op. -/
def nopWord : Word := 0x00000013

/-- The no-op word is the encoding of the no-op. -/
theorem encode_nop : Instr.nop.encode = nopWord := by decide

end FiveStage
