/-
  FiveStage.Isa.Assembly
  ──────────────────────
  **INSTRUCTION WORDS AS TEXT.**

  `disassemble` writes a word with register names of the calling convention,
  immediates in signed decimal and upper immediates in hexadecimal, and
  `unknown` where the word is no instruction.  It goes by the fields of the
  word alone, with tables of its own for the function codes.  The two system
  words are `halt` and `mret`, and the canonical no-op is `nop`.
-/
import FiveStage.Isa.Encoding

namespace FiveStage

/-! ## §1. Register names. -/

/-- Names of `x0` to `x31` in the calling convention. -/
def registerNames : List String :=
  ["zero", "ra", "sp", "gp", "tp", "t0", "t1", "t2", "s0", "s1", "a0", "a1", "a2", "a3",
    "a4", "a5", "a6", "a7", "s2", "s3", "s4", "s5", "s6", "s7", "s8", "s9", "s10", "s11",
    "t3", "t4", "t5", "t6"]

/-- The name of register number `i`. -/
def registerName (i : Nat) : String :=
  registerNames.getD i "x??"

/-- The name of the register in an operand field. -/
def Reg.name (r : Reg) : String :=
  registerName r.toNat

/-! ## §2. Mnemonics. -/

namespace Fields

/-- Mnemonic of a register-register operation. -/
def opMnemonic? (funct3 : BitVec 3) (funct7 : BitVec 7) : Option String :=
  match funct3, funct7 with
  | 0, 0x00 => some "add"
  | 0, 0x20 => some "sub"
  | 1, 0x00 => some "sll"
  | 2, 0x00 => some "slt"
  | 3, 0x00 => some "sltu"
  | 4, 0x00 => some "xor"
  | 5, 0x00 => some "srl"
  | 5, 0x20 => some "sra"
  | 6, 0x00 => some "or"
  | 7, 0x00 => some "and"
  | _, _ => none

/-- Mnemonic of a shift by a constant. -/
def shiftMnemonic? (funct3 : BitVec 3) (funct7 : BitVec 7) : Option String :=
  match funct3, funct7 with
  | 1, 0x00 => some "slli"
  | 5, 0x00 => some "srli"
  | 5, 0x20 => some "srai"
  | _, _ => none

/-- Mnemonic of a register-immediate operation that is no shift. -/
def immMnemonic? (funct3 : BitVec 3) : Option String :=
  match funct3 with
  | 1 | 5 => none
  | 0 => some "addi"
  | 2 => some "slti"
  | 3 => some "sltiu"
  | 4 => some "xori"
  | 6 => some "ori"
  | _ => some "andi"

/-- Mnemonic of a load. -/
def loadMnemonic? (funct3 : BitVec 3) : Option String :=
  match funct3 with
  | 0 => some "lb"
  | 1 => some "lh"
  | 2 => some "lw"
  | 4 => some "lbu"
  | 5 => some "lhu"
  | _ => none

/-- Mnemonic of a store. -/
def storeMnemonic? (funct3 : BitVec 3) : Option String :=
  match funct3 with
  | 0 => some "sb"
  | 1 => some "sh"
  | 2 => some "sw"
  | _ => none

/-- Mnemonic of a conditional branch. -/
def branchMnemonic? (funct3 : BitVec 3) : Option String :=
  match funct3 with
  | 0 => some "beq"
  | 1 => some "bne"
  | 4 => some "blt"
  | 5 => some "bge"
  | 6 => some "bltu"
  | 7 => some "bgeu"
  | _ => none

end Fields

/-! ## §3. Assembly text. -/

/-- A mnemonic and its operands, separated by commas. -/
def asm (mnemonic : String) (operands : List String) : String :=
  mnemonic ++ " " ++ ", ".intercalate operands

/-- An address operand, `offset(base)`. -/
def addressOperand (offset : Int) (base : Reg) : String :=
  toString offset ++ "(" ++ base.name ++ ")"

namespace Fields

/-- The operand of an upper immediate, which is written without its low bits. -/
def upperOperand (f : Fields) : String :=
  hex (f.imm >>> 12).toNat

/-- The text of a word with these fields; `none` if it is no instruction, and
for the system words, whose texts do not depend on the fields. -/
def assembly? (f : Fields) : Option String :=
  let (rd, rs1, rs2, imm) := (f.rd.name, f.rs1.name, f.rs2.name, toString f.imm.toInt)
  let address := addressOperand f.imm.toInt f.rs1
  match Opcode.ofBits? f.opcode with
  | some .op => (opMnemonic? f.funct3 f.funct7).map (asm · [rd, rs1, rs2])
  | some .opImm =>
      match shiftMnemonic? f.funct3 f.funct7 with
      | some mnemonic => some (asm mnemonic [rd, rs1, toString f.rs2.toNat])
      | none => (immMnemonic? f.funct3).map (asm · [rd, rs1, imm])
  | some .load => (loadMnemonic? f.funct3).map (asm · [rd, address])
  | some .store => (storeMnemonic? f.funct3).map (asm · [rs2, address])
  | some .branch => (branchMnemonic? f.funct3).map (asm · [rs1, rs2, imm])
  | some .lui => some (asm "lui" [rd, f.upperOperand])
  | some .auipc => some (asm "auipc" [rd, f.upperOperand])
  | some .jal => some (asm "jal" [rd, imm])
  | some .jalr => if f.funct3 = 0 then some (asm "jalr" [rd, address]) else none
  | some .system | none => none

end Fields

/-- A word as assembly text; `unknown` if it is no instruction. -/
def disassemble (w : Word) : String :=
  if w = Encode.halt then "halt"
  else if w = Encode.mret then "mret"
  else if w = nopWord then "nop"
  else (Fields.ofWord w).assembly?.getD "unknown"

end FiveStage
