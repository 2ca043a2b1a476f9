/-
  FiveStage.Isa.Decoding
  ──────────────────────
  **THE INSTRUCTION OF A WORD.**

  `Instr.decode` reads a word back into the instruction it encodes.  A word
  outside the supported subset is an `Anomaly`, and the anomaly says how far
  the word was understood: its opcode is foreign, its function codes are not
  defined for the opcode, or it is a system word other than the two known.
-/
import FiveStage.Isa.Encoding

namespace FiveStage

/-! ## §1. Anomalies. -/

/-- Why a word is not an instruction of the subset. -/
inductive Anomaly where
  /-- The major opcode is not supported. -/
  | unknownOpcode (inst : Word) (opcode : BitVec 7)
  /-- The opcode is supported, this combination of function codes is not. -/
  | unsupportedFunction (inst : Word) (funct3 : BitVec 3) (funct7 : BitVec 7)
  /-- A system word that is neither halt nor trap return. -/
  | unsupportedSystem (inst : Word)
  deriving Repr, DecidableEq

namespace Anomaly

/-- The word that was not understood. -/
def inst : Anomaly → Word
  | unknownOpcode w _ | unsupportedFunction w _ _ | unsupportedSystem w => w

/-- The anomaly in words. -/
def message : Anomaly → String
  | unknownOpcode w opcode =>
      "unknown opcode " ++ hexPadded 2 opcode.toNat ++ " in instruction " ++ w.hex8
  | unsupportedFunction w f3 f7 =>
      "unsupported function (funct3=" ++ hex f3.toNat ++ ", funct7=" ++ hex f7.toNat
        ++ ") in instruction " ++ w.hex8
  | unsupportedSystem w =>
      "unsupported system instruction " ++ w.hex8

end Anomaly

/-! ## §2. Decoding. -/

/-- The instruction a word encodes, or why there is none. -/
def Instr.decode (w : Word) : Except Anomaly Instr :=
  let f := Fields.ofWord w
  let orUnsupported (i : Option Instr) : Except Anomaly Instr :=
    i.elim (.error (.unsupportedFunction w f.funct3 f.funct7)) .ok
  match Opcode.ofBits? f.opcode with
  | none => .error (.unknownOpcode w f.opcode)
  | some .op =>
      orUnsupported ((AluOp.ofFunct? f.funct3 f.funct7).map (.op · f.rd f.rs1 f.rs2))
  | some .opImm =>
      -- a shift has its function code where the others have immediate bits
      orUnsupported
        (((ImmOp.ofFunct? f.funct3).map (.opImm · f.rd f.rs1 (Format.bitsI w))).or
          ((ShiftOp.ofFunct? f.funct3 f.funct7).map (.shift · f.rd f.rs1 f.rs2)))
  | some .load =>
      orUnsupported ((LoadOp.ofFunct? f.funct3).map (.load · f.rd f.rs1 (Format.bitsI w)))
  | some .store =>
      orUnsupported ((Width.ofFunct? f.funct3).map (.store · f.rs2 f.rs1 (Format.bitsS w)))
  | some .lui => .ok (.lui f.rd (Format.bitsU w))
  | some .auipc => .ok (.auipc f.rd (Format.bitsU w))
  | some .branch =>
      orUnsupported
        ((Condition.ofFunct? f.funct3).map (.branch · f.rs1 f.rs2 (Format.bitsB w)))
  | some .jal => .ok (.jal f.rd (Format.bitsJ w))
  | some .jalr =>
      orUnsupported (if f.funct3 = 0 then some (.jalr f.rd f.rs1 (Format.bitsI w)) else none)
  | some .system =>
      if w = Encode.halt then .ok .halt
      else if w = Encode.mret then .ok .mret
      else .error (.unsupportedSystem w)

end FiveStage
