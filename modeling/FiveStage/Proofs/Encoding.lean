/-
  FiveStage.Proofs.Encoding
  ─────────────────────────
  **EVERY SUPPORTED WORD IS THE WORD OF ONE INSTRUCTION.**

  Encoding and decoding undo each other.  Each format of words is gone
  through in both directions first, its fields read off a word that was laid
  out, and a word laid out from its own fields:

      decode_encode          the word of an instruction is read as it
      eq_encode_of_decode    a word is the word of what is read from it

  So no two instructions have a word in common, and the words that are read
  are exactly those of the supported instructions.
-/
import FiveStage.Isa.Control
import Mathlib.Logic.ExistsUnique

namespace FiveStage

namespace Encode

open BitVec

/-! ## §1. The fields of a word that was laid out. -/

/-- The fields of an R-type word are those it was built from; so for each
format. -/
theorem fields_formatR (o : Opcode) (f3 : BitVec 3) (f7 : BitVec 7) (rd rs1 rs2 : Reg) :
    (formatR o f3 f7 rd rs1 rs2).extractLsb' 0 7 = o.bits
      ∧ (formatR o f3 f7 rd rs1 rs2).extractLsb' 7 5 = rd
      ∧ (formatR o f3 f7 rd rs1 rs2).extractLsb' 12 3 = f3
      ∧ (formatR o f3 f7 rd rs1 rs2).extractLsb' 15 5 = rs1
      ∧ (formatR o f3 f7 rd rs1 rs2).extractLsb' 20 5 = rs2
      ∧ (formatR o f3 f7 rd rs1 rs2).extractLsb' 25 7 = f7 := by
  -- the widths stay sums, so that the parts of the word can be told apart
  unfold formatR
  refine ⟨?_, ?_, ?_, ?_, ?_, ?_⟩ <;>
    simp (disch := decide) only [extractLsb'_append_eq_of_add_le, extractLsb'_append_eq_of_le,
      extractLsb'_eq_self, -Nat.reduceAdd, Nat.reduceSub]

theorem fields_formatI (o : Opcode) (f3 : BitVec 3) (rd rs1 : Reg) (imm : BitVec 12) :
    (formatI o f3 rd rs1 imm).extractLsb' 0 7 = o.bits
      ∧ (formatI o f3 rd rs1 imm).extractLsb' 7 5 = rd
      ∧ (formatI o f3 rd rs1 imm).extractLsb' 12 3 = f3
      ∧ (formatI o f3 rd rs1 imm).extractLsb' 15 5 = rs1
      ∧ Format.bitsI (formatI o f3 rd rs1 imm) = imm := by
  unfold Format.bitsI formatI
  refine ⟨?_, ?_, ?_, ?_, ?_⟩ <;>
    simp (disch := decide) only [extractLsb'_append_eq_of_add_le, extractLsb'_append_eq_of_le,
      extractLsb'_eq_self, -Nat.reduceAdd, Nat.reduceSub]

theorem fields_formatS (o : Opcode) (f3 : BitVec 3) (rs1 rs2 : Reg) (imm : BitVec 12) :
    (formatS o f3 rs1 rs2 imm).extractLsb' 0 7 = o.bits
      ∧ (formatS o f3 rs1 rs2 imm).extractLsb' 12 3 = f3
      ∧ (formatS o f3 rs1 rs2 imm).extractLsb' 15 5 = rs1
      ∧ (formatS o f3 rs1 rs2 imm).extractLsb' 20 5 = rs2
      ∧ Format.bitsS (formatS o f3 rs1 rs2 imm) = imm := by
  unfold Format.bitsS formatS
  refine ⟨?_, ?_, ?_, ?_, ?_⟩ <;>
    simp (disch := decide) only [extractLsb'_append_eq_of_add_le, extractLsb'_append_eq_of_le,
      extractLsb'_append_extractLsb'_eq_extractLsb', extractLsb'_eq_self, -Nat.reduceAdd,
      Nat.reduceSub]

theorem fields_formatB (o : Opcode) (f3 : BitVec 3) (rs1 rs2 : Reg) (half : BitVec 12) :
    (formatB o f3 rs1 rs2 half).extractLsb' 0 7 = o.bits
      ∧ (formatB o f3 rs1 rs2 half).extractLsb' 12 3 = f3
      ∧ (formatB o f3 rs1 rs2 half).extractLsb' 15 5 = rs1
      ∧ (formatB o f3 rs1 rs2 half).extractLsb' 20 5 = rs2
      ∧ Format.bitsB (formatB o f3 rs1 rs2 half) = half := by
  unfold Format.bitsB formatB
  refine ⟨?_, ?_, ?_, ?_, ?_⟩ <;>
    simp (disch := decide) only [extractLsb'_append_eq_of_add_le, extractLsb'_append_eq_of_le,
      extractLsb'_append_extractLsb'_eq_extractLsb', extractLsb'_eq_self, -Nat.reduceAdd,
      Nat.reduceSub]

theorem fields_formatU (o : Opcode) (rd : Reg) (imm : BitVec 20) :
    (formatU o rd imm).extractLsb' 0 7 = o.bits
      ∧ (formatU o rd imm).extractLsb' 7 5 = rd
      ∧ Format.bitsU (formatU o rd imm) = imm := by
  unfold Format.bitsU formatU
  refine ⟨?_, ?_, ?_⟩ <;>
    simp (disch := decide) only [extractLsb'_append_eq_of_add_le, extractLsb'_append_eq_of_le,
      extractLsb'_eq_self, -Nat.reduceAdd, Nat.reduceSub]

theorem fields_formatJ (o : Opcode) (rd : Reg) (half : BitVec 20) :
    (formatJ o rd half).extractLsb' 0 7 = o.bits
      ∧ (formatJ o rd half).extractLsb' 7 5 = rd
      ∧ Format.bitsJ (formatJ o rd half) = half := by
  unfold Format.bitsJ formatJ
  refine ⟨?_, ?_, ?_⟩ <;>
    simp (disch := decide) only [extractLsb'_append_eq_of_add_le, extractLsb'_append_eq_of_le,
      extractLsb'_append_extractLsb'_eq_extractLsb', extractLsb'_eq_self, -Nat.reduceAdd,
      Nat.reduceSub]

/-! ## §2. A word laid out from its own fields. -/

section

variable {w : Word} {o : Opcode} (h : w.extractLsb' 0 7 = o.bits)

include h

theorem formatR_fields :
    formatR o (w.extractLsb' 12 3) (w.extractLsb' 25 7) (w.extractLsb' 7 5)
      (w.extractLsb' 15 5) (w.extractLsb' 20 5) = w := by
  unfold formatR
  rw [← h]
  simp (disch := decide) only [extractLsb'_append_extractLsb'_eq_extractLsb',
    extractLsb'_eq_self, -Nat.reduceAdd]

theorem formatI_fields :
    formatI o (w.extractLsb' 12 3) (w.extractLsb' 7 5) (w.extractLsb' 15 5) (Format.bitsI w)
      = w := by
  unfold formatI Format.bitsI
  rw [← h]
  simp (disch := decide) only [extractLsb'_append_extractLsb'_eq_extractLsb',
    extractLsb'_eq_self, -Nat.reduceAdd]

theorem formatS_fields :
    formatS o (w.extractLsb' 12 3) (w.extractLsb' 15 5) (w.extractLsb' 20 5) (Format.bitsS w)
      = w := by
  unfold formatS Format.bitsS
  rw [← h]
  simp (disch := decide) only [extractLsb'_append_eq_of_add_le, extractLsb'_append_eq_of_le,
    extractLsb'_append_extractLsb'_eq_extractLsb', extractLsb'_eq_self, -Nat.reduceAdd,
    Nat.reduceSub]

theorem formatB_fields :
    formatB o (w.extractLsb' 12 3) (w.extractLsb' 15 5) (w.extractLsb' 20 5) (Format.bitsB w)
      = w := by
  unfold formatB Format.bitsB
  rw [← h]
  simp (disch := decide) only [extractLsb'_append_eq_of_add_le, extractLsb'_append_eq_of_le,
    extractLsb'_append_extractLsb'_eq_extractLsb', extractLsb'_eq_self, -Nat.reduceAdd,
    Nat.reduceSub]

theorem formatU_fields : formatU o (w.extractLsb' 7 5) (Format.bitsU w) = w := by
  unfold formatU Format.bitsU
  rw [← h]
  simp (disch := decide) only [extractLsb'_append_extractLsb'_eq_extractLsb',
    extractLsb'_eq_self, -Nat.reduceAdd]

theorem formatJ_fields : formatJ o (w.extractLsb' 7 5) (Format.bitsJ w) = w := by
  unfold formatJ Format.bitsJ
  rw [← h]
  simp (disch := decide) only [extractLsb'_append_eq_of_add_le, extractLsb'_append_eq_of_le,
    extractLsb'_append_extractLsb'_eq_extractLsb', extractLsb'_eq_self, -Nat.reduceAdd,
    Nat.reduceSub]

end

end Encode

/-! ## §3. Decoding what was encoded. -/

/-- The bits of an opcode are read back as that opcode. -/
theorem Opcode.ofBits?_bits (o : Opcode) : ofBits? o.bits = some o := by
  cases o <;> rfl

namespace Instr

open Encode

/-- The encoding of an instruction decodes to it. -/
theorem decode_encode (i : Instr) : decode i.encode = .ok i := by
  cases i with
  | op f rd rs1 rs2 =>
      have hf : AluOp.ofFunct? f.funct3 f.funct7 = some f := by cases f <;> rfl
      simp [decode, encode, Fields.ofWord, fields_formatR, Opcode.ofBits?_bits, hf]
  | opImm f rd rs1 imm =>
      have hf : ImmOp.ofFunct? f.funct3 = some f := by cases f <;> rfl
      simp [decode, encode, Fields.ofWord, fields_formatI, Opcode.ofBits?_bits, hf]
  | shift f rd rs1 amount =>
      have hf : ShiftOp.ofFunct? f.alu.funct3 f.alu.funct7 = some f := by cases f <;> rfl
      -- a shift shares its opcode with the immediate operations, but no function code
      have hi : ImmOp.ofFunct? f.alu.funct3 = none := by cases f <;> rfl
      simp [decode, encode, Fields.ofWord, fields_formatR, Opcode.ofBits?_bits, hf, hi]
  | load f rd rs1 offset =>
      have hf : LoadOp.ofFunct? f.funct3 = some f := by cases f <;> rfl
      simp [decode, encode, Fields.ofWord, fields_formatI, Opcode.ofBits?_bits, hf]
  | store width rs2 rs1 offset =>
      have hf : Width.ofFunct? width.funct3 = some width := by cases width <;> rfl
      simp [decode, encode, Fields.ofWord, fields_formatS, Opcode.ofBits?_bits, hf]
  | lui rd imm =>
      simp [decode, encode, Fields.ofWord, fields_formatU, Opcode.ofBits?_bits]
  | auipc rd imm =>
      simp [decode, encode, Fields.ofWord, fields_formatU, Opcode.ofBits?_bits]
  | branch c rs1 rs2 offset =>
      have hf : Condition.ofFunct? c.funct3 = some c := by cases c <;> rfl
      simp [decode, encode, Fields.ofWord, fields_formatB, Opcode.ofBits?_bits, hf]
  | jal rd offset =>
      simp [decode, encode, Fields.ofWord, fields_formatJ, Opcode.ofBits?_bits]
  | jalr rd rs1 offset =>
      simp [decode, encode, Fields.ofWord, fields_formatI, Opcode.ofBits?_bits]
  | halt => rfl
  | mret => rfl

end Instr

/-! ## §4. Encoding what was decoded. -/

/-- Bits read as an opcode are that opcode's bits. -/
theorem Opcode.bits_of_ofBits? {b : BitVec 7} {o : Opcode} (h : ofBits? b = some o) :
    b = o.bits := by
  unfold ofBits? at h
  have hb := List.find?_some h
  exact (eq_of_beq hb).symm

/-- What a table answers was looked up in it. -/
theorem eq_some_of_elim {α : Type} {o : Option α} {a : Anomaly} {x : α}
    (h : o.elim (.error a) .ok = Except.ok x) : o = some x := by
  cases o with
  | none => cases h
  | some y => exact congrArg some (Except.ok.inj h)

namespace Instr

open Encode

/-- A word that decodes is the encoding of what it decodes to: no field of it
goes unread. -/
theorem eq_encode_of_decode {w : Word} {i : Instr} (h : decode w = .ok i) : w = i.encode := by
  unfold decode at h
  dsimp only [Fields.ofWord] at h
  cases ho : Opcode.ofBits? (w.extractLsb' 0 7) with
  | none =>
      rw [ho] at h
      cases h
  | some o =>
      have hbits := Opcode.bits_of_ofBits? ho
      rw [ho] at h
      -- opcode by opcode: the function fields hold the codes of the entry found
      cases o with
      | op =>
          obtain ⟨f, hf, rfl⟩ := Option.map_eq_some_iff.mp (eq_some_of_elim h)
          have hfunct := List.find?_some hf
          simp only [Bool.and_eq_true, beq_iff_eq] at hfunct
          rw [encode, hfunct.1, hfunct.2]
          exact (formatR_fields hbits).symm
      | opImm =>
          rcases Option.or_eq_some_iff.mp (eq_some_of_elim h) with hi | ⟨-, hs⟩
          · obtain ⟨f, hf, rfl⟩ := Option.map_eq_some_iff.mp hi
            have hfunct := List.find?_some hf
            rw [encode, eq_of_beq hfunct]
            exact (formatI_fields hbits).symm
          · obtain ⟨f, hf, rfl⟩ := Option.map_eq_some_iff.mp hs
            have hfunct := List.find?_some hf
            simp only [Bool.and_eq_true, beq_iff_eq] at hfunct
            rw [encode, hfunct.1, hfunct.2]
            exact (formatR_fields hbits).symm
      | load =>
          obtain ⟨f, hf, rfl⟩ := Option.map_eq_some_iff.mp (eq_some_of_elim h)
          have hfunct := List.find?_some hf
          rw [encode, eq_of_beq hfunct]
          exact (formatI_fields hbits).symm
      | store =>
          obtain ⟨width, hf, rfl⟩ := Option.map_eq_some_iff.mp (eq_some_of_elim h)
          have hfunct := List.find?_some hf
          rw [encode, eq_of_beq hfunct]
          exact (formatS_fields hbits).symm
      | branch =>
          obtain ⟨c, hf, rfl⟩ := Option.map_eq_some_iff.mp (eq_some_of_elim h)
          have hfunct := List.find?_some hf
          rw [encode, eq_of_beq hfunct]
          exact (formatB_fields hbits).symm
      | lui | auipc =>
          cases h
          exact (formatU_fields hbits).symm
      | jal =>
          cases h
          exact (formatJ_fields hbits).symm
      | jalr =>
          dsimp only at h
          split at h
          · rename_i hfunct
            cases h
            rw [encode, ← hfunct]
            exact (formatI_fields hbits).symm
          · cases h
      | system =>
          dsimp only at h
          split at h
          · rename_i hw
            cases h
            exact hw
          · split at h
            · rename_i hw
              cases h
              exact hw
            · cases h

/-- A word is read as an instruction exactly if it is the word of it. -/
theorem decode_eq_ok_iff {w : Word} {i : Instr} : decode w = .ok i ↔ w = i.encode := by
  constructor
  · exact eq_encode_of_decode
  · rintro rfl
    exact decode_encode i

end Instr

/-! ## §5. Immediates as numbers. -/

/-- The low five bits are left of a shift amount when its function code is put
above it. -/
theorem extractLsb'_signExtend_append (f7 : BitVec 7) (amount : BitVec 5) :
    ((f7 ++ amount).signExtend 32).extractLsb' 0 5 = amount := by
  apply BitVec.eq_of_getLsbD_eq
  intro i hi
  have h12 : i < 7 + 5 := by omega
  have h32 : i < 32 := by omega
  simp only [BitVec.getLsbD_extractLsb', BitVec.getLsbD_signExtend, BitVec.getLsbD_append, hi,
    h12, h32, decide_true, Bool.true_and, if_true, Nat.zero_add]

theorem toInt_signExtend_12 (imm : BitVec 12) : (imm.signExtend 32).toInt = imm.toInt :=
  BitVec.toInt_signExtend_of_le (by decide)

/-- The offset of a branch or a jump counts halfwords. -/
theorem toInt_signExtend_half {n : Nat} (half : BitVec n) (hn : n + 1 ≤ 32) :
    ((half ++ 0#1).signExtend 32).toInt = 2 * half.toInt := by
  rw [BitVec.toInt_signExtend_of_le hn, BitVec.toInt_append_zero]
  rfl

/-- An upper immediate counts blocks of 4096 bytes. -/
theorem toInt_upper (imm : BitVec 20) : (imm ++ 0#12).toInt = 4096 * imm.toInt := by
  rw [BitVec.toInt_append_zero]
  rfl

/-! ## §6. What the signals tell. -/

namespace Control

/-- The signals name these registers: the destination, written unless it is
`x0`, and the two sources. -/
def Names (k : Control) (rd rs1 rs2 : Option Reg) : Prop :=
  k.rdValid = rd.any (· != 0) ∧ (∀ r, rd = some r → k.rd = r.toNat)
    ∧ k.rs1 = rs1.map BitVec.toNat ∧ k.rs2 = rs2.map BitVec.toNat

/-- The signals tell the instruction: what it does, with which registers, and
its immediate as the number it stands for. -/
def Tells (k : Control) : Instr → Prop
  | .op f rd rs1 rs2 =>
      k.cls = .regReg ∧ k.alu = f ∧ k.Names (some rd) (some rs1) (some rs2)
  | .opImm f rd rs1 imm =>
      k.cls = .regImm ∧ k.alu = f.alu ∧ k.Names (some rd) (some rs1) none
        ∧ k.imm.toInt = imm.toInt
  | .shift f rd rs1 amount =>
      k.cls = .regImm ∧ k.alu = f.alu ∧ k.Names (some rd) (some rs1) none
        ∧ k.imm.extractLsb' 0 5 = amount
  | .load f rd rs1 offset =>
      k.cls = .load ∧ k.width = f.width ∧ k.signedLoad = f.signed
        ∧ k.Names (some rd) (some rs1) none ∧ k.imm.toInt = offset.toInt
  | .store width rs2 rs1 offset =>
      k.cls = .store ∧ k.width = width ∧ k.Names none (some rs1) (some rs2)
        ∧ k.imm.toInt = offset.toInt
  | .lui rd imm =>
      k.cls = .lui ∧ k.alu = .add ∧ k.operandA = .zero ∧ k.Names (some rd) none none
        ∧ k.imm.toInt = 4096 * imm.toInt
  | .auipc rd imm =>
      k.cls = .auipc ∧ k.alu = .add ∧ k.operandA = .pc ∧ k.Names (some rd) none none
        ∧ k.imm.toInt = 4096 * imm.toInt
  | .branch c rs1 rs2 half =>
      k.cls = .branch ∧ k.branch = some c ∧ k.Names none (some rs1) (some rs2)
        ∧ k.imm.toInt = 2 * half.toInt
  | .jal rd half => k.cls = .jal ∧ k.Names (some rd) none none ∧ k.imm.toInt = 2 * half.toInt
  | .jalr rd rs1 offset =>
      k.cls = .jalr ∧ k.Names (some rd) (some rs1) none ∧ k.imm.toInt = offset.toInt
  | .halt => k.cls = .halt ∧ k.Names none none none
  | .mret => k.cls = .mret ∧ k.Names none none none

/-- Control of an instruction with a destination names it, unless it is `x0`. -/
theorem names_producing {k : Control} {rd : Reg} (rs1 rs2 : Option Reg)
    (hd : k.rd = rd.toNat ∧ k.rdValid = (rd != 0))
    (hs : k.rs1 = rs1.map BitVec.toNat ∧ k.rs2 = rs2.map BitVec.toNat) :
    k.Names (some rd) rs1 rs2 := by
  refine ⟨hd.2, ?_, hs⟩
  intro r hr
  cases hr
  exact hd.1

/-- Control that is not to write names no destination. -/
theorem names_nothing {k : Control} (rs1 rs2 : Option Reg) (hd : k.rdValid = false)
    (hs : k.rs1 = rs1.map BitVec.toNat ∧ k.rs2 = rs2.map BitVec.toNat) :
    k.Names none rs1 rs2 := by
  refine ⟨hd, ?_, hs⟩
  intro r hr
  cases hr

/-- **The signals of an instruction tell it.** -/
theorem tells_control (i : Instr) : i.control.Tells i := by
  cases i with
  | op f rd rs1 rs2 =>
      exact ⟨rfl, rfl, names_producing (some rs1) (some rs2) ⟨rfl, rfl⟩ ⟨rfl, rfl⟩⟩
  | opImm f rd rs1 imm =>
      exact ⟨rfl, rfl, names_producing (some rs1) none ⟨rfl, rfl⟩ ⟨rfl, rfl⟩,
        toInt_signExtend_12 imm⟩
  | shift f rd rs1 amount =>
      exact ⟨rfl, rfl, names_producing (some rs1) none ⟨rfl, rfl⟩ ⟨rfl, rfl⟩,
        extractLsb'_signExtend_append _ amount⟩
  | load f rd rs1 offset =>
      exact ⟨rfl, rfl, rfl, names_producing (some rs1) none ⟨rfl, rfl⟩ ⟨rfl, rfl⟩,
        toInt_signExtend_12 offset⟩
  | store width rs2 rs1 offset =>
      exact ⟨rfl, rfl, names_nothing (some rs1) (some rs2) rfl ⟨rfl, rfl⟩,
        toInt_signExtend_12 offset⟩
  | lui rd imm | auipc rd imm =>
      exact ⟨rfl, rfl, rfl, names_producing none none ⟨rfl, rfl⟩ ⟨rfl, rfl⟩, toInt_upper imm⟩
  | branch c rs1 rs2 half =>
      exact ⟨rfl, rfl, names_nothing (some rs1) (some rs2) rfl ⟨rfl, rfl⟩,
        toInt_signExtend_half half (by decide)⟩
  | jal rd half =>
      exact ⟨rfl, names_producing none none ⟨rfl, rfl⟩ ⟨rfl, rfl⟩,
        toInt_signExtend_half half (by decide)⟩
  | jalr rd rs1 offset =>
      exact ⟨rfl, names_producing (some rs1) none ⟨rfl, rfl⟩ ⟨rfl, rfl⟩,
        toInt_signExtend_12 offset⟩
  | halt | mret => exact ⟨rfl, names_nothing none none rfl ⟨rfl, rfl⟩⟩

/-- Where the instruction decodes, so do its control signals. -/
theorem decode_of_decode {w : Word} {i : Instr} (h : Instr.decode w = .ok i) :
    decode w = .ok i.control := by
  unfold decode
  rw [h]
  rfl

/-- Control signals come from an instruction alone. -/
theorem exists_of_decode {w : Word} {k : Control} (h : decode w = .ok k) :
    ∃ i, Instr.decode w = .ok i ∧ k = i.control := by
  unfold decode at h
  cases hd : Instr.decode w with
  | error a =>
      rw [hd] at h
      cases h
  | ok i =>
      rw [hd] at h
      exact ⟨i, rfl, (Except.ok.inj h).symm⟩

/-- **Decoding accepts the supported words and no others.**  The word of every
instruction is decoded to signals that tell that instruction, and a word is
decoded at all exactly if it is the word of one instruction. -/
theorem decoding_exact :
    (∀ i : Instr, ∃ k, decode i.encode = .ok k ∧ k.Tells i)
      ∧ ∀ w : Word, (∃ k, decode w = .ok k) ↔ ∃! i : Instr, w = i.encode := by
  constructor
  · intro i
    exact ⟨i.control, decode_of_decode (Instr.decode_encode i), tells_control i⟩
  · intro w
    constructor
    · rintro ⟨k, hk⟩
      obtain ⟨i, hi, -⟩ := exists_of_decode hk
      refine ⟨i, Instr.eq_encode_of_decode hi, ?_⟩
      -- another instruction with this word would have been read instead
      intro j hj
      have hj' : Instr.decode w = .ok j := Instr.decode_eq_ok_iff.mpr hj
      rw [hi] at hj'
      exact (Except.ok.inj hj').symm
    · rintro ⟨i, hi, -⟩
      exact ⟨i.control, decode_of_decode (Instr.decode_eq_ok_iff.mpr hi)⟩

example : (Instr.jal 1 (-2)).encode = 0xFFDFF0EF := by decide

end Control

end FiveStage
