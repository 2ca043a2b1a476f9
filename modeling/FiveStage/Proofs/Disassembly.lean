/-
  FiveStage.Proofs.Disassembly
  ────────────────────────────
  **THE TEXT OF A WORD TELLS ITS INSTRUCTION.**

  The decoder and the disassembler go by the fields of a word each on its own.
  `Instr.assembly` is the text of an instruction with its operands, and the
  disassembler writes that text for every word the decoder reads:

      assembly_injective   no two instructions have one text
      assembly?_ofWord     the tables of the two agree, opcode by opcode
      disassemble_encode   the word of an instruction has its text
      disassembly_exact    so the text of a word tells the word

  A text is taken apart from its left end.  No mnemonic has a blank in it and
  no operand a comma, so mnemonic and operands can be told apart again; the
  mnemonic fixes the operation, and every operand is read back as its value.
-/
import FiveStage.Isa.Assembly
import FiveStage.Proofs.Encoding
import FiveStage.Proofs.ImageGrammar
import Mathlib

namespace FiveStage

/-! ## §1. Operands read back. -/

/-- Each character that hexadecimal text is made of is a digit of the image
grammar. -/
theorem hexDigit_digitChar : ∀ d < 16, HexDigit (Nat.digitChar d) d := by decide

/-- The digits written of a number are a numeral of it. -/
theorem hexNumeral_toDigits (n : Nat) : HexNumeral (Nat.toDigits 16 n) n := by
  induction n using Nat.strongRecOn with
  | ind n ih =>
      rw [Nat.toDigits_eq_if (by decide)]
      split
      · rename_i hn
        exact .digit (hexDigit_digitChar n hn)
      · have hlast := hexDigit_digitChar (n % 16) (Nat.mod_lt n (by decide))
        have hsnoc := HexNumeral.snoc (ih (n / 16) (by omega)) hlast
        rwa [Nat.div_add_mod] at hsnoc

/-- Two numbers of the same hexadecimal text are one number. -/
theorem hex_injective {m n : Nat} (h : hex m = hex n) : m = n := by
  have hdigits : Nat.toDigits 16 m = Nat.toDigits 16 n :=
    String.ofList_injective ((String.append_right_inj "0x").mp h)
  have hm := digits?_iff.mpr (hexNumeral_toDigits m)
  rw [hdigits, digits?_iff.mpr (hexNumeral_toDigits n)] at hm
  exact (Option.some.inj hm).symm

/-- The 32 register names are distinct. -/
theorem Reg.name_injective {r r' : Reg} (h : r.name = r'.name) : r = r' := by
  revert r r'
  decide +kernel

/-- A signed number is written with digits and a minus sign. -/
theorem mem_toString_int {z : Int} {c : Char} (h : c ∈ (toString z).toList) :
    c = '-' ∨ c.isDigit = true := by
  rw [Int.toString_eq_repr, Int.repr_eq_if] at h
  split at h
  · rw [Nat.toList_repr] at h
    exact .inr (Nat.isDigit_of_mem_toDigits (by decide) (by decide) h)
  · rw [String.toList_append, Nat.toList_repr] at h
    rcases List.mem_append.mp h with h | h
    · exact .inl (List.mem_singleton.mp h)
    · exact .inr (Nat.isDigit_of_mem_toDigits (by decide) (by decide) h)

/-- Two texts that are the same are so up to the first place of a character and
behind it. -/
theorem append_cons_inj {c : Char} {a b a' b' : List Char} (ha : c ∉ a) (ha' : c ∉ a')
    (h : a ++ c :: b = a' ++ c :: b') : a = a' ∧ b = b' := by
  induction a generalizing a' with
  | nil =>
      cases a' with
      | nil => exact ⟨rfl, (List.cons.inj h).2⟩
      | cons d a' =>
          obtain ⟨rfl, -⟩ := List.cons.inj h
          exact absurd List.mem_cons_self ha'
  | cons d a ih =>
      cases a' with
      | nil =>
          obtain ⟨rfl, -⟩ := List.cons.inj h
          exact absurd List.mem_cons_self ha
      | cons d' a' =>
          obtain ⟨rfl, htail⟩ := List.cons.inj h
          rw [List.mem_cons, not_or] at ha ha'
          obtain ⟨rfl, hb⟩ := ih ha.2 ha'.2 htail
          exact ⟨rfl, hb⟩

/-- An address operand determines its offset and its base register: the offset
ends at the bracket. -/
theorem addressOperand_injective {z z' : Int} {r r' : Reg}
    (h : addressOperand z r = addressOperand z' r') : z = z' ∧ r = r' := by
  have hparen (z : Int) : '(' ∉ (toString z).toList := by
    intro hc
    rcases mem_toString_int hc with hc | hc <;> exact absurd hc (by decide)
  have hchars (z : Int) (r : Reg) : (addressOperand z r).toList
      = (toString z).toList ++ '(' :: (r.name ++ ")").toList := by
    unfold addressOperand
    rw [String.append_assoc, String.append_assoc, String.toList_append, String.toList_append]
    rfl
  rw [← String.toList_inj, hchars, hchars] at h
  obtain ⟨hz, hr⟩ := append_cons_inj (hparen z) (hparen z') h
  refine ⟨Int.repr_injective (String.toList_inj.mp hz), Reg.name_injective ?_⟩
  exact (String.append_left_inj ")").mp (String.toList_inj.mp hr)

/-! ## §2. Lines. -/

/-- A mnemonic and its operands; the mnemonic alone where there are none. -/
def line (mnemonic : String) : List String → String
  | [] => mnemonic
  | operand :: operands => asm mnemonic (operand :: operands)

/-- A comma and a blank stand between the first operand and the rest. -/
theorem toList_intercalate_cons (s s' : String) (ss : List String) :
    (", ".intercalate (s :: s' :: ss)).toList
      = s.toList ++ ',' :: ' ' :: (", ".intercalate (s' :: ss)).toList := by
  rw [String.intercalate_cons_cons, String.append_assoc, String.toList_append,
    String.toList_append]
  rfl

/-- Operands without a comma are told apart by the commas between them. -/
theorem intercalate_inj {s t : String} {ss ts : List String}
    (hs : ∀ x ∈ s :: ss, ',' ∉ x.toList) (ht : ∀ x ∈ t :: ts, ',' ∉ x.toList)
    (h : ", ".intercalate (s :: ss) = ", ".intercalate (t :: ts)) : s :: ss = t :: ts := by
  have hcomma (x y : String) (ys : List String) :
      ',' ∈ (", ".intercalate (x :: y :: ys)).toList := by
    rw [toList_intercalate_cons]
    exact List.mem_append_right _ List.mem_cons_self
  -- The first comma ends the first operand, and a list of one has none.
  induction ss generalizing s t ts with
  | nil =>
      cases ts with
      | nil =>
          rw [String.intercalate_singleton, String.intercalate_singleton] at h
          rw [h]
      | cons t' ts =>
          have hmem := hcomma t t' ts
          rw [← h, String.intercalate_singleton] at hmem
          exact absurd hmem (hs s List.mem_cons_self)
  | cons s' ss ih =>
      cases ts with
      | nil =>
          have hmem := hcomma s s' ss
          rw [h, String.intercalate_singleton] at hmem
          exact absurd hmem (ht t List.mem_cons_self)
      | cons t' ts =>
          rw [← String.toList_inj, toList_intercalate_cons, toList_intercalate_cons] at h
          obtain ⟨hfirst, hrest⟩ :=
            append_cons_inj (hs s List.mem_cons_self) (ht t List.mem_cons_self) h
          have htail := ih (fun x hx => hs x (List.mem_cons_of_mem s hx))
            (fun x hx => ht x (List.mem_cons_of_mem t hx))
            (String.toList_inj.mp (List.cons.inj hrest).2)
          rw [String.toList_inj.mp hfirst, htail]

/-- A line of assembly is the mnemonic, a blank and the operands. -/
theorem toList_asm (mnemonic : String) (operands : List String) :
    (asm mnemonic operands).toList
      = mnemonic.toList ++ ' ' :: (", ".intercalate operands).toList := by
  unfold asm
  rw [String.append_assoc, String.toList_append, String.toList_append]
  rfl

/-- A line tells its mnemonic and its operands. -/
theorem line_inj {m m' : String} {ss ts : List String} (hm : ' ' ∉ m.toList)
    (hm' : ' ' ∉ m'.toList) (hs : ∀ x ∈ ss, ',' ∉ x.toList) (ht : ∀ x ∈ ts, ',' ∉ x.toList)
    (h : line m ss = line m' ts) : m = m' ∧ ss = ts := by
  have hblank (m : String) (xs : List String) : ' ' ∈ (asm m xs).toList := by
    rw [toList_asm]
    exact List.mem_append_right _ List.mem_cons_self
  cases ss with
  | nil =>
      cases ts with
      | nil => exact ⟨h, rfl⟩
      | cons t ts =>
          -- a line with operands has a blank in it, and a mnemonic has none
          have hmem := hblank m' (t :: ts)
          rw [show asm m' (t :: ts) = m from h.symm] at hmem
          exact absurd hmem hm
  | cons s ss =>
      cases ts with
      | nil =>
          have hmem := hblank m (s :: ss)
          rw [show asm m (s :: ss) = m' from h] at hmem
          exact absurd hmem hm'
      | cons t ts =>
          have hchars : (asm m (s :: ss)).toList = (asm m' (t :: ts)).toList :=
            congrArg String.toList h
          rw [toList_asm, toList_asm] at hchars
          obtain ⟨hmnemonic, hoperands⟩ := append_cons_inj hm hm' hchars
          exact ⟨String.toList_inj.mp hmnemonic,
            intercalate_inj hs ht (String.toList_inj.mp hoperands)⟩

/-! ## §3. The text of an instruction. -/

/-- Mnemonic of a register-register operation. -/
def AluOp.mnemonic : AluOp → String
  | .add => "add"
  | .sub => "sub"
  | .sll => "sll"
  | .slt => "slt"
  | .sltu => "sltu"
  | .xor => "xor"
  | .srl => "srl"
  | .sra => "sra"
  | .or => "or"
  | .and => "and"

/-- Mnemonic of a register-immediate operation. -/
def ImmOp.mnemonic : ImmOp → String
  | .add => "addi"
  | .slt => "slti"
  | .sltu => "sltiu"
  | .xor => "xori"
  | .or => "ori"
  | .and => "andi"

/-- Mnemonic of a shift by a constant. -/
def ShiftOp.mnemonic : ShiftOp → String
  | .sll => "slli"
  | .srl => "srli"
  | .sra => "srai"

/-- Mnemonic of a load. -/
def LoadOp.mnemonic : LoadOp → String
  | .lb => "lb"
  | .lh => "lh"
  | .lw => "lw"
  | .lbu => "lbu"
  | .lhu => "lhu"

/-- Mnemonic of the store of this width. -/
def Width.storeMnemonic : Width → String
  | .byte => "sb"
  | .half => "sh"
  | .word => "sw"

/-- Mnemonic of the branch on this condition. -/
def Condition.mnemonic : Condition → String
  | .eq => "beq"
  | .ne => "bne"
  | .lt => "blt"
  | .ge => "bge"
  | .ltu => "bltu"
  | .geu => "bgeu"

namespace Instr

/-- Mnemonic of an instruction. -/
def mnemonic : Instr → String
  | op f .. => f.mnemonic
  | opImm f .. => f.mnemonic
  | shift f .. => f.mnemonic
  | load f .. => f.mnemonic
  | store width .. => width.storeMnemonic
  | lui .. => "lui"
  | auipc .. => "auipc"
  | branch c .. => c.mnemonic
  | jal .. => "jal"
  | jalr .. => "jalr"
  | halt => "halt"
  | mret => "mret"

/-- The operands of an instruction as they are written. -/
def operands : Instr → List String
  | op _ rd rs1 rs2 => [rd.name, rs1.name, rs2.name]
  | opImm _ rd rs1 imm => [rd.name, rs1.name, toString imm.toInt]
  | shift _ rd rs1 amount => [rd.name, rs1.name, toString amount.toNat]
  | load _ rd rs1 offset => [rd.name, addressOperand offset.toInt rs1]
  | store _ rs2 rs1 offset => [rs2.name, addressOperand offset.toInt rs1]
  | lui rd imm | auipc rd imm => [rd.name, hex imm.toNat]
  | branch _ rs1 rs2 half => [rs1.name, rs2.name, toString (2 * half.toInt)]
  | jal rd half => [rd.name, toString (2 * half.toInt)]
  | jalr rd rs1 offset => [rd.name, addressOperand offset.toInt rs1]
  | halt | mret => []

/-- An instruction as text. -/
def assembly (i : Instr) : String :=
  if i = nop then "nop" else line i.mnemonic i.operands

/-! ## §4. The mnemonic tells the operation. -/

/-- The same operation with all operands zero. -/
def bare : Instr → Instr
  | op f .. => op f 0 0 0
  | opImm f .. => opImm f 0 0 0
  | shift f .. => shift f 0 0 0
  | load f .. => load f 0 0 0
  | store width .. => store width 0 0 0
  | lui .. => lui 0 0
  | auipc .. => auipc 0 0
  | branch c .. => branch c 0 0 0
  | jal .. => jal 0 0
  | jalr .. => jalr 0 0 0
  | halt => halt
  | mret => mret

/-- All operations. -/
def operations : List Instr :=
  [AluOp.add, .sub, .sll, .slt, .sltu, .xor, .srl, .sra, .or, .and].map (op · 0 0 0)
    ++ [ImmOp.add, .slt, .sltu, .xor, .or, .and].map (opImm · 0 0 0)
    ++ [ShiftOp.sll, .srl, .sra].map (shift · 0 0 0)
    ++ [LoadOp.lb, .lh, .lw, .lbu, .lhu].map (load · 0 0 0)
    ++ [Width.byte, .half, .word].map (store · 0 0 0)
    ++ [Condition.eq, .ne, .lt, .ge, .ltu, .geu].map (branch · 0 0 0)
    ++ [lui 0 0, auipc 0 0, jal 0 0, jalr 0 0 0, halt, mret]

/-- Every instruction's bare form is in the list of operations. -/
theorem bare_mem_operations (i : Instr) : i.bare ∈ operations := by
  cases i with
  | op f | opImm f | shift f | load f => cases f <;> simp [bare, operations]
  | store width => cases width <;> simp [bare, operations]
  | branch c => cases c <;> simp [bare, operations]
  | lui | auipc | jal | jalr | halt | mret => simp [bare, operations]

theorem mnemonic_bare (i : Instr) : i.bare.mnemonic = i.mnemonic := by
  cases i <;> rfl

/-- No two operations have one mnemonic. -/
theorem nodup_mnemonics : (operations.map mnemonic).Nodup := by decide

/-- A mnemonic names one operation. -/
theorem bare_eq_of_mnemonic {i j : Instr} (h : i.mnemonic = j.mnemonic) : i.bare = j.bare := by
  refine List.inj_on_of_nodup_map nodup_mnemonics i.bare_mem_operations
    j.bare_mem_operations ?_
  rw [mnemonic_bare, mnemonic_bare, h]

theorem mnemonic_mem_operations (i : Instr) : i.mnemonic ∈ operations.map mnemonic :=
  List.mem_map.mpr ⟨i.bare, i.bare_mem_operations, i.mnemonic_bare⟩

/-- No mnemonic holds a blank, so the first blank of a line ends it. -/
theorem blank_not_mem_mnemonic (i : Instr) : ' ' ∉ i.mnemonic.toList := by
  have hall : ∀ m ∈ operations.map mnemonic, ' ' ∉ m.toList := by decide
  exact hall i.mnemonic i.mnemonic_mem_operations

/-! ## §5. The operands tell the rest. -/

theorem comma_not_mem_name (r : Reg) : ',' ∉ r.name.toList := by
  revert r
  decide +kernel

theorem comma_not_mem_toString (z : Int) : ',' ∉ (toString z).toList := by
  intro hc
  rcases mem_toString_int hc with hc | hc <;> exact absurd hc (by decide)

theorem comma_not_mem_toString_nat (n : Nat) : ',' ∉ (toString n).toList := by
  intro hc
  rw [Nat.toString_eq_repr, Nat.toList_repr] at hc
  exact absurd (Nat.isDigit_of_mem_toDigits (by decide) (by decide) hc) (by decide)

theorem comma_not_mem_addressOperand (z : Int) (r : Reg) :
    ',' ∉ (addressOperand z r).toList := by
  unfold addressOperand
  simp only [String.toList_append, List.mem_append, not_or]
  exact ⟨⟨⟨comma_not_mem_toString z, by decide⟩, comma_not_mem_name r⟩, by decide⟩

theorem comma_not_mem_hex (n : Nat) : ',' ∉ (hex n).toList := by
  unfold hex hexDigits
  rw [String.toList_append, List.mem_append, not_or]
  refine ⟨by decide, ?_⟩
  intro hc
  rw [String.toList_ofList] at hc
  obtain ⟨d, hd⟩ := (hexNumeral_toDigits n).isHexDigit ',' hc
  rw [← digit?_iff] at hd
  cases hd

/-- No operand holds a comma, so the commas of a line separate its operands. -/
theorem comma_not_mem_operands (i : Instr) : ∀ x ∈ i.operands, ',' ∉ x.toList := by
  cases i <;>
    simp only [operands, List.forall_mem_cons, List.not_mem_nil, comma_not_mem_name,
      comma_not_mem_toString, comma_not_mem_toString_nat, comma_not_mem_addressOperand,
      comma_not_mem_hex, not_false_eq_true, false_implies, implies_true, and_self]

/-- The operation and the text of the operands fix the instruction. -/
theorem eq_of_operands {i j : Instr} (hbare : i.bare = j.bare)
    (h : i.operands = j.operands) : i = j := by
  -- the operation is the same, so the operands can be compared one by one
  cases i <;> cases j <;> cases hbare <;>
    simp only [operands, List.cons.injEq, and_true] at h
  case op.op =>
    obtain ⟨hd, h1, h2⟩ := h
    rw [Reg.name_injective hd, Reg.name_injective h1, Reg.name_injective h2]
  case opImm.opImm =>
    obtain ⟨hd, h1, himm⟩ := h
    rw [Reg.name_injective hd, Reg.name_injective h1,
      BitVec.toInt_inj.mp (Int.repr_injective himm)]
  case shift.shift =>
    obtain ⟨hd, h1, hamount⟩ := h
    rw [Reg.name_injective hd, Reg.name_injective h1,
      BitVec.toNat_inj.mp (Nat.repr_injective hamount)]
  case load.load | store.store | jalr.jalr =>
    obtain ⟨hr, haddress⟩ := h
    obtain ⟨hoffset, h1⟩ := addressOperand_injective haddress
    rw [Reg.name_injective hr, h1, BitVec.toInt_inj.mp hoffset]
  case lui.lui | auipc.auipc =>
    obtain ⟨hd, himm⟩ := h
    rw [Reg.name_injective hd, BitVec.toNat_inj.mp (hex_injective himm)]
  case branch.branch =>
    obtain ⟨h1, h2, hoffset⟩ := h
    -- offsets are written in bytes, twice what the word holds
    have hhalf := Int.eq_of_mul_eq_mul_left (by decide) (Int.repr_injective hoffset)
    rw [Reg.name_injective h1, Reg.name_injective h2, BitVec.toInt_inj.mp hhalf]
  case jal.jal =>
    obtain ⟨hd, hoffset⟩ := h
    have hhalf := Int.eq_of_mul_eq_mul_left (by decide) (Int.repr_injective hoffset)
    rw [Reg.name_injective hd, BitVec.toInt_inj.mp hhalf]
  case halt.halt | mret.mret => rfl

/-! ## §6. No two instructions have one text. -/

/-- A text without a blank that is no mnemonic is not the line of an
instruction. -/
theorem line_ne {text : String} (hblank : ' ' ∉ text.toList)
    (htext : text ∉ operations.map mnemonic) (i : Instr) :
    line i.mnemonic i.operands ≠ text := by
  intro h
  change line i.mnemonic i.operands = line text [] at h
  obtain ⟨rfl, -⟩ := line_inj i.blank_not_mem_mnemonic hblank i.comma_not_mem_operands
    (List.forall_mem_nil _) h
  exact htext i.mnemonic_mem_operations

/-- The text of an instruction determines it: the mnemonic gives the operation,
the operands its fields. -/
theorem assembly_injective {i j : Instr} (h : i.assembly = j.assembly) : i = j := by
  have hnop := line_ne (by decide : ' ' ∉ "nop".toList) (by decide)
  unfold assembly at h
  by_cases hi : i = nop <;> by_cases hj : j = nop
  · rw [hi, hj]
  · rw [if_pos hi, if_neg hj] at h
    exact absurd h.symm (hnop j)
  · rw [if_neg hi, if_pos hj] at h
    exact absurd h (hnop i)
  · rw [if_neg hi, if_neg hj] at h
    obtain ⟨hmnemonic, hoperands⟩ := line_inj i.blank_not_mem_mnemonic
      j.blank_not_mem_mnemonic i.comma_not_mem_operands j.comma_not_mem_operands h
    exact eq_of_operands (bare_eq_of_mnemonic hmnemonic) hoperands

/-- No instruction is written as the text of a word that does not decode. -/
theorem assembly_ne_unknown (i : Instr) : i.assembly ≠ "unknown" := by
  unfold assembly
  split
  · decide
  · exact line_ne (by decide) (by decide) i

end Instr

/-! ## §7. The disassembler and the decoder. -/

section

open Fields

-- The tables of the two are compared function code by function code.

/-- The disassembler's table of mnemonics is the decoder's table of operations,
by their names; so for each format. -/
theorem opMnemonic?_eq : ∀ f3 f7,
    opMnemonic? f3 f7 = (AluOp.ofFunct? f3 f7).map AluOp.mnemonic := by
  decide +kernel

theorem shiftMnemonic?_eq : ∀ f3 f7,
    shiftMnemonic? f3 f7 = (ShiftOp.ofFunct? f3 f7).map ShiftOp.mnemonic := by
  decide +kernel

theorem immMnemonic?_eq : ∀ f3,
    immMnemonic? f3 = (ImmOp.ofFunct? f3).map ImmOp.mnemonic := by
  decide +kernel

/-- A shift is no other register-immediate operation. -/
theorem immOp_none_of_shift : ∀ f3 f7, (ShiftOp.ofFunct? f3 f7).isSome →
    ImmOp.ofFunct? f3 = none := by
  decide +kernel

theorem loadMnemonic?_eq : ∀ f3,
    loadMnemonic? f3 = (LoadOp.ofFunct? f3).map LoadOp.mnemonic := by
  decide +kernel

theorem storeMnemonic?_eq : ∀ f3,
    storeMnemonic? f3 = (Width.ofFunct? f3).map Width.storeMnemonic := by
  decide +kernel

theorem branchMnemonic?_eq : ∀ f3,
    branchMnemonic? f3 = (Condition.ofFunct? f3).map Condition.mnemonic := by
  decide +kernel

theorem toNat_upper_ushiftRight (imm : BitVec 20) :
    ((imm ++ 0#12) >>> 12).toNat = imm.toNat := by
  rw [BitVec.toNat_ushiftRight, BitVec.toNat_append, Nat.shiftLeft_eq, BitVec.toNat_zero,
    Nat.or_zero, Nat.shiftRight_eq_div_pow]
  exact Nat.mul_div_cancel imm.toNat (by decide)

section

variable {w : Word} {o : Opcode} (ho : Opcode.ofBits? (ofWord w).opcode = some o)

include ho

/-- The immediate the disassembler prints is the one of the opcode's format. -/
theorem imm_ofWord {format : Format} (hformat : o.format? = some format) :
    (ofWord w).imm = format.immediate w := by
  unfold ofWord at ho ⊢
  dsimp only at ho ⊢
  rw [ho, Option.bind_some, hformat]
  rfl

theorem toInt_imm_I (hformat : o.format? = some .I) :
    (ofWord w).imm.toInt = (Format.bitsI w).toInt := by
  rw [imm_ofWord ho hformat]
  exact toInt_signExtend_12 (Format.bitsI w)

theorem toInt_imm_S (hformat : o.format? = some .S) :
    (ofWord w).imm.toInt = (Format.bitsS w).toInt := by
  rw [imm_ofWord ho hformat]
  exact toInt_signExtend_12 (Format.bitsS w)

/-- A branch offset is printed as twice its twelve bits. -/
theorem toInt_imm_B (hformat : o.format? = some .B) :
    (ofWord w).imm.toInt = 2 * (Format.bitsB w).toInt := by
  rw [imm_ofWord ho hformat]
  exact toInt_signExtend_half (Format.bitsB w) (by decide)

theorem upperOperand_ofWord (hformat : o.format? = some .U) :
    (ofWord w).upperOperand = hex (Format.bitsU w).toNat := by
  unfold upperOperand
  rw [imm_ofWord ho hformat]
  exact congrArg hex (toNat_upper_ushiftRight (Format.bitsU w))

theorem toInt_imm_J (hformat : o.format? = some .J) :
    (ofWord w).imm.toInt = 2 * (Format.bitsJ w).toInt := by
  rw [imm_ofWord ho hformat]
  exact toInt_signExtend_half (Format.bitsJ w) (by decide)

end

/-- **The disassembler and the decoder read the same words**, and they read the
same from them, opcode by opcode. -/
theorem assembly?_ofWord {w : Word} (hhalt : w ≠ Encode.halt) (hmret : w ≠ Encode.mret) :
    (ofWord w).assembly?
      = (Instr.decode w).toOption.map fun i => line i.mnemonic i.operands := by
  unfold assembly? Instr.decode
  dsimp only
  cases ho : Opcode.ofBits? (ofWord w).opcode with
  | none => rfl
  | some o =>
      cases o with
      | op =>
          dsimp only
          rw [opMnemonic?_eq]
          cases AluOp.ofFunct? (ofWord w).funct3 (ofWord w).funct7 <;> rfl
      | opImm =>
          dsimp only
          rw [shiftMnemonic?_eq, toInt_imm_I ho rfl]
          -- the decoder looks for the shifts last, the disassembler first
          cases hshift : ShiftOp.ofFunct? (ofWord w).funct3 (ofWord w).funct7 with
          | some f =>
              rw [immOp_none_of_shift _ (ofWord w).funct7 (by rw [hshift]; rfl)]
              rfl
          | none =>
              dsimp only [Option.map_none]
              rw [immMnemonic?_eq]
              cases ImmOp.ofFunct? (ofWord w).funct3 <;> rfl
      | load =>
          dsimp only
          rw [loadMnemonic?_eq, toInt_imm_I ho rfl]
          cases LoadOp.ofFunct? (ofWord w).funct3 <;> rfl
      | store =>
          dsimp only
          rw [storeMnemonic?_eq, toInt_imm_S ho rfl]
          cases Width.ofFunct? (ofWord w).funct3 <;> rfl
      | branch =>
          dsimp only
          rw [branchMnemonic?_eq, toInt_imm_B ho rfl]
          cases Condition.ofFunct? (ofWord w).funct3 <;> rfl
      | lui | auipc =>
          dsimp only
          rw [upperOperand_ofWord ho rfl]
          rfl
      | jal =>
          dsimp only
          rw [toInt_imm_J ho rfl]
          rfl
      | jalr =>
          dsimp only
          rw [toInt_imm_I ho rfl]
          split <;> rfl
      | system =>
          dsimp only
          rw [if_neg hhalt, if_neg hmret]
          rfl

end

/-! ## §8. What a text says. -/

/-- Past the three words with a text of their own, the text is the decoded
instruction's line, or `unknown`. -/
theorem disassemble_of_ne {w : Word} (hhalt : w ≠ Encode.halt) (hmret : w ≠ Encode.mret)
    (hnop : w ≠ nopWord) :
    disassemble w
      = ((Instr.decode w).toOption.map fun i => line i.mnemonic i.operands).getD "unknown" := by
  unfold disassemble
  rw [if_neg hhalt, if_neg hmret, if_neg hnop, assembly?_ofWord hhalt hmret]

/-- The disassembler writes the instruction that the decoder reads. -/
theorem disassemble_encode (i : Instr) : disassemble i.encode = i.assembly := by
  have hword {w : Word} {j : Instr} (hj : Instr.decode w = .ok j) (hw : i.encode = w) :
      i = j := by
    rw [← hw, Instr.decode_encode] at hj
    exact Except.ok.inj hj
  by_cases hhalt : i.encode = Encode.halt
  · cases hword (j := .halt) rfl hhalt
    decide
  by_cases hmret : i.encode = Encode.mret
  · cases hword (j := .mret) rfl hmret
    decide
  by_cases hnop : i.encode = nopWord
  · cases hword (j := .nop) rfl hnop
    decide
  have hi : i ≠ .nop := by
    rintro rfl
    exact hnop encode_nop
  rw [disassemble_of_ne hhalt hmret hnop, Instr.decode_encode, Instr.assembly, if_neg hi]
  rfl

/-- A word that the decoder refuses has no other text. -/
theorem disassemble_of_error {w : Word} {a : Anomaly} (h : Instr.decode w = .error a) :
    disassemble w = "unknown" := by
  have hne {v : Word} {i : Instr} (hv : Instr.decode v = .ok i) : w ≠ v := by
    rintro rfl
    rw [h] at hv
    cases hv
  rw [disassemble_of_ne (hne (i := .halt) rfl) (hne (i := .mret) rfl) (hne (i := .nop) rfl), h]
  rfl

/-- **The disassembler and the decoder agree on every word.**  A word is
`unknown` exactly if decoding fails, and no two words that are decoded have
one text: the text tells the instruction with all its operands. -/
theorem disassembly_exact :
    (∀ w : Word, disassemble w = "unknown" ↔ ∃ a, Control.decode w = .error a)
      ∧ ∀ w₁ w₂ : Word, (∃ k, Control.decode w₁ = .ok k) → (∃ k, Control.decode w₂ = .ok k) →
          disassemble w₁ = disassemble w₂ → w₁ = w₂ := by
  constructor
  · intro w
    cases h : Instr.decode w with
    | ok i =>
        have htext : disassemble w ≠ "unknown" := by
          rw [Instr.eq_encode_of_decode h, disassemble_encode]
          exact i.assembly_ne_unknown
        rw [Control.decode_of_decode h]
        exact iff_of_false htext nofun
    | error a =>
        have herror : Control.decode w = .error a := by
          unfold Control.decode
          rw [h]
          rfl
        exact iff_of_true (disassemble_of_error h) ⟨a, herror⟩
  · rintro w₁ w₂ ⟨k₁, hk₁⟩ ⟨k₂, hk₂⟩ htext
    -- both words encode an instruction, and their texts are its text
    obtain ⟨i, hi, -⟩ := Control.exists_of_decode hk₁
    obtain ⟨j, hj, -⟩ := Control.exists_of_decode hk₂
    rw [Instr.eq_encode_of_decode hi, Instr.eq_encode_of_decode hj, disassemble_encode,
      disassemble_encode] at htext
    rw [Instr.eq_encode_of_decode hi, Instr.eq_encode_of_decode hj,
      Instr.assembly_injective htext]

/-- `jal ra, -4` is the text of one word only. -/
theorem disassembly_exact_jal :
    disassemble 0xFFDFF0EF = "jal ra, -4"
      ∧ ∀ w : Word, (∃ k, Control.decode w = .ok k) → disassemble w = "jal ra, -4" →
          w = 0xFFDFF0EF := by
  have hjal : disassemble 0xFFDFF0EF = "jal ra, -4" := by decide +kernel
  refine ⟨hjal, ?_⟩
  intro w hw htext
  refine disassembly_exact.2 w 0xFFDFF0EF hw ⟨(Instr.jal 1 (-2)).control, rfl⟩ ?_
  rw [htext, hjal]

end FiveStage
