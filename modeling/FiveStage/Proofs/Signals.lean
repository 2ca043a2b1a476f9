/-
  FiveStage.Proofs.Signals
  ────────────────────────
  **THE SIGNALS SAY WHAT THE INSTRUCTION DOES.**

  The stages obey control signals and have never heard of instructions; the
  sequential machine knows instructions and no signals.  Here the two meet.
  For every word, executed with the registers of a hart at its address,

      execute asks for the transfer of its effect          transfer_effect
      the memory stage makes of it the register write, the
      memory and the fault of its effect                   complete_effect

  Both go through the instruction of the word, one case for each; a word
  that is none has the illegal signals and no effect.
-/
import FiveStage.Proofs.Encoding
import FiveStage.Proofs.Stages

namespace FiveStage

/-! ## §1. The control words there are. -/

/-- The classes of instructions that may write a register. -/
def InstrClass.produces : InstrClass → Bool
  | .regReg | .regImm | .load | .lui | .auipc | .jal | .jalr => true
  | .store | .branch | .halt | .mret | .illegal => false

namespace Control

/-- A word has the signals of the instruction it is, or the illegal ones. -/
theorem ofWord_eq (w : Word) :
    ofWord w = illegal ∨ ∃ i, Instr.decode w = .ok i ∧ ofWord w = i.control := by
  unfold ofWord decode
  cases Instr.decode w with
  | error a => exact Or.inl rfl
  | ok i => exact Or.inr ⟨i, rfl, rfl⟩

/-- Every destination is a register. -/
theorem rd_ofWord_lt (w : Word) : (ofWord w).rd < 32 := by
  rcases ofWord_eq w with h | ⟨i, -, h⟩ <;> rw [h]
  · decide
  · cases i <;> first | exact BitVec.isLt _ | exact Nat.zero_lt_succ 31

/-- Of the words only loads read data memory. -/
theorem isLoad_ofWord (w : Word) : (ofWord w).isLoad = ((ofWord w).cls == .load) := by
  rcases ofWord_eq w with h | ⟨i, -, h⟩ <;> rw [h]
  · rfl
  · cases i <;> rfl

/-- What writes a register is of a class that produces a value. -/
theorem produces_of_rdValid {w : Word} (hv : (ofWord w).rdValid = true) :
    (ofWord w).cls.produces = true := by
  rcases ofWord_eq w with h | ⟨i, -, h⟩ <;> rw [h] at hv ⊢
  · cases hv
  · cases i <;> first | rfl | cases hv

/-- If one instruction only has its class, one word only has it. -/
theorem cls_ofWord_iff {i : Instr} (hi : ∀ j : Instr, j.control.cls = i.control.cls → j = i)
    {w : Word} : (ofWord w).cls = i.control.cls ↔ w = i.encode := by
  constructor
  · intro hc
    rcases ofWord_eq w with h | ⟨j, hd, h⟩ <;> rw [h] at hc
    · cases i <;> cases hc
    · rw [← hi j hc]
      exact Instr.eq_encode_of_decode hd
  · rintro rfl
    unfold ofWord decode
    rw [Instr.decode_encode]
    rfl

/-- One word is the trap return. -/
theorem cls_ofWord_mret {w : Word} : (ofWord w).cls = .mret ↔ w = Encode.mret :=
  cls_ofWord_iff (i := .mret) fun j hj => by cases j <;> first | rfl | cases hj

theorem cls_ofWord_halt {w : Word} : (ofWord w).cls = .halt ↔ w = Encode.halt :=
  cls_ofWord_iff (i := .halt) fun j hj => by cases j <;> first | rfl | cases hj

end Control

/-! ## §2. Operands. -/

/-- The operands of an instruction that finds its sources in these registers. -/
def Registers.operands (regs : Registers) (k : Control) : Operands :=
  ⟨regs.source k.rs1, regs.source k.rs2, .regFile, .regFile⟩

/-- The two carry the same values, wherever they came from. -/
def Operands.Agree (o o' : Operands) : Prop :=
  o.rs1 = o'.rs1 ∧ o.rs2 = o'.rs2

namespace Control

/-- The result depends on the values of the operands only. -/
theorem result_congr {o o' : Operands} (h : o.Agree o') (k : Control) (pc : Word) :
    k.result pc o = k.result pc o' := by
  unfold result
  rw [h.1, h.2]

theorem transfer?_congr {o o' : Operands} (h : o.Agree o') (k : Control) (pc : Word)
    (traps : TrapUnit) : k.transfer? pc o traps = k.transfer? pc o' traps := by
  unfold transfer? branchTaken
  rw [h.1, h.2]

/-- Only a halt asks fetch to stop, and it does so with its link address. -/
theorem halt_of_transfer? {k : Control} {pc resume : Word} {o : Operands} {traps : TrapUnit}
    (h : k.transfer? pc o traps = some (.halt resume)) :
    k.cls = .halt ∧ resume = pc + instructionBytes := by
  unfold transfer? at h
  cases hk : k.cls with
  | halt =>
      rw [hk] at h
      cases h
      exact ⟨rfl, rfl⟩
  | mret =>
      rw [hk] at h
      cases ht : traps.resume? <;> simp [ht] at h
  | branch =>
      rw [hk] at h
      simp only at h
      split at h <;> cases h
  | _ =>
      rw [hk] at h
      cases h

end Control

/-! ## §3. Transfers. -/

/-- The transfer that an effect amounts to, for an instruction at this address. -/
def Effect.transfer? (e : Effect) (pc : Word) : Option Transfer :=
  if e.halts then some (.halt (pc + instructionBytes)) else e.target.map .redirect

/-- The register write of an effect that can be seen: one of `x0` cannot. -/
def Effect.write? (e : Effect) : Option (Nat × Word) :=
  e.write.bind fun (rd, v) => if rd = 0 then none else some (rd.toNat, v)

/-- The registers after an effect: a write of `x0` is none. -/
theorem Hart.apply_regs (h : Hart) (e : Effect) :
    (h.apply e).regs = Core.applyWrite h.regs e.write? := by
  unfold Hart.apply Effect.write?
  rcases e.write with _ | ⟨rd, v⟩
  · rfl
  · by_cases h0 : rd = 0
    · subst h0
      rfl
    · show h.regs.write rd.toNat v
        = Core.applyWrite h.regs (if rd = 0 then none else some (rd.toNat, v))
      rw [if_neg h0]
      rfl

/-- A halt goes nowhere else. -/
theorem Hart.target_of_halts {policy : AlignmentPolicy} {h : Hart} {w : Word}
    (hh : (h.effectOf policy w).halts = true) : (h.effectOf policy w).target = none := by
  unfold Hart.effectOf at *
  cases hd : Instr.decode w with
  | error a => rfl
  | ok i =>
      rw [hd] at hh
      cases i with
      | halt => rfl
      | branch | load | store =>
          dsimp only [Hart.effect] at hh ⊢
          split at hh <;> cases hh
      | _ => cases hh

/-- A trap return has no effect of its own. -/
theorem Hart.effectOf_mret (policy : AlignmentPolicy) (h : Hart) {w : Word}
    (hw : (Control.ofWord w).cls = .mret) : h.effectOf policy w = {} := by
  rw [Control.cls_ofWord_mret.mp hw]
  rfl

/-- **Execute asks for the transfer of the effect.**  A trap return has no
effect on its own: where it goes is up to the trap unit. -/
theorem transfer_effect (policy : AlignmentPolicy) (h : Hart) {w : Word}
    (hw : (Control.ofWord w).cls ≠ .mret) (traps : TrapUnit) :
    (Control.ofWord w).transfer? h.pc (h.regs.operands (Control.ofWord w)) traps
      = (h.effectOf policy w).transfer? h.pc := by
  unfold Hart.effectOf Control.ofWord Control.decode at *
  cases hd : Instr.decode w with
  | error a => rfl
  | ok i =>
      rw [hd] at hw
      cases i with
      | mret => exact absurd rfl hw
      | branch c rs1 rs2 offset =>
          show (if c.holds (h.reg rs1) (h.reg rs2) = true then _ else _) = _
          simp only [Except.map, Hart.effect]
          split <;> rfl
      | load f rd rs1 offset =>
          simp only [Except.map, Hart.effect]
          split <;> rfl
      | store width rs2 rs1 offset =>
          simp only [Except.map, Hart.effect]
          split <;> rfl
      | _ => rfl

/-! ## §4. What the memory stage makes of an instruction. -/

theorem registerWrite?_of_not_valid {e : MemWb} (hv : e.control.rdValid = false) :
    Core.registerWrite? e = none := by
  unfold Core.registerWrite?
  rw [hv]
  rfl

/-- The register write of an instruction whose signals name this destination. -/
theorem registerWrite?_producing {e : MemWb} {rd : Reg} (hr : e.control.rd = rd.toNat)
    (hv : e.control.rdValid = (rd != 0)) :
    Core.registerWrite? e = if rd = 0 then none else some (rd.toNat, e.value) := by
  by_cases h0 : rd = 0
  · rw [if_pos h0]
    exact registerWrite?_of_not_valid (by simp [hv, h0])
  · have hpos : 0 < rd.toNat := by
      rcases Nat.eq_zero_or_pos rd.toNat with hz | hz
      · exact absurd (BitVec.eq_of_toNat_eq hz) h0
      · exact hz
    have hlt : rd.toNat < 32 := rd.isLt
    rw [if_neg h0]
    unfold Core.registerWrite? Registers.writable
    have h0' : (rd != 0) = true := bne_iff_ne.mpr h0
    rw [hv, hr, h0', if_pos (by simp [hpos, hlt])]

/-- An instruction in EX/MEM that was executed with these registers. -/
structure ExMem.Executed (regs : Registers) (e : ExMem) : Prop where
  /-- It has the signals of its word. -/
  control : e.control = Control.ofWord e.inst
  /-- What execute computed. -/
  result : e.result = e.control.result e.pc (regs.operands e.control)
  /-- What it is about to store. -/
  storeData : e.storeData = if e.control.isStore then (regs.operands e.control).rs2 else 0

/-- The entry in MEM/WB and the memory afterwards are those of the effect. -/
structure Completes (dmem : Ram) (x : Effect) (r : MemWb × Ram) : Prop where
  /-- The register write. -/
  write : Core.registerWrite? r.1 = x.write?
  /-- Data memory. -/
  dmem : r.2 = x.dmem.getD dmem
  /-- The access that was refused. -/
  fault : r.1.fault = x.fault

/-- A constant shift keeps its function code above the amount, where the
shifter does not look. -/
theorem shiftAmount_signExtend (f : BitVec 7) (amount : BitVec 5) :
    Alu.shiftAmount ((f ++ amount).signExtend 32) = Alu.shiftAmount (amount.setWidth 32) := by
  unfold Alu.shiftAmount
  -- only the low five bits count, and there both sides are the amount
  rw [extractLsb'_signExtend_append]
  simp [Nat.mod_eq_of_lt amount.isLt]

/-- The function code above the amount of a shift has no part in its result. -/
theorem eval_shift (f : ShiftOp) (a : Word) (amount : BitVec 5) :
    Alu.eval f.alu a ((f.alu.funct7 ++ amount).signExtend 32)
      = Alu.eval f.alu a (amount.setWidth 32) := by
  cases f <;>
    simp only [Alu.eval, ShiftOp.alu, AluOp.unit, Alu.shifter, shiftAmount_signExtend]

/-- An instruction without data access that produces nothing has no part in
the effect on registers and memory. -/
theorem completes_nothing {policy : AlignmentPolicy} {dmem : Ram} {e : ExMem} {x : Effect}
    (h : e.complete policy dmem = (Core.accessed e 0, dmem))
    (hv : e.control.rdValid = false)
    (hx : x.write = none ∧ x.dmem = none ∧ x.fault = none) :
    Completes dmem x (e.complete policy dmem) := by
  rw [h]
  refine ⟨?_, ?_, hx.2.2.symm⟩
  · rw [registerWrite?_of_not_valid hv, Effect.write?, hx.1]
    rfl
  · rw [hx.2.1]
    rfl

/-- An instruction without data access that produces the value of the effect. -/
theorem completes_write {policy : AlignmentPolicy} {dmem : Ram} {e : ExMem} {x : Effect}
    {rd : Reg} {v : Word}
    (h : e.complete policy dmem = (Core.accessed e e.result, dmem))
    (hr : e.control.rd = rd.toNat ∧ e.control.rdValid = (rd != 0)) (hv : e.result = v)
    (hx : x.write = some (rd, v) ∧ x.dmem = none ∧ x.fault = none) :
    Completes dmem x (e.complete policy dmem) := by
  rw [h]
  refine ⟨?_, ?_, hx.2.2.symm⟩
  · rw [registerWrite?_producing hr.1 hr.2, Effect.write?, hx.1]
    show (if rd = 0 then none else some (rd.toNat, e.result)) = _
    rw [hv]
    rfl
  · rw [hx.2.1]
    rfl

/-- A load: the effect is what the load/store unit answers. -/
theorem completes_load (policy : AlignmentPolicy) (h : Hart) {e : ExMem} {f : LoadOp}
    {rd rs1 : Reg} {offset : BitVec 12} (hk : e.control = (Instr.load f rd rs1 offset).control)
    (ha : e.result = h.reg rs1 + offset.signExtend 32) :
    Completes h.dmem (h.effect policy (.load f rd rs1 offset)) (e.complete policy h.dmem) := by
  have hl : ((LoadStore.load policy e.result e.control.width e.control.signedLoad :
      Transaction Ram Word).perform h.dmem).1
        = h.loadFrom policy f (h.reg rs1 + offset.signExtend 32) := by
    rw [hk, ha]
    rfl
  have hc : e.control.cls = .load := by rw [hk]; rfl
  unfold ExMem.complete Hart.effect
  rw [hc]
  dsimp only
  rw [hl]
  -- a load that is refused has lost its destination
  cases h.loadFrom policy f (h.reg rs1 + offset.signExtend 32) with
  | ok v =>
      have hrd : (Core.accessed e v).control.rd = rd.toNat := by
        show e.control.rd = _
        rw [hk]
        rfl
      have hvalid : (Core.accessed e v).control.rdValid = (rd != 0) := by
        show e.control.rdValid = _
        rw [hk]
        rfl
      exact ⟨registerWrite?_producing hrd hvalid, rfl, rfl⟩
  | error fault => exact ⟨registerWrite?_of_not_valid rfl, rfl, rfl⟩

/-- A store completes as the hart stores; what is refused leaves memory as it was. -/
theorem completes_store (policy : AlignmentPolicy) (h : Hart) {e : ExMem} {width : Width}
    {rs2 rs1 : Reg} {offset : BitVec 12}
    (hk : e.control = (Instr.store width rs2 rs1 offset).control)
    (ha : e.result = h.reg rs1 + offset.signExtend 32) (hs : e.storeData = h.reg rs2) :
    Completes h.dmem (h.effect policy (.store width rs2 rs1 offset))
      (e.complete policy h.dmem) := by
  have hw : e.control.width = width := by rw [hk]; rfl
  have hv : e.control.rdValid = false := by rw [hk]; rfl
  have hc : e.control.cls = .store := by rw [hk]; rfl
  unfold ExMem.complete Hart.effect Hart.storeTo
  rw [hc, ha, hs, hw]
  dsimp only
  rcases (LoadStore.store policy (h.reg rs1 + offset.signExtend 32) width (h.reg rs2) :
      Transaction Ram Unit).perform h.dmem with ⟨fault | _, dmem⟩
  · exact ⟨registerWrite?_of_not_valid hv, rfl, rfl⟩
  · exact ⟨registerWrite?_of_not_valid hv, rfl, rfl⟩

/-- **The memory stage completes the effect of the instruction.** -/
theorem complete_effect (policy : AlignmentPolicy) {h : Hart} {e : ExMem}
    (hx : e.Executed h.regs) (hpc : e.pc = h.pc) :
    Completes h.dmem (h.effectOf policy e.inst) (e.complete policy h.dmem) := by
  have hk := hx.control
  have hr := hx.result
  have hs := hx.storeData
  unfold Control.ofWord Control.decode at hk
  unfold Hart.effectOf
  cases hd : Instr.decode e.inst with
  | error a =>
      -- an unknown word has the signals of no instruction, and completes nothing
      rw [hd] at hk
      have hk : e.control = Control.illegal := hk
      exact completes_nothing (by simp [ExMem.complete, hk, Control.illegal]) (by rw [hk]; rfl)
        ⟨rfl, rfl, rfl⟩
  | ok i =>
      rw [hd] at hk
      have hk : e.control = i.control := hk
      rw [hk] at hr hs
      cases i with
      | op f rd rs1 rs2 =>
          exact completes_write (by simp [ExMem.complete, hk, Instr.control])
            (by rw [hk]; exact ⟨rfl, rfl⟩) hr ⟨rfl, rfl, rfl⟩
      | opImm f rd rs1 imm =>
          exact completes_write (by simp [ExMem.complete, hk, Instr.control])
            (by rw [hk]; exact ⟨rfl, rfl⟩) hr ⟨rfl, rfl, rfl⟩
      | shift f rd rs1 amount =>
          -- execute shifts by the low bits of the immediate, whatever the function code above them
          exact completes_write (by simp [ExMem.complete, hk, Instr.control])
            (by rw [hk]; exact ⟨rfl, rfl⟩) (hr.trans (eval_shift f _ amount)) ⟨rfl, rfl, rfl⟩
      | load f rd rs1 offset => exact completes_load policy h hk hr
      | store width rs2 rs1 offset => exact completes_store policy h hk hr hs
      | lui rd imm =>
          exact completes_write (by simp [ExMem.complete, hk, Instr.control])
            (by rw [hk]; exact ⟨rfl, rfl⟩) (hr.trans (BitVec.zero_add _)) ⟨rfl, rfl, rfl⟩
      | auipc rd imm =>
          -- the PC of the hart is the address of the instruction
          rw [hpc] at hr
          exact completes_write (by simp [ExMem.complete, hk, Instr.control])
            (by rw [hk]; exact ⟨rfl, rfl⟩) hr ⟨rfl, rfl, rfl⟩
      | branch c rs1 rs2 offset =>
          -- a branch moves the PC only, and that was execute's to do
          refine completes_nothing (by simp [ExMem.complete, hk, Instr.control])
            (by rw [hk]; rfl) ?_
          dsimp only [Hart.effect]
          split <;> exact ⟨rfl, rfl, rfl⟩
      | jal rd offset =>
          rw [hpc] at hr
          exact completes_write (by simp [ExMem.complete, hk, Instr.control])
            (by rw [hk]; exact ⟨rfl, rfl⟩) hr ⟨rfl, rfl, rfl⟩
      | jalr rd rs1 offset =>
          rw [hpc] at hr
          exact completes_write (by simp [ExMem.complete, hk, Instr.control])
            (by rw [hk]; exact ⟨rfl, rfl⟩) hr ⟨rfl, rfl, rfl⟩
      | halt | mret =>
          exact completes_nothing (by simp [ExMem.complete, hk, Instr.control]) (by rw [hk]; rfl)
            ⟨rfl, rfl, rfl⟩

end FiveStage
