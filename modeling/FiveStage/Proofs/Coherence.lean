/-
  FiveStage.Proofs.Coherence
  ──────────────────────────
  **WHERE THE PROGRAM STANDS WHILE THE PIPELINE IS FULL.**

  Two harts can be read off a core at any moment:

      committed   what the program has done for good: MEM/WB will retire,
                  whatever happens, and everything younger can be discarded
      frontier    what it will have done when EX/MEM is through too: the
                  instruction in ID/EX is the next one the frontier performs

  A core is *coherent* when the latches are filled accordingly: EX/MEM was
  executed from the committed hart, ID/EX holds what the frontier performs
  next, and IF/ID and the PC follow it as if it did not jump.  Every cycle
  keeps this, under reset, interrupts and all; an ordinary cycle moves the
  frontier by the instruction in ID/EX.
-/
import FiveStage.Proofs.Sequential
import FiveStage.Proofs.Signals

namespace FiveStage

namespace Core

/-! ## §1. The two harts. -/

/-- The program with what is younger than MEM/WB discarded. -/
def committed (c : Core) : Hart where
  pc := c.epc
  regs := c.settled
  dmem := c.dmem
  halted := c.halted && c.latches.exMem.isNone

/-- The program once EX/MEM is through.  A trap return there has done all it
does when it was executed. -/
def frontier (p : Platform) (c : Core) : Hart :=
  match c.latches.exMem with
  | none => c.committed
  | some e =>
      if e.control.cls = .mret then c.committed
      else c.committed.apply (c.committed.effectOf p.misaligned e.inst)

/-- The address of the oldest instruction not yet executed. -/
def frontPc (c : Core) : Word :=
  (c.latches.idEx.map (·.pc) <|> c.latches.ifId.map (·.pc)).getD c.pc

/-- With a bubble in EX/MEM the machine at the frontier is the committed one. -/
theorem frontier_of_bubble {p : Platform} {c : Core} (h : c.latches.exMem = none) :
    c.frontier p = c.committed := by
  unfold frontier
  rw [h]

/-- Behind a trap return in EX/MEM the frontier is the committed hart: the return took
effect when it was executed. -/
theorem frontier_of_mret {p : Platform} {c : Core} {x : ExMem} (h : c.latches.exMem = some x)
    (hk : x.control.cls = .mret) : c.frontier p = c.committed := by
  unfold frontier
  rw [h]
  exact if_pos hk

/-- Any other instruction in EX/MEM has its effect at the frontier. -/
theorem frontier_of_some {p : Platform} {c : Core} {x : ExMem} (h : c.latches.exMem = some x)
    (hk : x.control.cls ≠ .mret) :
    c.frontier p = c.committed.apply (c.committed.effectOf p.misaligned x.inst) := by
  unfold frontier
  rw [h]
  exact if_neg hk

/-- With a bubble in EX/MEM, an interrupt resumes at the front half. -/
theorem epc_of_bubble {c : Core} (h : c.latches.exMem = none) : c.epc = c.frontPc := by
  unfold epc frontPc Latches.restart?
  rw [h]
  rfl

theorem epc_of_mret {c : Core} {x : ExMem} (h : c.latches.exMem = some x)
    (hk : x.control.cls = .mret) : c.epc = c.frontPc := by
  unfold epc frontPc Latches.restart?
  rw [h]
  simp [hk]

/-- An interrupt resumes at any other instruction that is in EX/MEM. -/
theorem epc_of_some {c : Core} {x : ExMem} (h : c.latches.exMem = some x)
    (hk : x.control.cls ≠ .mret) : c.epc = x.pc := by
  unfold epc Latches.restart?
  rw [h]
  simp [hk]

/-- The oldest instruction of the front half is in ID/EX, if one is there. -/
theorem frontPc_of_idEx {c : Core} {e : IdEx} (h : c.latches.idEx = some e) :
    c.frontPc = e.pc := by
  unfold frontPc
  rw [h]
  rfl

theorem frontPc_of_ifId {c : Core} {f : InFlight} (h : c.latches.idEx = none)
    (hf : c.latches.ifId = some f) : c.frontPc = f.pc := by
  unfold frontPc
  rw [h, hf]
  rfl

theorem frontPc_of_bubbles {c : Core} (h : c.latches.idEx = none)
    (hf : c.latches.ifId = none) : c.frontPc = c.pc := by
  unfold frontPc
  rw [h, hf]
  rfl

/-! ## §2. Coherence. -/

/-- The latches are filled as the program demands. -/
structure Coherent (p : Platform) (c : Core) : Prop where
  /-- Interrupts are masked while the handler runs. -/
  masked : c.traps.enabled = true → c.traps.active = none
  /-- IF/ID was read from program memory, and the PC is just past it. -/
  ifId : ∀ f, c.latches.ifId = some f →
    p.program.fetch f.pc = .ok f.inst ∧ c.pc = f.pc + instructionBytes
  /-- ID/EX was read from program memory, and decoded with these registers. -/
  idEx : ∀ e, c.latches.idEx = some e →
    p.program.fetch e.pc = .ok e.inst ∧ e = e.toInFlight.decode c.regs
  /-- IF/ID, or the PC, is just past ID/EX; only a refused fetch leaves a gap
  behind it. -/
  next : ∀ e, c.latches.idEx = some e →
    (∀ f, c.latches.ifId = some f → f.pc = e.pc + instructionBytes)
      ∧ (c.latches.ifId = none →
          c.pc = e.pc + instructionBytes ∧ ∀ inst, p.program.fetch c.pc ≠ .ok inst)
  /-- EX/MEM was read from program memory, and executed by the committed hart. -/
  exMem : ∀ x, c.latches.exMem = some x →
    p.program.fetch x.pc = .ok x.inst ∧ x.Executed c.settled
  /-- ID/EX does not wait for the load in EX/MEM: it did that in decode. -/
  waited : ∀ x e, c.latches.exMem = some x → c.latches.idEx = some e →
    (x.control.isLoad && x.control.rdValid && e.control.reads x.control.rd) = false
  /-- MEM/WB names a register. -/
  memWb : ∀ w, c.latches.memWb = some w → w.control.rd < 32
  /-- Once halted, nothing is younger than the halt. -/
  halted : c.halted = true → c.latches.ifId = none ∧ c.latches.idEx = none
  /-- The front half is where the frontier is. -/
  front : (c.frontier p).pc = c.frontPc ∧ (c.frontier p).halted = c.halted

theorem bubbles_of_empty {c : Core} (hl : c.latches = .empty) :
    c.latches.ifId = none ∧ c.latches.idEx = none ∧ c.latches.exMem = none
      ∧ c.latches.memWb = none := by
  rw [hl]
  exact ⟨rfl, rfl, rfl, rfl⟩

theorem latches_of_drained {c : Core} (hd : c.drained = true) : c.latches = .empty := by
  unfold drained Latches.isEmpty Latches.occupied at hd
  generalize c.latches = l at *
  rcases l with ⟨_ | _, _ | _, _ | _, _ | _⟩ <;> simp_all [Latches.empty]

theorem drained_of_empty {c : Core} (hl : c.latches = .empty) : c.drained = true := by
  rw [drained, hl]
  rfl

/-- Nothing in flight is coherent. -/
theorem coherent_of_empty (p : Platform) {c : Core} (hl : c.latches = .empty)
    (hm : c.traps.enabled = true → c.traps.active = none) : Coherent p c := by
  obtain ⟨hifId, hidEx, hexMem, hmemWb⟩ := bubbles_of_empty hl
  -- every clause but the first and the last is about an instruction in flight
  constructor <;> simp_all [frontier_of_bubble hexMem, committed, epc_of_bubble hexMem]

end Core

/-! ## §3. What EX/MEM will have done. -/

namespace ExMem

variable {policy : AlignmentPolicy} {dmem : Ram} {e : ExMem}

/-- Completing an access keeps the destination. -/
theorem complete_rd : (e.complete policy dmem).1.control.rd = e.control.rd := by
  unfold complete
  split
  · split <;> rfl
  · split <;> rfl
  all_goals rfl

/-- Completing an access keeps the class. -/
theorem complete_cls : (e.complete policy dmem).1.control.cls = e.control.cls := by
  unfold complete
  split
  · split <;> rfl
  · split <;> rfl
  all_goals rfl

/-- It is the same instruction still. -/
theorem complete_toInFlight : (e.complete policy dmem).1.toInFlight = e.toInFlight := by
  unfold complete
  split
  · split <;> rfl
  · split <;> rfl
  all_goals rfl

theorem complete_pc : (e.complete policy dmem).1.pc = e.pc :=
  congrArg InFlight.pc complete_toInFlight

/-- Memory may take the register write away, and never adds one. -/
theorem complete_rdValid (h : e.control.rdValid = false) :
    (e.complete policy dmem).1.control.rdValid = false := by
  unfold complete
  split
  · split
    · exact h
    · rfl
  · split <;> exact h
  all_goals exact h

/-- Completing an access adds no register to those written. -/
theorem complete_writes {r : Nat} (h : e.control.writes r = false) :
    (e.complete policy dmem).1.control.writes r = false := by
  unfold Control.writes at h ⊢
  rw [complete_rd]
  cases hv : e.control.rdValid with
  | false =>
      rw [complete_rdValid hv]
      rfl
  | true =>
      rw [hv] at h
      simp only [Bool.true_and] at h
      rw [Bool.and_assoc, h, Bool.and_false]

/-- What is no load has its value from execute already. -/
theorem complete_value (policy : AlignmentPolicy) (dmem : Ram)
    (hp : e.control.cls.produces = true) (hl : e.control.cls ≠ .load) :
    (e.complete policy dmem).1.control = e.control
      ∧ (e.complete policy dmem).1.value = e.result := by
  unfold complete
  cases hk : e.control.cls <;> rw [hk] at hp hl <;>
    first | exact ⟨rfl, rfl⟩ | exact absurd rfl hl | cases hp

end ExMem

namespace Core

variable {p : Platform} {c : Core}

/-- The instruction in EX/MEM completes as the committed hart performs it. -/
theorem Coherent.completes (hc : Coherent p c) {x : ExMem} (hx : c.latches.exMem = some x) :
    Completes c.dmem (c.committed.effectOf p.misaligned x.inst)
      (x.complete p.misaligned c.dmem) := by
  have he : x.Executed c.settled := (hc.exMem x hx).2
  by_cases hk : x.control.cls = .mret
  · -- its place in the program is gone, but it has no effect anywhere
    have hw : (Control.ofWord x.inst).cls = .mret := he.control ▸ hk
    have hx' := complete_effect p.misaligned (h := { c.committed with pc := x.pc }) he rfl
    rw [Hart.effectOf_mret p.misaligned _ hw] at hx' ⊢
    exact hx'
  · exact complete_effect p.misaligned (h := c.committed) he (epc_of_some hx hk).symm

/-- Registers and memory of the frontier are those that MEM/WB and EX/MEM
leave behind. -/
theorem Coherent.frontier_state (hc : Coherent p c) :
    (c.frontier p).regs
        = applyWrite c.settled
            (c.latches.exMem.bind fun x => registerWrite? (x.complete p.misaligned c.dmem).1)
      ∧ (c.frontier p).dmem
          = c.latches.exMem.elim c.dmem fun x => (x.complete p.misaligned c.dmem).2 := by
  cases hx : c.latches.exMem with
  | none =>
      rw [frontier_of_bubble hx]
      exact ⟨rfl, rfl⟩
  | some x =>
      have hcomp := hc.completes hx
      show _ = applyWrite c.settled (registerWrite? (x.complete p.misaligned c.dmem).1)
        ∧ _ = (x.complete p.misaligned c.dmem).2
      rw [hcomp.write, hcomp.dmem]
      by_cases hk : x.control.cls = .mret
      · -- a trap return writes nothing, neither at the frontier nor on its way to it
        have hw : (Control.ofWord x.inst).cls = .mret := (hc.exMem x hx).2.control ▸ hk
        rw [frontier_of_mret hx hk, Hart.effectOf_mret p.misaligned _ hw]
        exact ⟨rfl, rfl⟩
      · rw [frontier_of_some hx hk]
        exact ⟨Hart.apply_regs _ _, rfl⟩

/-! ## §4. The bypass network delivers the frontier's registers. -/

/-- What MEM/WB writes is read at its destination, and nowhere else. -/
theorem read_registerWrite? {w : MemWb} (hw : w.control.rd < 32) (regs : Registers) (r : Nat) :
    (applyWrite regs (registerWrite? w)).read r
      = if w.control.writes r then w.value else regs.read r := by
  unfold registerWrite? Control.writes
  cases hv : w.control.rdValid with
  | false => rfl
  | true =>
      by_cases hr : w.control.rd = r
      · subst hr
        by_cases h0 : w.control.rd = 0
        · simp [Registers.writable, h0, applyWrite]
        · have hpos : 0 < w.control.rd := Nat.pos_of_ne_zero h0
          simp [Registers.writable, hw, hpos, h0, applyWrite, Registers.read_write]
      · by_cases hwr : Registers.writable w.control.rd = true <;>
          simp [hwr, hr, applyWrite, Registers.read_write]

/-- Ahead of decode there is only MEM/WB to look at. -/
theorem Coherent.settled_read (hc : Coherent p c) (r : Nat) :
    c.settled.read r = (memWbValue? c.latches.memWb r).getD (c.regs.read r) := by
  unfold settled memWbValue?
  cases hw : c.latches.memWb with
  | none => rfl
  | some w =>
      show (applyWrite c.regs (registerWrite? w)).read r
        = (if w.control.writes r then some w.value else none).getD (c.regs.read r)
      rw [read_registerWrite? (hc.memWb w hw)]
      split <;> rfl

/-- Unless EX/MEM is a load of this register, the frontier reads there what
the bypass network finds. -/
theorem Coherent.frontier_read (hc : Coherent p c) (r : Nat)
    (hl : ∀ x, c.latches.exMem = some x → (x.control.writes r && x.control.isLoad) = false) :
    (c.frontier p).regs.read r
      = (exMemValue? c.latches.exMem r).getD (c.settled.read r) := by
  rw [hc.frontier_state.1]
  unfold exMemValue?
  cases hx : c.latches.exMem with
  | none => rfl
  | some x =>
      have hk : x.control = Control.ofWord x.inst := (hc.exMem x hx).2.control
      have hrd : (x.complete p.misaligned c.dmem).1.control.rd < 32 := by
        rw [ExMem.complete_rd, hk]
        exact Control.rd_ofWord_lt _
      have hload := hl x hx
      show (applyWrite c.settled (registerWrite? (x.complete p.misaligned c.dmem).1)).read r
        = (if (x.control.writes r && !x.control.isLoad) = true then some x.result
            else none).getD (c.settled.read r)
      rw [read_registerWrite? hrd]
      cases hwr : x.control.writes r with
      | false =>
          rw [ExMem.complete_writes hwr]
          rfl
      | true =>
          -- no load, so its value was there when it was executed
          have hvalid : x.control.rdValid = true := by
            unfold Control.writes at hwr
            simp only [Bool.and_eq_true] at hwr
            exact hwr.1.1
          have hnl : x.control.isLoad = false := by
            rw [hwr] at hload
            exact hload
          have hp : x.control.cls.produces = true := by
            rw [hk] at hvalid ⊢
            exact Control.produces_of_rdValid hvalid
          have hcls : x.control.cls ≠ .load := by
            intro h
            rw [hk] at h hnl
            rw [Control.isLoad_ofWord, h] at hnl
            cases hnl
          obtain ⟨h1, h2⟩ := ExMem.complete_value p.misaligned c.dmem hp hcls
          rw [h1, h2, hwr, hnl]
          rfl

/-- **The operands of the instruction in ID/EX are its sources in the
registers of the frontier.** -/
theorem Coherent.operands_agree (hc : Coherent p c) {e : IdEx} (he : c.latches.idEx = some e) :
    (c.latches.operands e).Agree ((c.frontier p).regs.operands e.control) := by
  have hdec : e = e.toInFlight.decode c.regs := (hc.idEx e he).2
  have h1 : e.rv1 = c.regs.source e.control.rs1 := by rw [hdec]; rfl
  have h2 : e.rv2 = c.regs.source e.control.rs2 := by rw [hdec]; rfl
  -- one source at a time: the load in EX/MEM does not write it
  have one : ∀ (reg : Option Nat) (v : Word), v = c.regs.source reg →
      (∀ r, reg = some r → r ≠ 0 → e.control.reads r = true) →
      (forward reg v c.latches.exMem c.latches.memWb).1 = (c.frontier p).regs.source reg := by
    intro reg v hv hreads
    cases reg with
    | none => exact hv
    | some r =>
        have hl : ∀ x, c.latches.exMem = some x →
            (x.control.writes r && x.control.isLoad) = false := by
          intro x hx
          have hwait := hc.waited x e hx he
          cases hwr : x.control.writes r with
          | false => rfl
          | true =>
              simp only [Control.writes, Bool.and_eq_true, bne_iff_ne, beq_iff_eq] at hwr
              obtain ⟨⟨hvalid, h0⟩, hr⟩ := hwr
              rw [hvalid, hr, hreads r rfl h0] at hwait
              simpa using hwait
        show (forward (some r) v _ _).1 = (c.frontier p).regs.read r
        rw [hc.frontier_read r hl, hc.settled_read r, hv]
        simp only [forward]
        cases exMemValue? c.latches.exMem r <;> cases memWbValue? c.latches.memWb r <;> rfl
  constructor
  · refine one e.control.rs1 e.rv1 h1 ?_
    intro r hr h0
    simp [Control.reads, hr, h0]
  · refine one e.control.rs2 e.rv2 h2 ?_
    intro r hr h0
    simp [Control.reads, hr, h0]

end Core

end FiveStage
