/-
  FiveStage.Proofs.Operands
  ─────────────────────────
  **STALLS AND BYPASSES TOGETHER DELIVER THE RIGHT OPERANDS.**

  Neither unit is right on its own.  The bypass network passes over a load in
  EX/MEM, whose data are not there yet, and would hand on an older value of
  its register; the stall unit sees to it that no load which matters is ever
  met there.  `newest` says what the two are for: the registers as they will
  be once MEM/WB and EX/MEM have written theirs, the older one first.

      read_newest        reading them, latch by latch
      forward_newest     the bypass network finds the same
-/
import FiveStage.Proofs.Provenance

namespace FiveStage

/-! ## §1. The newest registers. -/

/-- Commit the value of an instruction with these signals, if it writes its
destination at all. -/
def Registers.commitValid (regs : Registers) (k : Control) (v : Word) : Registers :=
  if k.rdValid then (regs.commit k.rd v).2 else regs

/-- A commit changes what is read of its own destination only. -/
theorem Registers.read_commitValid {k : Control} (hk : k.rd < 32) (regs : Registers) (v : Word)
    (r : Nat) : (regs.commitValid k v).read r = if k.writes r then v else regs.read r := by
  unfold commitValid commit Control.writes
  by_cases hv : k.rdValid = true
  · by_cases hr : k.rd = r
    · subst hr
      by_cases h0 : k.rd = 0
      · simp [hv, h0, read_write, writable]
      · have hpos : 0 < k.rd := Nat.pos_of_ne_zero h0
        simp [hv, h0, hpos, hk, read_write, writable]
    · simp [hv, hr, read_write]
  · simp [hv]

/-- The registers once MEM/WB and then EX/MEM have written them, EX/MEM with
the result it has from execute. -/
def Latches.newest (l : Latches) (regs : Registers) : Registers :=
  let older := l.memWb.elim regs fun w => regs.commitValid w.control w.value
  l.exMem.elim older fun x => older.commitValid x.control x.result

namespace Latches

variable {l : Latches}

/-- A load in MEM/WB that no longer writes its register leaves no trace. -/
theorem newest_of_not_valid {w : MemWb} (hw : l.memWb = some w)
    (hv : w.control.rdValid = false) (regs : Registers) :
    l.newest regs = { l with memWb := none }.newest regs := by
  have hcommit : regs.commitValid w.control w.value = regs := by
    unfold Registers.commitValid
    simp [hv]
  unfold newest
  simp only [hw, Option.elim_some, Option.elim_none, hcommit]

/-- The result in EX/MEM, if it is to be written to register `r`, a load's too. -/
def exMemResult? (exMem : Option ExMem) (r : Nat) : Option Word :=
  exMem.bind fun x => if x.control.writes r then some x.result else none

/-- The newest value of a register is EX/MEM's, or else MEM/WB's, or else the
register file's. -/
theorem read_newest (hm : ∀ w, l.memWb = some w → w.control.rd < 32)
    (hx : ∀ x, l.exMem = some x → x.control.rd < 32) (regs : Registers) (r : Nat) :
    (l.newest regs).read r
      = (exMemResult? l.exMem r).getD ((memWbValue? l.memWb r).getD (regs.read r)) := by
  have holder : (l.memWb.elim regs fun w => regs.commitValid w.control w.value).read r
      = (memWbValue? l.memWb r).getD (regs.read r) := by
    unfold memWbValue?
    cases hw : l.memWb with
    | none => rfl
    | some w =>
        simp only [Option.elim_some, Option.bind_some, Registers.read_commitValid (hm w hw)]
        split <;> rfl
  unfold newest
  cases he : l.exMem with
  | none => exact holder
  | some x =>
      simp only [Option.elim_some, Registers.read_commitValid (hx x he), holder]
      by_cases hwr : x.control.writes r = true <;> simp [exMemResult?, hwr]

/-- The bypass network finds the newest value of a register, unless EX/MEM
holds a load of it. -/
theorem forward_newest (hm : ∀ w, l.memWb = some w → w.control.rd < 32)
    (hx : ∀ x, l.exMem = some x → x.control.rd < 32) (regs : Registers) {r : Nat}
    (hl : ∀ x, l.exMem = some x → x.control.writes r = true → x.control.isLoad = false) :
    (forward (some r) (regs.read r) l.exMem l.memWb).1 = (l.newest regs).read r := by
  rw [read_newest hm hx]
  -- with no load to pass over, EX/MEM answers exactly if it writes the register
  have hexMem : exMemValue? l.exMem r = exMemResult? l.exMem r := by
    unfold exMemValue? exMemResult?
    cases he : l.exMem with
    | none => rfl
    | some x =>
        by_cases hwr : x.control.writes r = true
        · simp [hwr, hl x he hwr]
        · simp [hwr]
  simp only [forward, hexMem]
  cases exMemResult? l.exMem r <;> cases memWbValue? l.memWb r <;> rfl

end Latches

/-! ## §2. Every reachable core. -/

namespace Core

variable {p : Platform} {c : Core} {e : IdEx}

/-- The stall unit has kept apart what the bypass network cannot serve. -/
theorem Coherent.no_load_ahead (hc : Coherent p c) (he : c.latches.idEx = some e) {x : ExMem}
    (hx : c.latches.exMem = some x) (hl : x.control.isLoad = true)
    (hv : x.control.rdValid = true) : e.control.reads x.control.rd = false := by
  have hwait := hc.waited x e hx he
  simpa [hl, hv] using hwait

theorem Coherent.exMem_rd_lt (hc : Coherent p c) {x : ExMem} (hx : c.latches.exMem = some x) :
    x.control.rd < 32 := by
  rw [(hc.exMem x hx).2.control]
  exact Control.rd_ofWord_lt _

/-- One source of the instruction in ID/EX. -/
theorem Coherent.forward_source (hc : Coherent p c) (he : c.latches.idEx = some e) {r : Nat}
    (hr : r ≠ 0 → e.control.reads r = true) :
    (forward (some r) (c.regs.read r) c.latches.exMem c.latches.memWb).1
      = (c.latches.newest c.regs).read r := by
  refine Latches.forward_newest hc.memWb (fun x hx => hc.exMem_rd_lt hx) c.regs ?_
  intro x hx hw
  unfold Control.writes at hw
  simp only [Bool.and_eq_true, bne_iff_ne, beq_iff_eq] at hw
  obtain ⟨⟨hv, h0⟩, rfl⟩ := hw
  cases hl : x.control.isLoad with
  | false => rfl
  | true =>
      have hno := hc.no_load_ahead he hx hl hv
      rw [hr h0] at hno
      cases hno

/-- **The operands are always right.**  In every reachable core the
instruction in ID/EX holds what the register file has for its sources; EX/MEM
is never a load of one of them; and each source it has comes out of the bypass
network as it will be once MEM/WB and EX/MEM have written, where a load that
was refused in MEM/WB does not count. -/
theorem operands_newest (hr : Reachable p c) (he : c.latches.idEx = some e) :
    (e.rv1 = c.regs.source e.control.rs1 ∧ e.rv2 = c.regs.source e.control.rs2)
      ∧ (∀ x, c.latches.exMem = some x → x.control.isLoad = true → x.control.rdValid = true →
          x.control.rd ≠ 0 →
          e.control.rs1 ≠ some x.control.rd ∧ e.control.rs2 ≠ some x.control.rd)
      ∧ (∀ r, e.control.rs1 = some r →
          (Operands.gather e c.latches.exMem c.latches.memWb).rs1
            = (c.latches.newest c.regs).read r)
      ∧ (∀ r, e.control.rs2 = some r →
          (Operands.gather e c.latches.exMem c.latches.memWb).rs2
            = (c.latches.newest c.regs).read r)
      ∧ ∀ w, c.latches.memWb = some w → w.control.cls = .load → w.fault ≠ none →
          c.latches.newest c.regs = { c.latches with memWb := none }.newest c.regs := by
  have hc := hr.coherent
  have hdec : e = e.toInFlight.decode c.regs := (hc.idEx e he).2
  -- the captured operands were read in the cycle that decoded the instruction
  have h1 : e.rv1 = c.regs.source e.control.rs1 := by rw [hdec]; rfl
  have h2 : e.rv2 = c.regs.source e.control.rs2 := by rw [hdec]; rfl
  refine ⟨⟨h1, h2⟩, ?_, ?_, ?_, ?_⟩
  · intro x hx hl hv h0
    -- behind such a load the instruction would still be waiting in IF/ID
    have hno := hc.no_load_ahead he hx hl hv
    simpa [Control.reads, h0] using hno
  · intro r hs
    show (forward e.control.rs1 e.rv1 c.latches.exMem c.latches.memWb).1 = _
    rw [h1, hs]
    exact hc.forward_source he (by simp [Control.reads, hs])
  · intro r hs
    show (forward e.control.rs2 e.rv2 c.latches.exMem c.latches.memWb).1 = _
    rw [h2, hs]
    exact hc.forward_source he (by simp [Control.reads, hs])
  · intro w hw hl hf
    -- the refused load has lost its destination
    exact Latches.newest_of_not_valid hw ((hr.completed w hw).suppressed hl hf) c.regs

/-- A program that loads from where nothing is, and adds to the register that
the load was to fill. -/
def refused : Platform where
  program := .rom ⟨#[(Instr.opImm .add 1 0 7).encode, (Instr.load .lw 1 0 64).encode,
    (Instr.op .add 2 1 1).encode, Encode.halt], 4⟩
  misaligned := .fault
  resetVector := 0
  interrupts := {}
  traceInstructions := false

/-- The addition is in ID/EX, the refused load in MEM/WB. -/
def refusedNow : Core :=
  (fresh refused ⟨0, 8, {}⟩ .zero).after refused (quiet 5)

/-- Both operands are what the register held before the load. -/
theorem operands_newest_refused :
    ∃ e w, refusedNow.latches.idEx = some e ∧ refusedNow.latches.memWb = some w
      ∧ w.control.cls = .load ∧ w.fault = some (.outOfRange .read 64 .word)
      ∧ e.control.rs1 = some 1 ∧ e.control.rs2 = some 1
      ∧ (Operands.gather e refusedNow.latches.exMem refusedNow.latches.memWb).rs1 = 7
      ∧ (Operands.gather e refusedNow.latches.exMem refusedNow.latches.memWb).rs2 = 7 := by
  have hr : Reachable refused refusedNow := ⟨⟨0, 8, {}⟩, .zero, quiet 5, rfl⟩
  have hidEx : refusedNow.latches.idEx = some
      ⟨⟨3, 8, (Instr.op .add 2 1 1).encode⟩, (Instr.op .add 2 1 1).control, 7, 7⟩ := by
    decide +kernel
  have hmemWb : refusedNow.latches.memWb = some
      ⟨⟨2, 4, (Instr.load .lw 1 0 64).encode⟩,
        { (Instr.load .lw 1 0 64).control with rdValid := false }, 0,
        some (.outOfRange .read 64 .word)⟩ := by
    decide +kernel
  have hseven : (refusedNow.latches.newest refusedNow.regs).read 1 = 7 := by decide +kernel
  obtain ⟨-, -, hrs1, hrs2, -⟩ := operands_newest hr hidEx
  refine ⟨_, _, hidEx, hmemWb, rfl, rfl, rfl, rfl, ?_, ?_⟩
  · rw [hrs1 1 rfl, hseven]
  · rw [hrs2 1 rfl, hseven]

end Core

end FiveStage
