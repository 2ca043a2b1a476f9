/-
  FiveStage.Proofs.Stages
  ───────────────────────
  **WHAT EACH STAGE DOES, AND WHAT A CYCLE DOES.**

  One lemma for each stage says what it answers and one what it leaves alone.
  From them a cycle is described once and for all; nothing later opens the
  stages again:

      tick_reset       a cycle under reset
      tick_accept      a cycle that accepts an interrupt
      tick_ordinary    every other cycle, as an `Advance`

  The back half of an `Advance` is the same in every ordinary cycle.  What
  the front half does depends on execute and on program memory, and `Front`
  has one constructor for each of the six ways.
-/
import FiveStage.Core.Run
import FiveStage.Proofs.LoadStore

namespace FiveStage

/-! ## §1. Writeback. -/

/-- The record of an instruction that retires from MEM/WB. -/
def MemWb.retirement (e : MemWb) : Retirement :=
  ⟨e.id, e.pc, Core.registerWrite? e⟩

namespace Core

/-- The registers once the instruction in MEM/WB has retired. -/
def settled (c : Core) : Registers :=
  applyWrite c.regs (c.latches.memWb.bind registerWrite?)

/-- Writeback records what it retires. -/
theorem writeback_out (c : Core) : c.writeback.out = c.latches.memWb.map MemWb.retirement := by
  unfold writeback
  cases c.latches.memWb <;> rfl

theorem writeback_regs (c : Core) : c.writeback.core.regs = c.settled := by
  unfold writeback settled
  cases c.latches.memWb <;> rfl

/-- Writeback touches the registers, the record and the counters only. -/
@[simp] theorem writeback_frame (c : Core) :
    c.writeback.core.pc = c.pc ∧ c.writeback.core.latches = c.latches
      ∧ c.writeback.core.dmem = c.dmem ∧ c.writeback.core.traps = c.traps
      ∧ c.writeback.core.halted = c.halted ∧ c.writeback.core.lastId = c.lastId
      ∧ c.writeback.core.reportedFetch = c.reportedFetch := by
  unfold writeback
  cases c.latches.memWb <;> simp

end Core

/-! ## §2. Memory. -/

/-- What the memory stage makes of an instruction: its entry in MEM/WB, and
data memory afterwards. -/
def ExMem.complete (policy : AlignmentPolicy) (dmem : Ram) (e : ExMem) : MemWb × Ram :=
  match e.control.cls with
  | .load =>
      match ((LoadStore.load policy e.result e.control.width e.control.signedLoad :
          Transaction Ram Word).perform dmem).1 with
      | .ok v => (Core.accessed e v, dmem)
      | .error fault => (Core.suppressedLoad e fault, dmem)
  | .store =>
      match (LoadStore.store policy e.result e.control.width e.storeData :
          Transaction Ram Unit).perform dmem with
      | (.ok _, dmem') => (Core.accessed e e.result, dmem')
      | (.error fault, _) => (Core.suppressedStore e fault, dmem)
  | .regReg | .regImm | .lui | .auipc | .jal | .jalr => (Core.accessed e e.result, dmem)
  | .branch | .halt | .mret | .illegal => (Core.accessed e 0, dmem)

namespace Core

/-- The memory stage touches data memory, the counters and the log only. -/
@[simp] theorem access_frame (p : Platform) (c : Core) :
    (c.access p).core.pc = c.pc ∧ (c.access p).core.regs = c.regs
      ∧ (c.access p).core.latches = c.latches ∧ (c.access p).core.traps = c.traps
      ∧ (c.access p).core.halted = c.halted ∧ (c.access p).core.lastId = c.lastId
      ∧ (c.access p).core.lastRetired = c.lastRetired
      ∧ (c.access p).core.reportedFetch = c.reportedFetch := by
  unfold access
  split
  · simp
  · split <;> dsimp only <;> (try split) <;> simp [noteFault]

/-- A load is completed against data memory. -/
theorem access_load {p : Platform} {c : Core} {e : ExMem} (he : c.latches.exMem = some e)
    (hk : e.control.cls = .load) :
    (c.access p).out = some (e.complete p.misaligned c.dmem).1
      ∧ (c.access p).core.dmem = (e.complete p.misaligned c.dmem).2 := by
  -- the stage installs the memory the load leaves, which is the old one
  have hsame := LoadStore.perform_load p.misaligned e.result e.control.width
    e.control.signedLoad c.dmem
  unfold access ExMem.complete
  rw [he]
  simp only [hk]
  rcases h : (LoadStore.load p.misaligned e.result e.control.width e.control.signedLoad :
      Transaction Ram Word).perform c.dmem with ⟨fault | v, dmem⟩
  · rw [h] at hsame
    exact ⟨rfl, hsame⟩
  · rw [h] at hsame
    exact ⟨rfl, hsame⟩

/-- A store is completed against data memory, and leaves it as it wrote it. -/
theorem access_store {p : Platform} {c : Core} {e : ExMem} (he : c.latches.exMem = some e)
    (hk : e.control.cls = .store) :
    (c.access p).out = some (e.complete p.misaligned c.dmem).1
      ∧ (c.access p).core.dmem = (e.complete p.misaligned c.dmem).2 := by
  unfold access ExMem.complete
  rw [he]
  simp only [hk]
  rcases h : (LoadStore.store p.misaligned e.result e.control.width e.storeData :
      Transaction Ram Unit).perform c.dmem with ⟨fault | v, dmem⟩
  · exact ⟨rfl, LoadStore.perform_store_error h⟩
  · exact ⟨rfl, rfl⟩

/-- The memory stage completes the instruction in EX/MEM, and does nothing
without one. -/
theorem access_complete (p : Platform) (c : Core) :
    (c.access p).out = c.latches.exMem.map (fun e => (e.complete p.misaligned c.dmem).1)
      ∧ (c.access p).core.dmem
          = c.latches.exMem.elim c.dmem fun e => (e.complete p.misaligned c.dmem).2 := by
  cases he : c.latches.exMem with
  | none =>
      unfold access
      rw [he]
      exact ⟨rfl, rfl⟩
  | some e =>
      show (c.access p).out = some (e.complete p.misaligned c.dmem).1
        ∧ (c.access p).core.dmem = (e.complete p.misaligned c.dmem).2
      cases hk : e.control.cls with
      | load => exact access_load he hk
      | store => exact access_store he hk
      | regReg | regImm | lui | auipc | jal | jalr | branch | halt | mret | illegal =>
          simp [access, ExMem.complete, he, hk]

end Core

/-! ## §3. Execute. -/

namespace Latches

/-- The operands of an instruction in ID/EX, as the bypass network gives them. -/
def operands (l : Latches) (e : IdEx) : Operands :=
  .gather e l.exMem l.memWb

/-- The transfer that the instruction in ID/EX asks for. -/
def transfer? (l : Latches) (traps : TrapUnit) : Option Transfer :=
  l.idEx.bind fun e => e.control.transfer? e.pc (l.operands e) traps

/-- The instruction in ID/EX as it leaves execute. -/
def executed (l : Latches) : Option ExMem :=
  l.idEx.map fun e => Core.executed e (l.operands e)

/-- The instruction in ID/EX is a trap return. -/
def returning (l : Latches) : Bool :=
  l.idEx.any (·.control.cls = .mret)

end Latches

namespace Core

/-- What execute hands on: the executed instruction and its transfer of control. -/
theorem execute_out (c : Core) :
    c.execute.out.exMem = c.latches.executed
      ∧ c.execute.out.transfer = c.latches.transfer? c.traps := by
  unfold execute Latches.executed Latches.transfer? Latches.operands
  cases c.latches.idEx <;> exact ⟨rfl, rfl⟩

/-- Execute leaves the handler for a trap return, and only then. -/
theorem execute_traps (c : Core) :
    c.execute.core.traps = if c.latches.returning then c.traps.leave else c.traps := by
  unfold execute Latches.returning
  cases c.latches.idEx with
  | none => rfl
  | some e => simp

/-- Execute touches the trap unit and the counters only. -/
@[simp] theorem execute_frame (c : Core) :
    c.execute.core.pc = c.pc ∧ c.execute.core.regs = c.regs
      ∧ c.execute.core.latches = c.latches ∧ c.execute.core.dmem = c.dmem
      ∧ c.execute.core.halted = c.halted ∧ c.execute.core.lastId = c.lastId
      ∧ c.execute.core.lastRetired = c.lastRetired
      ∧ c.execute.core.reportedFetch = c.reportedFetch := by
  unfold execute
  cases c.latches.idEx <;> simp

end Core

/-! ## §4. Decode. -/

/-- The contents of a source register, zero if there is none. -/
def Registers.source (regs : Registers) (r : Option Nat) : Word :=
  r.elim 0 regs.read

/-- An instruction with its control signals and its sources in these registers. -/
def InFlight.decode (f : InFlight) (regs : Registers) : IdEx :=
  let k := Control.ofWord f.inst
  { f with control := k, rv1 := regs.source k.rs1, rv2 := regs.source k.rs2 }

namespace Latches

/-- The instruction in IF/ID has to wait for the load in ID/EX. -/
def waits (l : Latches) : Bool :=
  l.ifId.any fun f => loadUse l.idEx (Control.ofWord f.inst)

/-- What decode passes on to ID/EX, with these registers. -/
def decoded (l : Latches) (regs : Registers) : Option IdEx :=
  if l.waits then none else l.ifId.map (·.decode regs)

end Latches

namespace Core

/-- What decode hands on: the decoded instruction, and whether it waits. -/
theorem decode_out (c : Core) :
    c.decode.out.idEx = c.latches.decoded c.regs ∧ c.decode.out.stall = c.latches.waits := by
  unfold decode Latches.decoded Latches.waits
  cases c.latches.ifId with
  | none => exact ⟨rfl, rfl⟩
  | some f =>
      by_cases hw : loadUse c.latches.idEx (Control.ofWord f.inst) = true
      · simp [hw]
      · simp only [Option.any_some, hw, if_false, Bool.false_eq_true]
        cases Control.decode f.inst <;> exact ⟨rfl, rfl⟩

/-- Decode touches the counters and the log of anomalies only. -/
@[simp] theorem decode_frame (c : Core) :
    c.decode.core.pc = c.pc ∧ c.decode.core.regs = c.regs
      ∧ c.decode.core.latches = c.latches ∧ c.decode.core.dmem = c.dmem
      ∧ c.decode.core.traps = c.traps ∧ c.decode.core.halted = c.halted
      ∧ c.decode.core.lastId = c.lastId ∧ c.decode.core.lastRetired = c.lastRetired
      ∧ c.decode.core.reportedFetch = c.reportedFetch := by
  unfold decode
  split
  · simp
  · split
    · simp
    · dsimp only
      split <;> simp [noteAnomaly]

/-! ## §5. Fetch. -/

/-- Fetch moves the PC and hands out numbers, and logs what is refused. -/
@[simp] theorem fetch_frame (p : Platform) (c : Core) :
    (c.fetch p).core.regs = c.regs ∧ (c.fetch p).core.latches = c.latches
      ∧ (c.fetch p).core.dmem = c.dmem ∧ (c.fetch p).core.traps = c.traps
      ∧ (c.fetch p).core.halted = c.halted
      ∧ (c.fetch p).core.lastRetired = c.lastRetired := by
  unfold fetch
  split
  · simp
  · dsimp only
    split <;> simp [noteFault]

/-- A word that is read gets the next number, and fetch goes on behind it. -/
theorem fetch_of_ok {p : Platform} {c : Core} {inst : Word}
    (h : p.program.fetch c.pc = .ok inst) :
    (c.fetch p).out = some ⟨c.lastId + 1, c.pc, inst⟩
      ∧ (c.fetch p).core.pc = c.pc + instructionBytes
      ∧ (c.fetch p).core.lastId = c.lastId + 1 := by
  unfold fetch
  rw [h]
  exact ⟨rfl, rfl, rfl⟩

/-- A fetch that is refused stays where it is. -/
theorem fetch_of_error {p : Platform} {c : Core} {fault : Fault}
    (h : p.program.fetch c.pc = .error fault) :
    (c.fetch p).out = none ∧ (c.fetch p).core.pc = c.pc
      ∧ (c.fetch p).core.lastId = c.lastId := by
  unfold fetch
  rw [h]
  dsimp only
  split <;> exact ⟨rfl, rfl, rfl⟩

/-- The frame of fetch, whether it stands still or not. -/
@[simp] theorem fetchNext_frame (p : Platform) (c : Core) (stall : Bool) :
    (c.fetchNext p stall).core.regs = c.regs ∧ (c.fetchNext p stall).core.latches = c.latches
      ∧ (c.fetchNext p stall).core.dmem = c.dmem ∧ (c.fetchNext p stall).core.traps = c.traps
      ∧ (c.fetchNext p stall).core.halted = c.halted
      ∧ (c.fetchNext p stall).core.lastRetired = c.lastRetired := by
  unfold fetchNext
  split
  · simp
  · split <;> simp

end Core

/-! ## §6. The cycles that are no ordinary cycle. -/

namespace Core

/-- A cycle under reset resets, and is counted. -/
theorem tick_reset (p : Platform) (c : Core) {i : Inputs} (hr : i.reset = true) :
    c.tick p i = (c.reset p).core.countCycle := by
  unfold tick cycle
  rw [if_pos hr]

/-- The cycle neither applies a reset nor accepts an interrupt. -/
def Ordinary (c : Core) (i : Inputs) : Prop :=
  i.reset = false ∧ c.traps.arbitrate i c.halted = none

/-- The core accepts an interrupt in this cycle. -/
def Accepts (c : Core) (i : Inputs) (cause : InterruptCause) : Prop :=
  i.reset = false ∧ c.traps.arbitrate i c.halted = some cause

/-- A cycle applies a reset, or accepts an interrupt, or is ordinary. -/
theorem cycle_cases (c : Core) (i : Inputs) :
    i.reset = true ∨ (∃ cause, c.Accepts i cause) ∨ c.Ordinary i := by
  cases hr : i.reset with
  | true => exact Or.inl rfl
  | false =>
      right
      cases ha : c.traps.arbitrate i c.halted with
      | none => exact Or.inr ⟨hr, ha⟩
      | some cause => exact Or.inl ⟨cause, hr, ha⟩

/-- Interrupts are accepted only while they are unmasked, and by a core that
has not halted. -/
theorem Accepts.unmasked {c : Core} {i : Inputs} {cause : InterruptCause}
    (h : c.Accepts i cause) : c.traps.enabled = true ∧ c.halted = false := by
  have ha := h.2
  unfold TrapUnit.arbitrate at ha
  cases he : c.traps.enabled <;> cases hh : c.halted <;> simp [he, hh] at ha ⊢

/-- With all lines low every cycle is ordinary. -/
theorem ordinary_quiet (c : Core) : c.Ordinary {} := by
  refine ⟨rfl, ?_⟩
  unfold TrapUnit.arbitrate
  split <;> rfl

/-- Where the program resumes if the core accepts an interrupt now. -/
def epc (c : Core) : Word :=
  c.latches.restart?.getD c.pc

/-- **A cycle that accepts an interrupt.**  Writeback retires its instruction,
everything younger is discarded, and data memory is not looked at. -/
theorem tick_accept (p : Platform) {c : Core} {i : Inputs} {cause : InterruptCause}
    (h : c.Accepts i cause) :
    (c.tick p i).regs = c.settled ∧ (c.tick p i).dmem = c.dmem
      ∧ (c.tick p i).latches = .empty ∧ (c.tick p i).pc = p.interrupts.handlerVector
      ∧ (c.tick p i).traps = c.traps.enter cause c.epc
      ∧ (c.tick p i).halted = c.halted
      ∧ (c.tick p i).lastRetired = c.latches.memWb.map MemWb.retirement := by
  unfold tick cycle
  rw [if_neg (by simp [h.1])]
  simp only [h.2, endCycle, countCycle, enterHandler, writeback_frame, writeback_regs,
    writeback_out, Latches.flushYounger, Latches.empty, epc, and_self]

/-! ## §7. The ordinary cycle. -/

/-- What an ordinary cycle does to IF/ID, ID/EX, the PC and the numbering. -/
inductive Front (p : Platform) (c c' : Core) : Prop where
  /-- Execute redirects fetch. -/
  | redirect (target : Word) (transfer : c.latches.transfer? c.traps = some (.redirect target))
      (ifId : c'.latches.ifId = none) (idEx : c'.latches.idEx = none) (pc : c'.pc = target)
      (halted : c'.halted = c.halted) (lastId : c'.lastId = c.lastId)
  /-- Execute meets a halt. -/
  | halt (resume : Word) (transfer : c.latches.transfer? c.traps = some (.halt resume))
      (ifId : c'.latches.ifId = none) (idEx : c'.latches.idEx = none) (pc : c'.pc = resume)
      (halted : c'.halted = true) (lastId : c'.lastId = c.lastId)
  /-- Nothing is fetched any more. -/
  | stopped (transfer : c.latches.transfer? c.traps = none) (stop : c.halted = true)
      (ifId : c'.latches.ifId = none) (idEx : c'.latches.idEx = c.latches.decoded c.settled)
      (pc : c'.pc = c.pc) (halted : c'.halted = c.halted) (lastId : c'.lastId = c.lastId)
  /-- Decode waits for a load. -/
  | stall (transfer : c.latches.transfer? c.traps = none) (running : c.halted = false)
      (waits : c.latches.waits = true)
      (ifId : c'.latches.ifId = c.latches.ifId) (idEx : c'.latches.idEx = none)
      (pc : c'.pc = c.pc) (halted : c'.halted = c.halted) (lastId : c'.lastId = c.lastId)
  /-- Decode and fetch go on. -/
  | fetched (inst : Word) (transfer : c.latches.transfer? c.traps = none)
      (running : c.halted = false) (waits : c.latches.waits = false)
      (fetch : p.program.fetch c.pc = .ok inst)
      (ifId : c'.latches.ifId = some ⟨c.lastId + 1, c.pc, inst⟩)
      (idEx : c'.latches.idEx = c.latches.ifId.map (·.decode c.settled))
      (pc : c'.pc = c.pc + instructionBytes) (halted : c'.halted = c.halted)
      (lastId : c'.lastId = c.lastId + 1)
  /-- Decode goes on, and program memory refuses the fetch. -/
  | starved (fault : Fault) (transfer : c.latches.transfer? c.traps = none)
      (running : c.halted = false) (waits : c.latches.waits = false)
      (fetch : p.program.fetch c.pc = .error fault)
      (ifId : c'.latches.ifId = none)
      (idEx : c'.latches.idEx = c.latches.ifId.map (·.decode c.settled))
      (pc : c'.pc = c.pc) (halted : c'.halted = c.halted) (lastId : c'.lastId = c.lastId)

/-- What an ordinary cycle does. -/
structure Advance (p : Platform) (c c' : Core) : Prop where
  /-- MEM/WB retires. -/
  regs : c'.regs = c.settled
  /-- The record of that. -/
  lastRetired : c'.lastRetired = c.latches.memWb.map MemWb.retirement
  /-- EX/MEM accesses data memory. -/
  dmem : c'.dmem = c.latches.exMem.elim c.dmem fun e => (e.complete p.misaligned c.dmem).2
  /-- It goes on to MEM/WB. -/
  memWb : c'.latches.memWb
    = c.latches.exMem.map fun e => (e.complete p.misaligned c.dmem).1
  /-- ID/EX executes. -/
  exMem : c'.latches.exMem = c.latches.executed
  /-- A trap return leaves the handler. -/
  traps : c'.traps = if c.latches.returning then c.traps.leave else c.traps
  /-- The front half. -/
  front : Front p c c'

/-- With a transfer of control, the front half is left empty. -/
theorem flow_transfer (p : Platform) {c : Core} {t : Transfer}
    (ht : c.latches.transfer? c.traps = some t) :
    (c.flow p).core
      = { (c.access p).core.execute.core.applyTransfer t with
          latches := { exMem := c.latches.executed, memWb := (c.access p).out } } := by
  obtain ⟨hx, he⟩ := execute_out (c.access p).core
  rw [(access_frame p c).2.2.1, (access_frame p c).2.2.2.1] at he
  rw [(access_frame p c).2.2.1] at hx
  unfold flow
  simp only [he, ht, hx]

/-- Without one, the front half moves on or waits. -/
theorem flow_next (p : Platform) {c : Core} (ht : c.latches.transfer? c.traps = none) :
    (c.flow p).core
      = { ((c.access p).core.execute.core.decode.core.fetchNext p c.latches.waits).core with
          latches :=
            { ifId := ((c.access p).core.execute.core.decode.core.fetchNext p
                c.latches.waits).out
              idEx := c.latches.decoded c.regs
              exMem := c.latches.executed
              memWb := (c.access p).out } } := by
  -- memory access and execute leave the latches that decode looks at alone
  obtain ⟨hx, he⟩ := execute_out (c.access p).core
  obtain ⟨hd, hw⟩ := decode_out (c.access p).core.execute.core
  simp only [access_frame, execute_frame] at hx he hd hw
  unfold flow
  simp only [he, ht, hx, hd, hw]

/-- The core once writeback has done its part of the cycle. -/
def retired (c : Core) : Core :=
  { c.writeback.core with lastRetired := c.writeback.out }

@[simp] theorem retired_frame (c : Core) :
    c.retired.pc = c.pc ∧ c.retired.latches = c.latches ∧ c.retired.dmem = c.dmem
      ∧ c.retired.traps = c.traps ∧ c.retired.halted = c.halted
      ∧ c.retired.lastId = c.lastId ∧ c.retired.reportedFetch = c.reportedFetch := by
  simp [retired]

@[simp] theorem retired_regs (c : Core) : c.retired.regs = c.settled :=
  writeback_regs c

theorem retired_lastRetired (c : Core) :
    c.retired.lastRetired = c.latches.memWb.map MemWb.retirement :=
  writeback_out c

/-- An ordinary cycle retires, flows and is counted. -/
theorem tick_flow (p : Platform) {c : Core} {i : Inputs} (h : c.Ordinary i) :
    c.tick p i = (c.retired.flow p).core.countCycle := by
  unfold tick cycle
  rw [if_neg (by simp [h.1]), h.2]
  rfl

/-- The front half after a transfer. -/
theorem front_transfer (p : Platform) {c : Core} {i : Inputs} (h : c.Ordinary i) {t : Transfer}
    (ht : c.latches.transfer? c.traps = some t) : Front p c (c.tick p i) := by
  have hf := flow_transfer p (c := c.retired) (t := t) (by simpa using ht)
  cases t with
  | redirect target =>
      apply Front.redirect target ht <;> simp [tick_flow p h, hf, countCycle, applyTransfer]
  | halt resume =>
      apply Front.halt resume ht <;> simp [tick_flow p h, hf, countCycle, applyTransfer]

/-- The front half when execute asks for no transfer. -/
theorem front_next (p : Platform) {c : Core} {i : Inputs} (h : c.Ordinary i)
    (ht : c.latches.transfer? c.traps = none) : Front p c (c.tick p i) := by
  have hf := flow_next p (c := c.retired) (by simpa using ht)
  -- the core as fetch finds it: every stage before it left the PC alone
  generalize hd : (c.retired.access p).core.execute.core.decode.core = d at hf
  have hpc : d.pc = c.pc := by simp [← hd]
  have hid : d.lastId = c.lastId := by simp [← hd]
  have hhalted : d.halted = c.halted := by simp [← hd]
  have hlatches : d.latches = c.latches := by simp [← hd]
  have htick : c.tick p i = (c.retired.flow p).core.countCycle := tick_flow p h
  -- halted, waiting, or fetching, and the fetch may be refused
  cases hh : c.halted with
  | true =>
      apply Front.stopped ht hh <;>
        simp [htick, hf, countCycle, fetchNext, hhalted, hh, hpc, hid]
  | false =>
      cases hw : c.latches.waits with
      | true =>
          apply Front.stall ht hh hw <;>
            simp [htick, hf, countCycle, fetchNext, hhalted, hh, hpc, hid, hw, hlatches,
              Latches.decoded]
      | false =>
          cases hm : p.program.fetch c.pc with
          | ok inst =>
              obtain ⟨h1, h2, h3⟩ := fetch_of_ok (p := p) (c := d) (hpc ▸ hm)
              apply Front.fetched inst ht hh hw hm <;>
                simp [htick, hf, countCycle, fetchNext, hhalted, hh, hpc, hid, hw, h1, h2, h3,
                  Latches.decoded]
          | error fault =>
              obtain ⟨h1, h2, h3⟩ := fetch_of_error (p := p) (c := d) (hpc ▸ hm)
              apply Front.starved fault ht hh hw hm <;>
                simp [htick, hf, countCycle, fetchNext, hhalted, hh, hpc, hid, hw, h1, h2, h3,
                  Latches.decoded]

/-- **An ordinary cycle.** -/
theorem tick_ordinary (p : Platform) {c : Core} {i : Inputs} (h : c.Ordinary i) :
    Advance p c (c.tick p i) := by
  -- the back half is the same whether or not there is a transfer
  obtain ⟨hout, hdmem⟩ := access_complete p c.retired
  have htraps := execute_traps (c.retired.access p).core
  simp only [access_frame, retired_frame] at hout hdmem htraps
  cases ht : c.latches.transfer? c.traps with
  | some t =>
      have hf := flow_transfer p (c := c.retired) (t := t) (by simpa using ht)
      refine ⟨?_, ?_, ?_, ?_, ?_, ?_, front_transfer p h ht⟩ <;> cases t <;>
        simp [tick_flow p h, hf, countCycle, applyTransfer, retired_lastRetired, hout, hdmem,
          htraps]
  | none =>
      have hf := flow_next p (c := c.retired) (by simpa using ht)
      refine ⟨?_, ?_, ?_, ?_, ?_, ?_, front_next p h ht⟩ <;>
        simp [tick_flow p h, hf, countCycle, retired_lastRetired, hout, hdmem, htraps]

end Core

end FiveStage
