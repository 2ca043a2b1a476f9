/-
  FiveStage.Proofs.Reset
  ──────────────────────
  **A RESET FORGETS EVERYTHING BUT REGISTERS AND MEMORY.**

  Three things outlive a reset beside registers and memory: the numbering of
  instructions, the counters, and the records of anomalies and faults.  None
  of them is ever looked at.  So a core can be *shifted*, its instructions
  renumbered and its counters ahead, and nothing it does will change:

      Renumbered k base c d     `c` is `d`, shifted by `k` and `base`

  Every stage keeps this, hence every cycle and every run.  A reset leaves a
  fresh core, shifted.
-/
import FiveStage.Proofs.Frontier

namespace FiveStage

/-! ## §1. Renumbering. -/

/-- The same instruction in IF/ID, `k` numbers later. -/
def InFlight.renumber (k : Nat) (e : InFlight) : InFlight :=
  { e with id := k + e.id }

/-- The same instruction in ID/EX, `k` numbers later. -/
def IdEx.renumber (k : Nat) (e : IdEx) : IdEx :=
  { e with id := k + e.id }

/-- The same instruction in EX/MEM, `k` numbers later. -/
def ExMem.renumber (k : Nat) (e : ExMem) : ExMem :=
  { e with id := k + e.id }

/-- The same instruction in MEM/WB, `k` numbers later. -/
def MemWb.renumber (k : Nat) (e : MemWb) : MemWb :=
  { e with id := k + e.id }

/-- The record of the same instruction, `k` numbers later. -/
def Retirement.renumber (k : Nat) (r : Retirement) : Retirement :=
  { r with id := k + r.id }

/-- The latches with all their instructions renumbered. -/
def Latches.renumber (k : Nat) (l : Latches) : Latches where
  ifId := l.ifId.map (·.renumber k)
  idEx := l.idEx.map (·.renumber k)
  exMem := l.exMem.map (·.renumber k)
  memWb := l.memWb.map (·.renumber k)

namespace Latches

theorem occupancy_renumber (k : Nat) (l : Latches) : (l.renumber k).occupancy = l.occupancy := by
  unfold occupancy occupied renumber
  simp only [Option.isSome_map]

/-- Where an interrupt would resume does not depend on the numbers. -/
theorem restart_renumber (k : Nat) (l : Latches) : (l.renumber k).restart? = l.restart? := by
  obtain ⟨ifId, idEx, exMem, memWb⟩ := l
  cases ifId <;> cases idEx <;> cases exMem <;> rfl

end Latches

/-- Operands are gathered by destination register, not by number. -/
theorem Operands.gather_renumber (k : Nat) (e : IdEx) (exMem : Option ExMem)
    (memWb : Option MemWb) :
    gather (e.renumber k) (exMem.map (·.renumber k)) (memWb.map (·.renumber k))
      = gather e exMem memWb := by
  cases exMem <;> cases memWb <;> rfl

theorem loadUse_renumber (k : Nat) (idEx : Option IdEx) (decoding : Control) :
    loadUse (idEx.map (·.renumber k)) decoding = loadUse idEx decoding := by
  cases idEx <;> rfl

/-! ## §2. Counters that are ahead. -/

namespace Counters

/-- Counter by counter. -/
def add (a b : Counters) : Counters where
  cycles := a.cycles + b.cycles
  retired := a.retired + b.retired
  alu := a.alu + b.alu
  loads := a.loads + b.loads
  stores := a.stores + b.stores
  branches := a.branches + b.branches
  system := a.system + b.system
  dataStalls := a.dataStalls + b.dataStalls
  controlStalls := a.controlStalls + b.controlStalls
  flushed := a.flushed + b.flushed
  branchesTaken := a.branchesTaken + b.branchesTaken
  forwardsExMem := a.forwardsExMem + b.forwardsExMem
  forwardsMemWb := a.forwardsMemWb + b.forwardsMemWb
  interrupts := a.interrupts + b.interrupts
  anomalies := a.anomalies + b.anomalies
  faults := a.faults + b.faults
  fetchFaultCycles := a.fetchFaultCycles + b.fetchFaultCycles

instance : Add Counters := ⟨add⟩

theorem zero_add (k : Counters) : ({} : Counters) + k = k := by
  show Counters.add {} k = k
  simp only [add, Nat.zero_add]

/-- Counting a retirement commutes with counters that are ahead; so for an
execution. -/
theorem add_retire (base k : Counters) (cls : InstrClass) :
    (base + k).retire cls = base + k.retire cls := by
  cases cls <;> rfl

theorem add_countExecution (base k : Counters) (e : IdEx) (o : Operands) :
    Core.countExecution (base + k) e o = base + Core.countExecution k e o := by
  show Core.countExecution (base.add k) e o = base.add (Core.countExecution k e o)
  simp only [Core.countExecution, add, Nat.add_assoc]

end Counters

/-! ## §3. Shifted cores. -/

namespace Core

variable {p : Platform} {k : Nat} {base : Counters} {c d : Core}

/-- The core with its instructions renumbered and its counters ahead, and with
these records. -/
def shift (k : Nat) (base : Counters) (anomalies : List AnomalyRecord)
    (faults : List FaultRecord) (d : Core) : Core :=
  { d with
    latches := d.latches.renumber k
    counters := base + d.counters
    lastId := k + d.lastId
    lastRetired := d.lastRetired.map (·.renumber k)
    anomalies := anomalies
    faults := faults }

/-- The cores differ in the numbers of their instructions, by `k`, in their
counters, by `base`, and in their records. -/
def Renumbered (k : Nat) (base : Counters) (c d : Core) : Prop :=
  ∃ anomalies faults, c = d.shift k base anomalies faults

namespace Renumbered

/-- Latches may be installed that differ in the same way. -/
theorem install (h : Renumbered k base c d) {l l' : Latches} (hl : l' = l.renumber k) :
    Renumbered k base { c with latches := l' } { d with latches := l } := by
  obtain ⟨as, fs, rfl⟩ := h
  exact ⟨as, fs, by rw [hl]; rfl⟩

/-- Write-back retires the same instruction in both cores, under its own number
in each. -/
theorem writeback (h : Renumbered k base c d) :
    Renumbered k base c.writeback.core d.writeback.core
      ∧ c.writeback.out = d.writeback.out.map (·.renumber k) := by
  obtain ⟨as, fs, rfl⟩ := h
  have hlatch : (d.shift k base as fs).latches.memWb = d.latches.memWb.map (·.renumber k) := rfl
  unfold Core.writeback
  rw [hlatch]
  cases d.latches.memWb with
  | none => exact ⟨⟨as, fs, rfl⟩, rfl⟩
  | some w =>
      refine ⟨⟨as, fs, ?_⟩, rfl⟩
      show Core.mk .. = Core.mk ..
      congr 1
      exact Counters.add_retire base d.counters w.control.cls

/-- The access stage does the same in both cores; their records may differ. -/
theorem access (h : Renumbered k base c d) (p : Platform) :
    Renumbered k base (c.access p).core (d.access p).core
      ∧ (c.access p).out = (d.access p).out.map (·.renumber k) := by
  obtain ⟨as, fs, rfl⟩ := h
  have hlatch : (d.shift k base as fs).latches.exMem = d.latches.exMem.map (·.renumber k) := rfl
  unfold Core.access
  rw [hlatch]
  cases d.latches.exMem with
  | none => exact ⟨⟨as, fs, rfl⟩, rfl⟩
  | some x =>
      have hcls : (x.renumber k).control.cls = x.control.cls := rfl
      dsimp only [Option.map_some]
      rw [hcls]
      cases x.control.cls with
      | load =>
          -- renumbering leaves address, width and sign alone, so the access is the same
          have hperform : (LoadStore.load p.misaligned (x.renumber k).result
                (x.renumber k).control.width (x.renumber k).control.signedLoad :
                Transaction Ram Word).perform (d.shift k base as fs).dmem
              = (LoadStore.load p.misaligned x.result x.control.width x.control.signedLoad :
                Transaction Ram Word).perform d.dmem := rfl
          dsimp only
          rw [hperform]
          split <;> exact ⟨⟨as, _, rfl⟩, rfl⟩
      | store =>
          -- and it leaves the data to be stored
          have hperform : (LoadStore.store p.misaligned (x.renumber k).result
                (x.renumber k).control.width (x.renumber k).storeData :
                Transaction Ram Unit).perform (d.shift k base as fs).dmem
              = (LoadStore.store p.misaligned x.result x.control.width x.storeData :
                Transaction Ram Unit).perform d.dmem := rfl
          dsimp only
          rw [hperform]
          split <;> exact ⟨⟨as, _, rfl⟩, rfl⟩
      | regReg | regImm | lui | auipc | branch | jal | jalr | halt | mret | illegal =>
          exact ⟨⟨as, fs, rfl⟩, rfl⟩

/-- Execute gives both cores the same result and the same transfer. -/
theorem execute (h : Renumbered k base c d) :
    Renumbered k base c.execute.core d.execute.core
      ∧ c.execute.out.exMem = d.execute.out.exMem.map (·.renumber k)
      ∧ c.execute.out.transfer = d.execute.out.transfer := by
  obtain ⟨as, fs, rfl⟩ := h
  have hlatch : (d.shift k base as fs).latches.idEx = d.latches.idEx.map (·.renumber k) := rfl
  unfold Core.execute
  rw [hlatch]
  cases d.latches.idEx with
  | none => exact ⟨⟨as, fs, rfl⟩, rfl, rfl⟩
  | some e =>
      have hoperands : Operands.gather (e.renumber k) (d.shift k base as fs).latches.exMem
          (d.shift k base as fs).latches.memWb
          = Operands.gather e d.latches.exMem d.latches.memWb :=
        Operands.gather_renumber k e _ _
      dsimp only [Option.map_some]
      rw [hoperands]
      refine ⟨⟨as, fs, ?_⟩, rfl, rfl⟩
      -- the counters alone differ, and each goes up from where it stands
      show Core.mk .. = Core.mk ..
      congr 1
      exact Counters.add_countExecution base d.counters e _

/-- Decode gives both cores the same signals and the same stall. -/
theorem decode (h : Renumbered k base c d) :
    Renumbered k base c.decode.core d.decode.core
      ∧ c.decode.out.idEx = d.decode.out.idEx.map (·.renumber k)
      ∧ c.decode.out.stall = d.decode.out.stall := by
  obtain ⟨as, fs, rfl⟩ := h
  have hlatch : (d.shift k base as fs).latches.ifId = d.latches.ifId.map (·.renumber k) := rfl
  unfold Core.decode
  rw [hlatch]
  cases d.latches.ifId with
  | none => exact ⟨⟨as, fs, rfl⟩, rfl, rfl⟩
  | some e =>
      have huse : loadUse (d.shift k base as fs).latches.idEx (Control.ofWord e.inst)
          = loadUse d.latches.idEx (Control.ofWord e.inst) := loadUse_renumber k _ _
      have hinst : (e.renumber k).inst = e.inst := rfl
      dsimp only [Option.map_some]
      rw [hinst, huse]
      split
      · exact ⟨⟨as, fs, rfl⟩, rfl, rfl⟩
      · split <;> exact ⟨⟨_, fs, rfl⟩, rfl, rfl⟩

/-- Fetch numbers the instruction by each core's own count, so the distance
stays `k`. -/
theorem fetch (h : Renumbered k base c d) (p : Platform) :
    Renumbered k base (c.fetch p).core (d.fetch p).core
      ∧ (c.fetch p).out = (d.fetch p).out.map (·.renumber k) := by
  obtain ⟨as, fs, rfl⟩ := h
  have hpc : (d.shift k base as fs).pc = d.pc := rfl
  unfold Core.fetch
  rw [hpc]
  split
  · exact ⟨⟨as, fs, rfl⟩, rfl⟩
  · dsimp only
    have hreported : (d.shift k base as fs).reportedFetch = d.reportedFetch := rfl
    rw [hreported]
    split <;> exact ⟨⟨as, _, rfl⟩, rfl⟩

/-- A stalled or halted fetch keeps what IF/ID has, in both cores. -/
theorem fetchNext (h : Renumbered k base c d) (p : Platform) (stall : Bool) :
    Renumbered k base (c.fetchNext p stall).core (d.fetchNext p stall).core
      ∧ (c.fetchNext p stall).out = (d.fetchNext p stall).out.map (·.renumber k) := by
  have hhalted : c.halted = d.halted := by
    obtain ⟨as, fs, rfl⟩ := h
    rfl
  have hifId : c.latches.ifId = d.latches.ifId.map (·.renumber k) := by
    obtain ⟨as, fs, rfl⟩ := h
    rfl
  unfold Core.fetchNext
  rw [hhalted]
  split
  · exact ⟨h, rfl⟩
  · split
    · exact ⟨h, hifId⟩
    · exact h.fetch p

/-- A transfer redirects both cores alike. -/
theorem applyTransfer (h : Renumbered k base c d) (t : Transfer) :
    Renumbered k base (c.applyTransfer t) (d.applyTransfer t) := by
  obtain ⟨as, fs, rfl⟩ := h
  have hlength : (d.shift k base as fs).latches.ifId.toList.length
      = d.latches.ifId.toList.length := by
    show (d.latches.ifId.map (·.renumber k)).toList.length = _
    cases d.latches.ifId <;> rfl
  have hflushed : (d.shift k base as fs).counters.flushed + d.latches.ifId.toList.length
      = base.flushed + (d.counters.flushed + d.latches.ifId.toList.length) :=
    Nat.add_assoc _ _ _
  unfold Core.applyTransfer
  dsimp only
  rw [hlength, hflushed]
  cases t <;> exact ⟨as, fs, rfl⟩

/-- An ordinary cycle, stage by stage, keeps the cores renumbered. -/
theorem flow (h : Renumbered k base c d) (p : Platform) :
    Renumbered k base (c.flow p).core (d.flow p).core := by
  obtain ⟨hmem, hmemOut⟩ := h.access p
  obtain ⟨hex, hexMem, htransfer⟩ := hmem.execute
  unfold Core.flow
  dsimp only
  rw [htransfer, hmemOut, hexMem]
  split
  · exact (hex.applyTransfer _).install rfl
  · obtain ⟨hid, hidEx, hstall⟩ := hex.decode
    obtain ⟨hfe, hifId⟩ := hid.fetchNext p (d.access p).core.execute.core.decode.out.stall
    dsimp only
    rw [hstall, hidEx, hifId]
    exact hfe.install rfl

/-! ## §4. Cycles and runs. -/

/-- A reset keeps the cores renumbered. -/
theorem reset (h : Renumbered k base c d) (p : Platform) :
    Renumbered k base (c.reset p).core (d.reset p).core := by
  obtain ⟨as, fs, rfl⟩ := h
  exact ⟨as, fs, rfl⟩

/-- Both cores enter the handler with the same address to return to. -/
theorem enterHandler (h : Renumbered k base c d) (p : Platform) (cause : InterruptCause) :
    Renumbered k base (c.enterHandler p cause).core (d.enterHandler p cause).core := by
  obtain ⟨as, fs, rfl⟩ := h
  have hrestart : (d.shift k base as fs).latches.restart? = d.latches.restart? :=
    Latches.restart_renumber k _
  have hoccupancy : { (d.shift k base as fs).latches with memWb := none }.occupancy
      = { d.latches with memWb := none }.occupancy :=
    Latches.occupancy_renumber k { d.latches with memWb := none }
  have hflushed : ∀ n, (d.shift k base as fs).counters.flushed + n
      = base.flushed + (d.counters.flushed + n) :=
    fun n => Nat.add_assoc _ _ n
  unfold Core.enterHandler
  dsimp only
  rw [hrestart, hoccupancy, hflushed]
  exact ⟨as, fs, rfl⟩

/-- The instruction in MEM/WB retires in both cores, and counts the same. -/
theorem retired (h : Renumbered k base c d) : Renumbered k base c.retired d.retired := by
  obtain ⟨⟨as, fs, hcore⟩, hout⟩ := h.writeback
  refine ⟨as, fs, ?_⟩
  unfold Core.retired
  rw [hcore, hout]
  rfl

/-- The cycle counts one in both cores. -/
theorem countCycle (h : Renumbered k base c d) :
    Renumbered k base c.countCycle d.countCycle := by
  obtain ⟨as, fs, rfl⟩ := h
  exact ⟨as, fs, rfl⟩

/-- **Every cycle keeps it**, under the same inputs. -/
theorem tick (h : Renumbered k base c d) (p : Platform) (i : Inputs) :
    Renumbered k base (c.tick p i) (d.tick p i) := by
  -- whether a cycle resets, enters the handler or flows depends on nothing that was shifted
  have htraps : c.traps = d.traps := by
    obtain ⟨as, fs, rfl⟩ := h
    rfl
  have hhalted : c.halted = d.halted := by
    obtain ⟨as, fs, rfl⟩ := h
    rfl
  have hretired := h.retired
  unfold Core.tick cycle
  split
  · exact (h.reset p).countCycle
  · dsimp only [endCycle]
    rw [htraps, hhalted]
    split
    · exact (hretired.enterHandler p _).countCycle
    · exact (hretired.flow p).countCycle

/-- **Every run keeps it.** -/
theorem after (h : Renumbered k base c d) (p : Platform) (s : List Inputs) :
    Renumbered k base (c.after p s) (d.after p s) := by
  induction s generalizing c d with
  | nil => exact h
  | cons i is ih => exact ih (h.tick p i)

end Renumbered

/-! ## §5. Reset. -/

/-- **Cycles under reset leave a fresh core, renumbered**, with the registers
and the memory there were. -/
theorem renumbered_of_resets (p : Platform) (c : Core) {resets : List Inputs}
    (hne : resets ≠ []) (hr : ∀ i ∈ resets, i.reset = true) :
    Renumbered c.lastId (c.after p resets).counters (c.after p resets)
      (fresh p c.dmem c.regs) := by
  induction resets generalizing c with
  | nil => exact absurd rfl hne
  | cons i is ih =>
      have htick : c.tick p i = (c.reset p).core.countCycle :=
        tick_reset p c (hr i List.mem_cons_self)
      cases is with
      | nil =>
          show Renumbered c.lastId (c.tick p i).counters (c.tick p i) (fresh p c.dmem c.regs)
          rw [htick]
          exact ⟨c.anomalies, c.faults, rfl⟩
      | cons j js =>
          -- one reset more finds registers, memory and numbering as they were
          have hrest := ih (c.tick p i) (List.cons_ne_nil j js)
            fun l hl => hr l (List.mem_cons_of_mem i hl)
          show Renumbered c.lastId ((c.tick p i).after p (j :: js)).counters
            ((c.tick p i).after p (j :: js)) (fresh p c.dmem c.regs)
          rw [htick] at hrest ⊢
          exact hrest

/-- **A reset forgets everything but registers and memory.**  Whatever core is
held under reset for a cycle or more behaves from then on, under any inputs,
like a fresh core with its registers and its memory: the program, the trap
unit and the pipeline are the same, the instructions are numbered from the
last number given before, and the counters grow alike. -/
theorem reset_forgets (p : Platform) (c : Core) {resets : List Inputs} (hne : resets ≠ [])
    (hr : ∀ i ∈ resets, i.reset = true) (s : List Inputs) :
    ((c.after p resets).after p s).pc = ((fresh p c.dmem c.regs).after p s).pc
      ∧ ((c.after p resets).after p s).halted = ((fresh p c.dmem c.regs).after p s).halted
      ∧ ((c.after p resets).after p s).regs = ((fresh p c.dmem c.regs).after p s).regs
      ∧ ((c.after p resets).after p s).dmem = ((fresh p c.dmem c.regs).after p s).dmem
      ∧ ((c.after p resets).after p s).traps = ((fresh p c.dmem c.regs).after p s).traps
      ∧ ((c.after p resets).after p s).latches
          = ((fresh p c.dmem c.regs).after p s).latches.renumber c.lastId
      ∧ ((c.after p resets).after p s).lastRetired
          = ((fresh p c.dmem c.regs).after p s).lastRetired.map (·.renumber c.lastId)
      ∧ ∃ growth : Counters,
          ((c.after p resets).after p s).counters = (c.after p resets).counters + growth
            ∧ ((fresh p c.dmem c.regs).after p s).counters
                = (fresh p c.dmem c.regs).counters + growth := by
  obtain ⟨anomalies, faults, heq⟩ := (renumbered_of_resets p c hne hr).after p s
  rw [heq]
  refine ⟨rfl, rfl, rfl, rfl, rfl, rfl, rfl,
    ((fresh p c.dmem c.regs).after p s).counters, rfl, ?_⟩
  -- a fresh core has counted nothing
  exact (Counters.zero_add _).symm

/-- A program that computes, and a handler that does not return. -/
def looping : Platform where
  program := .rom ⟨#[(Instr.opImm .add 1 1 5).encode, (Instr.opImm .add 1 1 1).encode,
    Encode.halt, (Instr.jal 0 0).encode], 16⟩
  misaligned := .fault
  resetVector := 0
  interrupts := { handlerVector := 12 }
  traceInstructions := false

/-- The core in its handler. -/
def loopingNow : Core :=
  (fresh looping ⟨0, 8, {}⟩ .zero).after looping (quiet 3 ++ [{ external := true }] ++ quiet 3)

/-- The handler is forgotten, and the program retires what a fresh core would. -/
theorem reset_forgets_handler :
    loopingNow.traps.active = some ⟨0, .external⟩ ∧ loopingNow.lastId = 5
      ∧ ((loopingNow.after looping [{ reset := true }, { reset := true, external := true }]).after
          looping (quiet 5)).traps.active = none
      ∧ ((loopingNow.after looping [{ reset := true }, { reset := true, external := true }]).after
          looping (quiet 5)).lastRetired = some ⟨6, 0, some (1, 5)⟩ := by
  have hr : ∀ i ∈ ([{ reset := true }, { reset := true, external := true }] : List Inputs),
      i.reset = true := by decide
  have htraps : ((fresh looping loopingNow.dmem loopingNow.regs).after looping
      (quiet 5)).traps.active = none := by decide +kernel
  have hretired : ((fresh looping loopingNow.dmem loopingNow.regs).after looping
      (quiet 5)).lastRetired = some ⟨1, 0, some (1, 5)⟩ := by decide +kernel
  have hlast : loopingNow.lastId = 5 := by decide +kernel
  obtain ⟨-, -, -, -, h5, -, h7, -⟩ :=
    reset_forgets looping loopingNow (List.cons_ne_nil _ _) hr (quiet 5)
  refine ⟨by decide +kernel, hlast, ?_, ?_⟩
  · rw [h5, htraps]
  · rw [h7, hretired, hlast]
    rfl

end Core

end FiveStage
