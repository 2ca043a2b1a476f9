/-
  FiveStage.Proofs.Halting
  ────────────────────────
  **A HALT IS THE END.**

  A halt stops the core when it comes to execute, two stages before it
  retires, while what is older may still be on its way to memory or to a
  register.  What it leaves behind is a `Stopped` core, with nothing that
  could be fetched, executed or interrupted any more:

      stopped_of_halted   so is every core that has halted
      Stopped.tick        a cycle retires MEM/WB, and takes the halt there
      Stopped.idle        drained, the core only counts

  Only a reset ends this.
-/
import FiveStage.Proofs.Executing

namespace FiveStage.Core

variable {p : Platform} {c c' : Core} {i : Inputs}

/-! ## §1. The halt that stops the core. -/

/-- A core that has halted executed the halt in this cycle, or had halted
before. -/
theorem Coherent.halted_cases (hc : Coherent p c) (hh : (c.tick p i).halted = true) :
    (∃ e, c.executing i = [e] ∧ e.inst = Encode.halt
        ∧ (c.tick p i).pc = e.pc + instructionBytes)
      ∨ (c.halted = true ∧ c.executing i = [] ∧ (c.tick p i).pc = c.pc) := by
  rcases cycle_cases c i with hr | ⟨cause, hi⟩ | ho
  · -- a reset clears the halt
    rw [tick_reset p c hr] at hh
    cases hh
  · -- a halted core accepts no interrupt
    rw [(tick_accept p hi).2.2.2.2.2.1, hi.unmasked.2] at hh
    cases hh
  · rw [executing_of_ordinary ho]
    cases (tick_ordinary p ho).front with
    | redirect _ transfer _ _ _ halted =>
        rw [halted, hc.running_of_transfer transfer] at hh
        cases hh
    | halt resume transfer _ _ pc =>
        obtain ⟨e, he, hinst, hresume⟩ := hc.halt_of_transfer transfer
        refine Or.inl ⟨e, ?_, hinst, pc.trans hresume⟩
        rw [he]
        rfl
    | stopped _ stop _ _ pc =>
        refine Or.inr ⟨stop, ?_, pc⟩
        rw [(hc.halted stop).2]
        rfl
    | stall _ running _ _ _ _ halted | fetched _ _ running _ _ _ _ _ halted
    | starved _ _ running _ _ _ _ _ halted =>
        rw [halted, running] at hh
        cases hh

/-- The halts that are executed in a run. -/
def haltsIn (p : Platform) (c : Core) (s : List Inputs) : List IdEx :=
  (c.executedIn p s).filter (·.inst = Encode.halt)

/-- **A halted core stands behind the last halt it executed.** -/
theorem pc_of_halted (p : Platform) (dmem : Ram) (regs : Registers) (s : List Inputs)
    (hh : ((fresh p dmem regs).after p s).halted = true) :
    ∃ e, ((fresh p dmem regs).haltsIn p s).getLast? = some e
      ∧ ((fresh p dmem regs).after p s).pc = e.pc + instructionBytes := by
  induction s using List.reverseRecOn with
  | nil => cases hh
  | append_singleton s i ih =>
      rw [after_snoc] at hh ⊢
      unfold haltsIn at ih ⊢
      rw [executedIn_snoc, List.filter_append]
      rcases ((coherent_fresh p dmem regs).after s).halted_cases hh with
        ⟨e, he, hinst, hpc⟩ | ⟨hold, he, hpc⟩
      · refine ⟨e, ?_, hpc⟩
        simp [he, hinst]
      · -- nothing was executed, so the last halt is the one it was
        rw [he, hpc, List.filter_nil, List.append_nil]
        exact ih hold

/-! ## §2. A stopped core. -/

/-- The core has halted: there is nothing behind EX/MEM, and in EX/MEM there
is at most the halt itself, which the PC is just past. -/
structure Stopped (c : Core) : Prop where
  halted : c.halted = true
  ifId : c.latches.ifId = none
  idEx : c.latches.idEx = none
  exMem : ∀ x, c.latches.exMem = some x →
    x.inst = Encode.halt ∧ c.pc = x.pc + instructionBytes

/-- **Every core that has halted is stopped.** -/
theorem stopped_of_halted (hr : Reachable p c) : c.halted = true → Stopped c := by
  refine hr.induct ?_ ?_
  · intro dmem regs hh
    cases hh
  · -- the last cycle alone decides what is in EX/MEM
    intro c i hr _ hh
    obtain ⟨hifId, hidEx⟩ := (hr.tick i).coherent.halted hh
    refine ⟨hh, hifId, hidEx, ?_⟩
    intro x hx
    have hexMem := exMem_tick p c i
    rw [hx] at hexMem
    rcases hr.coherent.halted_cases hh with ⟨e, he, hinst, hpc⟩ | ⟨-, he, -⟩
    · rw [he] at hexMem
      cases hexMem
      exact ⟨hinst, hpc⟩
    · rw [he] at hexMem
      cases hexMem

/-- What the program and the trap unit have come to stays from `c` to `c'`. -/
structure Rests (c c' : Core) : Prop where
  halted : c'.halted = c.halted
  pc : c'.pc = c.pc
  dmem : c'.dmem = c.dmem
  traps : c'.traps = c.traps
  interrupts : c'.counters.interrupts = c.counters.interrupts
  lastId : c'.lastId = c.lastId

theorem Rests.refl (c : Core) : Rests c c :=
  ⟨rfl, rfl, rfl, rfl, rfl, rfl⟩

theorem Rests.trans {c'' : Core} (h : Rests c c') (h' : Rests c' c'') : Rests c c'' :=
  ⟨h'.halted.trans h.halted, h'.pc.trans h.pc, h'.dmem.trans h.dmem, h'.traps.trans h.traps,
    h'.interrupts.trans h.interrupts, h'.lastId.trans h.lastId⟩

/-- Interrupts do not reach a halted core. -/
theorem ordinary_of_halted (hh : c.halted = true) (hi : i.reset = false) : c.Ordinary i := by
  refine ⟨hi, ?_⟩
  unfold TrapUnit.arbitrate
  rw [hh, Bool.or_true]
  rfl

/-- The memory stage has nothing to do for a halt. -/
theorem Stopped.complete (hs : Stopped c) (hc : Coherent p c) {x : ExMem}
    (hx : c.latches.exMem = some x) :
    x.complete p.misaligned c.dmem = (accessed x 0, c.dmem)
      ∧ registerWrite? (accessed x 0) = none := by
  have hk : x.control = Control.ofWord Encode.halt := by
    rw [← (hs.exMem x hx).1]
    exact (hc.exMem x hx).2.control
  have hcls : x.control.cls = .halt := by
    rw [hk]
    rfl
  constructor
  · unfold ExMem.complete
    rw [hcls]
  · apply registerWrite?_of_not_valid
    show x.control.rdValid = false
    rw [hk]
    rfl

/-- **A cycle of a stopped core** retires MEM/WB and takes the halt there. -/
theorem Stopped.tick (hs : Stopped c) (hc : Coherent p c) (hi : i.reset = false) :
    Rests c (c.tick p i)
      ∧ (c.tick p i).regs = c.settled
      ∧ (c.tick p i).settled = c.settled
      ∧ (c.tick p i).latches = { memWb := c.latches.exMem.map (accessed · 0) } := by
  -- masked by the halt, the lines cannot make it anything but an ordinary cycle
  have ho := ordinary_of_halted hs.halted hi
  have ha := tick_ordinary p ho
  have htransfer : c.latches.transfer? c.traps = none := transfer_of_none hs.idEx
  -- the front half has no other way left
  obtain ⟨hifId, hidEx, hpc, hhalted, hlastId⟩ :
      (c.tick p i).latches.ifId = none ∧ (c.tick p i).latches.idEx = none
        ∧ (c.tick p i).pc = c.pc ∧ (c.tick p i).halted = c.halted
        ∧ (c.tick p i).lastId = c.lastId := by
    cases ha.front with
    | redirect _ transfer | halt _ transfer =>
        rw [htransfer] at transfer
        cases transfer
    | stopped _ _ ifId idEx pc halted lastId =>
        refine ⟨ifId, ?_, pc, halted, lastId⟩
        rw [idEx, Latches.decoded, hs.ifId]
        split <;> rfl
    | stall _ running | fetched _ _ running | starved _ _ running =>
        rw [hs.halted] at running
        cases running
  have hexMem : (c.tick p i).latches.exMem = none := ha.exMem_of_none hs.idEx
  have hmemWb : (c.tick p i).latches.memWb = c.latches.exMem.map (accessed · 0) := by
    rw [ha.memWb]
    cases hx : c.latches.exMem with
    | none => rfl
    | some x => exact congrArg (fun r => some r.1) (hs.complete hc hx).1
  have hdmem : (c.tick p i).dmem = c.dmem := by
    rw [ha.dmem]
    cases hx : c.latches.exMem with
    | none => rfl
    | some x => exact congrArg Prod.snd (hs.complete hc hx).1
  have htraps : (c.tick p i).traps = c.traps := by
    rw [ha.traps, Latches.returning, hs.idEx]
    rfl
  refine ⟨⟨hhalted, hpc, hdmem, htraps, (fetchFaults_ordinary p ho).2, hlastId⟩, ha.regs, ?_, ?_⟩
  · rw [settled, ha.regs, hmemWb]
    cases hx : c.latches.exMem with
    | none => rfl
    | some x => exact congrArg (applyWrite c.settled) (hs.complete hc hx).2
  · rw [← hifId, ← hidEx, ← hmemWb, ← hexMem]

/-- **Drained, a halted core only counts.** -/
theorem Stopped.idle (hs : Stopped c) (hl : c.latches = .empty) (hi : i.reset = false) :
    c.tick p i
      = { c with
          counters := { c.counters with cycles := c.counters.cycles + 1 }
          lastRetired := none } := by
  have hw : c.latches.memWb = none := (bubbles_of_empty hl).2.2.2
  -- the record of the last cycle is all that writeback takes away
  have hretired : c.retired = { c with lastRetired := none } := by
    unfold retired writeback
    rw [hw]
  rw [tick_flow p (ordinary_of_halted hs.halted hi), hretired]
  unfold flow access execute decode fetchNext
  simp [hl, Latches.empty, hs.halted, countCycle]

/-! ## §3. Until a reset. -/

/-- **What a stopped core can still do**, however long it goes on. -/
theorem Stopped.after (hs : Stopped c) (hr : Reachable p c) (t : List Inputs)
    (ht : ∀ i ∈ t, i.reset = false) :
    Stopped (c.after p t) ∧ Rests c (c.after p t)
      ∧ (c.after p t).settled = c.settled
      ∧ (c.after p t).regs = (if t = [] then c.regs else c.settled)
      ∧ (t ≠ [] → (c.after p t).latches.exMem = none)
      ∧ (2 ≤ t.length → (c.after p t).drained = true) := by
  induction t using List.reverseRecOn with
  | nil =>
      refine ⟨hs, .refl c, rfl, rfl, fun h => absurd rfl h, ?_⟩
      intro h
      cases h
  | append_singleton t i ih =>
      obtain ⟨hstopped, hrests, hsettled, -, hexMem, -⟩ :=
        ih fun j hj => ht j (List.mem_append_left _ hj)
      have hi : i.reset = false := ht i (List.mem_append_right _ (List.mem_singleton_self i))
      have hnow : Reachable p (c.after p t) := by
        obtain ⟨dmem, regs, s, rfl⟩ := hr
        exact ⟨dmem, regs, s ++ t, (after_append p _ s t).symm⟩
      -- one more cycle settles what MEM/WB holds, and moves EX/MEM up
      obtain ⟨hrest, hregs, hsame, hlatches⟩ := hstopped.tick hnow.coherent hi
      rw [after_snoc]
      refine ⟨stopped_of_halted (hnow.tick i) (hrest.halted.trans hstopped.halted),
        hrests.trans hrest, hsame.trans hsettled, ?_, ?_, ?_⟩
      · rw [hregs, hsettled, if_neg (by simp)]
      · intro _
        rw [hlatches]
      · -- the halt left EX/MEM in the first of the two cycles, and MEM/WB in the second
        intro h2
        have hne : t ≠ [] := by
          rintro rfl
          simp at h2
        apply drained_of_empty
        rw [hlatches, hexMem hne]
        rfl

/-- **Halt is terminal, and drains.**  Whatever run leaves a core halted, it
has nothing behind EX/MEM, at most the halt there, and the PC just past the
last halt it executed.  Under any inputs but a reset it stays halted: the PC,
data memory, the trap unit, the interrupts taken and the numbering do not
change again, MEM/WB still writes its register, two cycles drain the pipeline,
and from then on the core counts cycles that retire nothing. -/
theorem halt_is_terminal (p : Platform) (dmem : Ram) (regs : Registers) (s : List Inputs)
    (hh : ((fresh p dmem regs).after p s).halted = true) :
    Stopped ((fresh p dmem regs).after p s)
      ∧ (∃ e, ((fresh p dmem regs).haltsIn p s).getLast? = some e
          ∧ ((fresh p dmem regs).after p s).pc = e.pc + instructionBytes)
      ∧ ∀ t : List Inputs, (∀ i ∈ t, i.reset = false) →
          Rests ((fresh p dmem regs).after p s) ((fresh p dmem regs).after p (s ++ t))
            ∧ ((fresh p dmem regs).after p (s ++ t)).regs
              = (if t = [] then ((fresh p dmem regs).after p s).regs
                  else ((fresh p dmem regs).after p s).settled)
            ∧ (2 ≤ t.length → ((fresh p dmem regs).after p (s ++ t)).drained = true)
            ∧ (((fresh p dmem regs).after p (s ++ t)).drained = true → ∀ i : Inputs,
                i.reset = false →
                ((fresh p dmem regs).after p (s ++ t)).tick p i
                  = { (fresh p dmem regs).after p (s ++ t) with
                      counters :=
                        { ((fresh p dmem regs).after p (s ++ t)).counters with
                          cycles := ((fresh p dmem regs).after p (s ++ t)).counters.cycles + 1 }
                      lastRetired := none }) := by
  have hr : Reachable p ((fresh p dmem regs).after p s) := ⟨dmem, regs, s, rfl⟩
  have hs := stopped_of_halted hr hh
  refine ⟨hs, pc_of_halted p dmem regs s hh, ?_⟩
  intro t ht
  obtain ⟨hstopped, hrests, -, hregs, -, hdrained⟩ := hs.after hr t ht
  rw [after_append]
  exact ⟨hrests, hregs, hdrained, fun hd i hi => hstopped.idle (latches_of_drained hd) hi⟩

/-- A program that halts with a load and a store still on their way. -/
def halting : Platform where
  program := .rom ⟨#[(Instr.opImm .add 1 0 5).encode, (Instr.store .word 1 0 0).encode,
    (Instr.load .lw 2 0 0).encode, Encode.halt], 16⟩
  misaligned := .fault
  resetVector := 0
  interrupts := { handlerVector := 32 }
  traceInstructions := false

/-- The run up to the halt, and both interrupt lines high after it. -/
def haltingAfter (t : List Inputs) : Core :=
  (fresh halting ⟨0, 64, {}⟩ .zero).after halting (quiet 6 ++ t)

/-- The load still delivers what the store has left, no interrupt is taken,
and the drained core stays as it is. -/
theorem halt_is_terminal_draining :
    (haltingAfter []).halted = true ∧ (haltingAfter []).pc = 16
      ∧ (haltingAfter []).traps.enabled = true
      ∧ (haltingAfter []).latches.exMem.isSome = true
      ∧ (haltingAfter []).regs.read 2 = 0
      ∧ (haltingAfter [{ external := true }, { software := true }]).regs.read 2 = 5
      ∧ (haltingAfter [{ external := true }, { software := true }]).pc = 16
      ∧ (haltingAfter [{ external := true }, { software := true }]).counters.interrupts = 0
      ∧ (haltingAfter [{ external := true }, { software := true }]).drained = true
      ∧ ((haltingAfter [{ external := true }, { software := true }]).tick halting
          { external := true }).lastRetired = none := by
  have hh : (haltingAfter []).halted = true := by decide +kernel
  have hpc : (haltingAfter []).pc = 16 := by decide +kernel
  have hinterrupts : (haltingAfter []).counters.interrupts = 0 := by decide +kernel
  have hsettled : (haltingAfter []).settled.read 2 = 5 := by decide +kernel
  obtain ⟨-, -, hrun⟩ := halt_is_terminal halting ⟨0, 64, {}⟩ .zero (quiet 6) hh
  obtain ⟨hrests, hregs, hdrained, hidle⟩ :=
    hrun [{ external := true }, { software := true }] (by decide)
  have hd : (haltingAfter [{ external := true }, { software := true }]).drained = true :=
    hdrained (by decide)
  refine ⟨hh, hpc, by decide +kernel, by decide +kernel, by decide +kernel, ?_,
    hrests.pc.trans hpc, hrests.interrupts.trans hinterrupts, hd, ?_⟩
  · unfold haltingAfter
    rw [hregs, if_neg (List.cons_ne_nil _ _)]
    exact hsettled
  · unfold haltingAfter at hd ⊢
    rw [hidle hd { external := true } rfl]

end FiveStage.Core
