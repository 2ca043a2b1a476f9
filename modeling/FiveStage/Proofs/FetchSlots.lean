/-
  FiveStage.Proofs.FetchSlots
  ───────────────────────────
  **EVERY CYCLE SPENDS ITS FETCH SLOT ON ONE THING.**

  A cycle could always fetch one instruction.  Either it does, or exactly one
  of six things keeps it from it, and all but two of these have a counter:

      fetched         an instruction is numbered
      dataStall       decode waits for a load
      controlStall    execute sends fetch elsewhere
      fetchFault      program memory refuses
      interrupt       the handler is entered
      reset           the inputs hold the core
      halted          nothing is fetched any more

  The counters belong to four parts of the core that do not look at each
  other.  That no two of them move at once is a matter of which cores there
  can be: a halted one has nothing left to wait for or to redirect.
-/
import FiveStage.Core.Elapsed
import FiveStage.Proofs.Conservation

namespace FiveStage

/-- What the fetch slot of a cycle is spent on. -/
inductive SlotUse where
  | fetched
  | dataStall
  | controlStall
  | fetchFault
  | interrupt
  | reset
  | halted
  deriving Repr, DecidableEq

namespace Core

variable {p : Platform} {c c' : Core} {i : Inputs}

/-! ## §1. One cycle. -/

/-- The cycle from `c` to `c'` spends its fetch slot like this, and the core
counts it like this. -/
structure Spends (use : SlotUse) (c c' : Core) (i : Inputs) : Prop where
  fetched : c'.lastId = c.lastId + if use = .fetched then 1 else 0
  dataStall : c'.counters.dataStalls
    = c.counters.dataStalls + if use = .dataStall then 1 else 0
  controlStall : c'.counters.controlStalls
    = c.counters.controlStalls + if use = .controlStall then 1 else 0
  fetchFault : c'.counters.fetchFaultCycles
    = c.counters.fetchFaultCycles + if use = .fetchFault then 1 else 0
  interrupt : c'.counters.interrupts
    = c.counters.interrupts + if use = .interrupt then 1 else 0
  reset : i.reset = decide (use = .reset)
  halted : (!i.reset && c'.halted) = decide (use = .halted)

/-- A reset spends the cycle's slot. -/
theorem spends_reset (p : Platform) (c : Core) (h : i.reset = true) :
    Spends .reset c (c.tick p i) i := by
  rw [tick_reset p c h]
  exact ⟨rfl, rfl, rfl, rfl, rfl, h, by rw [h]; rfl⟩

/-- An accepted interrupt spends the cycle's slot. -/
theorem spends_accept (p : Platform) {cause : InterruptCause} (h : c.Accepts i cause) :
    Spends .interrupt c (c.tick p i) i := by
  obtain ⟨hinterrupts, hfaults, htally⟩ := counters_accept p h
  rw [tally_retired] at htally
  have hhalted : (c.tick p i).halted = false :=
    (tick_accept p h).2.2.2.2.2.1.trans h.unmasked.2
  exact ⟨lastId_accept p h, congrArg Tally.dataStalls htally, congrArg Tally.controlStalls htally,
    hfaults, hinterrupts, h.1, by rw [hhalted, Bool.and_false]; rfl⟩

/-- An ordinary cycle spends its slot on the way the front half takes. -/
theorem Coherent.spends_ordinary (hc : Coherent p c) (h : c.Ordinary i) :
    ∃ use, Spends use c (c.tick p i) i := by
  obtain ⟨-, -, hdata, hcontrol⟩ := tick_charges p h
  obtain ⟨hfaults, hinterrupts⟩ := fetchFaults_ordinary p h
  unfold starving at hfaults
  cases (tick_ordinary p h).front with
  | redirect target transfer _ _ _ halted lastId =>
      -- what execute redirects was in ID/EX, where a halted core has nothing
      rw [hc.running_of_transfer transfer] at halted
      rw [transfer] at hdata hcontrol hfaults
      exact ⟨.controlStall, lastId, hdata, hcontrol, hfaults, hinterrupts, h.1, by
        rw [halted, Bool.and_false]; rfl⟩
  | halt resume transfer _ _ _ halted lastId =>
      rw [transfer] at hdata hcontrol hfaults
      exact ⟨.halted, lastId, hdata, hcontrol, hfaults, hinterrupts, h.1, by
        rw [h.1, halted]; rfl⟩
  | stopped transfer stop _ _ _ halted lastId =>
      -- and nothing is in IF/ID that could wait
      have hwaits : c.latches.waits = false := by
        rw [Latches.waits, (hc.halted stop).1]
        rfl
      rw [transfer, hwaits] at hdata hfaults
      rw [transfer] at hcontrol
      rw [stop] at hfaults halted
      exact ⟨.halted, lastId, hdata, hcontrol, hfaults, hinterrupts, h.1, by
        rw [h.1, halted]; rfl⟩
  | stall transfer running waits _ _ _ halted lastId =>
      rw [transfer, waits] at hdata hfaults
      rw [transfer] at hcontrol
      rw [running] at hfaults halted
      exact ⟨.dataStall, lastId, hdata, hcontrol, hfaults, hinterrupts, h.1, by
        rw [halted, Bool.and_false]; rfl⟩
  | fetched inst transfer running waits fetch _ _ _ halted lastId =>
      rw [transfer, waits] at hdata hfaults
      rw [transfer] at hcontrol
      rw [running, fetch] at hfaults
      rw [running] at halted
      exact ⟨.fetched, lastId, hdata, hcontrol, hfaults, hinterrupts, h.1, by
        rw [halted, Bool.and_false]; rfl⟩
  | starved fault transfer running waits fetch _ _ _ halted lastId =>
      rw [transfer, waits] at hdata hfaults
      rw [transfer] at hcontrol
      rw [running, fetch] at hfaults
      rw [running] at halted
      exact ⟨.fetchFault, lastId, hdata, hcontrol, hfaults, hinterrupts, h.1, by
        rw [halted, Bool.and_false]; rfl⟩

/-- **Every cycle has one use for its fetch slot.** -/
theorem Coherent.spends (hc : Coherent p c) (i : Inputs) :
    ∃ use, Spends use c (c.tick p i) i := by
  rcases cycle_cases c i with hr | ⟨cause, hi⟩ | ho
  · exact ⟨.reset, spends_reset p c hr⟩
  · exact ⟨.interrupt, spends_accept p hi⟩
  · exact hc.spends_ordinary ho

/-! ## §2. Along a run. -/

/-- How many fetch slots of a run went into each use: the core counts five of
them, and the other two can be seen from outside. -/
def slots (p : Platform) (c : Core) (s : List Inputs) : SlotUse → Nat
  | .fetched => (c.after p s).lastId
  | .dataStall => (c.after p s).counters.dataStalls
  | .controlStall => (c.after p s).counters.controlStalls
  | .fetchFault => (c.after p s).counters.fetchFaultCycles
  | .interrupt => (c.after p s).counters.interrupts
  | .reset => s.countP (·.reset)
  | .halted => (c.course p s).countP fun q => !q.2.reset && (q.1.tick p q.2).halted

/-- One cycle more moves one of the seven, by one. -/
theorem Spends.slots_snoc {use : SlotUse} {s : List Inputs}
    (h : Spends use (c.after p s) ((c.after p s).tick p i) i) (v : SlotUse) :
    c.slots p (s ++ [i]) v = c.slots p s v + if use = v then 1 else 0 := by
  unfold slots
  rw [after_snoc, course_append, List.countP_append, List.countP_append]
  cases v with
  | fetched => exact h.fetched
  | dataStall => exact h.dataStall
  | controlStall => exact h.controlStall
  | fetchFault => exact h.fetchFault
  | interrupt => exact h.interrupt
  | reset => simp [h.reset]
  | halted => simp [course, h.halted]

/-- Together the seven uses make up the cycles of a run. -/
theorem slots_total (p : Platform) (dmem : Ram) (regs : Registers) (s : List Inputs) :
    (fresh p dmem regs).slots p s .fetched + (fresh p dmem regs).slots p s .dataStall
        + (fresh p dmem regs).slots p s .controlStall + (fresh p dmem regs).slots p s .fetchFault
        + (fresh p dmem regs).slots p s .interrupt + (fresh p dmem regs).slots p s .reset
        + (fresh p dmem regs).slots p s .halted
      = s.length := by
  induction s using List.reverseRecOn with
  | nil => rfl
  | append_singleton s i ih =>
      obtain ⟨use, h⟩ := ((coherent_fresh p dmem regs).after s).spends i
      simp only [h.slots_snoc, List.length_append, List.length_singleton, ← ih]
      -- whichever use it is, it is one of the seven summands
      cases use <;> simp only [reduceCtorEq, if_true, if_false] <;> omega

/-- **Every cycle has exactly one cause in the fetch slot.**  After every run,
under any inputs, the cycles are the instructions numbered, the waits for a
load, the redirects, the refused fetches, the interrupts, the cycles under
reset and the other cycles that leave the core halted; and each cycle counts
in one of the seven, and in one only. -/
theorem one_cause_per_cycle (p : Platform) (dmem : Ram) (regs : Registers) (s : List Inputs) :
    ((fresh p dmem regs).after p s).counters.cycles
        = ((fresh p dmem regs).after p s).lastId
          + ((fresh p dmem regs).after p s).counters.dataStalls
          + ((fresh p dmem regs).after p s).counters.controlStalls
          + ((fresh p dmem regs).after p s).counters.fetchFaultCycles
          + ((fresh p dmem regs).after p s).counters.interrupts
          + s.countP (·.reset)
          + ((fresh p dmem regs).course p s).countP fun q =>
              !q.2.reset && (q.1.tick p q.2).halted
      ∧ ∀ i, ∃ use, ∀ v, (fresh p dmem regs).slots p (s ++ [i]) v
          = (fresh p dmem regs).slots p s v + if use = v then 1 else 0 := by
  constructor
  · have hcycles := cycles_after p (fresh p dmem regs) s
    rw [← slots_total p dmem regs s] at hcycles
    exact hcycles.trans (Nat.zero_add _)
  · intro i
    obtain ⟨use, h⟩ := ((coherent_fresh p dmem regs).after s).spends i
    exact ⟨use, h.slots_snoc⟩

end Core

end FiveStage
