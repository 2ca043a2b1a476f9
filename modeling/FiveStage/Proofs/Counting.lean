/-
  FiveStage.Proofs.Counting
  ─────────────────────────
  **WHAT AN ORDINARY CYCLE COUNTS.**

  One lemma for each stage says which counters it moves; what a stage does to
  any selection of them follows by leaving the others out.  Four of them tell
  how long a run takes: instructions retired, words that are no instruction,
  waits for a load, and redirects.  `tick_charges` puts these together.

  An anomaly is counted when its word is decoded, every other instruction
  when it retires, so between the two the pipeline holds the difference.

  The cycles in which program memory refuses, and the interrupts, come after
  that, as `fetchFaults_ordinary` and `counters_accept`.
-/
import FiveStage.Proofs.Stages

namespace FiveStage

/-! ## §1. The counters of a run's length. -/

/-- The counters from which the length of a run can be told. -/
structure Tally where
  /-- Instructions retired. -/
  retired : Nat
  /-- Words decoded that are no instruction. -/
  anomalies : Nat
  /-- Cycles in which decode waited for a load. -/
  dataStalls : Nat
  /-- Cycles in which execute redirected fetch. -/
  controlStalls : Nat

/-- These four of the counters. -/
def Counters.tally (k : Counters) : Tally :=
  ⟨k.retired, k.anomalies, k.dataStalls, k.controlStalls⟩

/-- The signals are those of an instruction. -/
def Control.legal (k : Control) : Bool :=
  k.cls != .illegal

/-- The transfer redirects fetch; a halt does not. -/
def Transfer.redirects : Transfer → Bool
  | .redirect _ => true
  | .halt _ => false

/-- What retires is counted, unless it is illegal. -/
theorem Counters.tally_retire (k : Counters) (cls : InstrClass) :
    (k.retire cls).tally
      = { k.tally with retired := k.retired + (cls != .illegal).toNat } := by
  cases cls <;> rfl

/-- Only a word that is an instruction has legal signals. -/
theorem Control.legal_ofWord (w : Word) :
    (Control.ofWord w).legal = (Control.decode w).isOk := by
  unfold Control.ofWord Control.decode
  cases Instr.decode w with
  | error a => rfl
  | ok i => cases i <;> rfl

namespace Core

/-! ## §2. Stage by stage. -/

/-- The memory stage counts faults. -/
theorem counters_access (p : Platform) (c : Core) :
    ∃ n, (c.access p).core.counters = { c.counters with faults := n } := by
  unfold access
  split
  · exact ⟨_, rfl⟩
  · split <;> dsimp only <;> (try split) <;> exact ⟨_, rfl⟩

/-- Execute counts operands that were bypassed, and branches taken. -/
theorem counters_execute (c : Core) :
    ∃ x m b, c.execute.core.counters
      = { c.counters with forwardsExMem := x, forwardsMemWb := m, branchesTaken := b } := by
  unfold execute
  split <;> exact ⟨_, _, _, rfl⟩

/-- Decode counts waits and anomalies. -/
theorem counters_decode (c : Core) :
    ∃ s a, c.decode.core.counters = { c.counters with dataStalls := s, anomalies := a } := by
  unfold decode
  split
  · exact ⟨_, _, rfl⟩
  · split
    · exact ⟨_, _, rfl⟩
    · dsimp only
      split <;> exact ⟨_, _, rfl⟩

/-- Fetch counts faults, and the cycles it spends on them. -/
theorem counters_fetchNext (p : Platform) (c : Core) (stall : Bool) :
    ∃ n f, (c.fetchNext p stall).core.counters
      = { c.counters with fetchFaultCycles := n, faults := f } := by
  unfold fetchNext
  split
  · exact ⟨_, _, rfl⟩
  · split
    · exact ⟨_, _, rfl⟩
    · unfold fetch
      split
      · exact ⟨_, _, rfl⟩
      · dsimp only
        split <;> exact ⟨_, _, rfl⟩

/-- Writeback counts what it retires, if that is legal. -/
theorem tally_writeback (c : Core) :
    c.writeback.core.counters.tally
      = { c.counters.tally with
          retired := c.counters.retired + (c.latches.memWb.any (·.control.legal)).toNat } := by
  unfold writeback
  cases c.latches.memWb with
  | none => rfl
  | some w => exact Counters.tally_retire _ _

/-- The memory stage has no part in the tally; nor do execute and fetch. -/
theorem tally_access (p : Platform) (c : Core) :
    (c.access p).core.counters.tally = c.counters.tally := by
  obtain ⟨n, h⟩ := counters_access p c
  rw [h]
  rfl

theorem tally_execute (c : Core) : c.execute.core.counters.tally = c.counters.tally := by
  obtain ⟨x, m, b, h⟩ := counters_execute c
  rw [h]
  rfl

/-- Decode counts the words it does not know, and the cycles it waits for a
load. -/
theorem tally_decode (c : Core) :
    c.decode.core.counters.tally
      = { c.counters.tally with
          anomalies := c.counters.anomalies
            + ((c.latches.decoded c.regs).any (!·.control.legal)).toNat
          dataStalls := c.counters.dataStalls + c.latches.waits.toNat } := by
  unfold decode Latches.decoded Latches.waits
  cases c.latches.ifId with
  | none => rfl
  | some f =>
      cases hw : loadUse c.latches.idEx (Control.ofWord f.inst) with
      | true => simp [Counters.tally, hw]
      | false =>
          -- the word is an anomaly exactly if it goes on with illegal signals
          have hlegal : (f.decode c.regs).control.legal = (Control.decode f.inst).isOk :=
            Control.legal_ofWord f.inst
          cases hd : Control.decode f.inst with
          | ok k =>
              rw [hd] at hlegal
              simp [Counters.tally, hw, hd, hlegal, Except.isOk, Except.toBool]
          | error a =>
              rw [hd] at hlegal
              simp [Counters.tally, noteAnomaly, hw, hd, hlegal, Except.isOk, Except.toBool]

theorem tally_fetchNext (p : Platform) (c : Core) (stall : Bool) :
    (c.fetchNext p stall).core.counters.tally = c.counters.tally := by
  obtain ⟨n, f, h⟩ := counters_fetchNext p c stall
  rw [h]
  rfl

/-- A redirect is counted, and a halt is not. -/
theorem tally_applyTransfer (c : Core) (t : Transfer) :
    (c.applyTransfer t).counters.tally
      = { c.counters.tally with
          controlStalls := c.counters.controlStalls + t.redirects.toNat } := by
  cases t <;> rfl

/-! ## §3. The cycle. -/

/-- What an ordinary cycle adds to the counters. -/
structure Charges (c c' : Core) : Prop where
  /-- MEM/WB retires. -/
  retired : c'.counters.retired
    = c.counters.retired + (c.latches.memWb.any (·.control.legal)).toNat
  /-- ID/EX was decoded. -/
  anomalies : c'.counters.anomalies
    = c.counters.anomalies + (c'.latches.idEx.any (!·.control.legal)).toNat
  /-- Decode waited, unless it stood still for a transfer. -/
  dataStalls : c'.counters.dataStalls
    = c.counters.dataStalls
      + ((c.latches.transfer? c.traps).isNone && c.latches.waits).toNat
  /-- Execute redirected fetch. -/
  controlStalls : c'.counters.controlStalls
    = c.counters.controlStalls + ((c.latches.transfer? c.traps).any (·.redirects)).toNat

/-- With a transfer of control only the redirect is counted. -/
theorem tally_flow_transfer (p : Platform) {c : Core} {t : Transfer}
    (ht : c.latches.transfer? c.traps = some t) :
    (c.flow p).core.counters.tally
      = { c.counters.tally with
          controlStalls := c.counters.controlStalls + t.redirects.toNat } := by
  rw [flow_transfer p ht]
  show ((c.access p).core.execute.core.applyTransfer t).counters.tally = _
  have hex : (c.access p).core.execute.core.counters.tally = c.counters.tally :=
    (tally_execute _).trans (tally_access p c)
  rw [tally_applyTransfer, hex]
  rw [show (c.access p).core.execute.core.counters.controlStalls = c.counters.controlStalls from
    congrArg Tally.controlStalls hex]

/-- Without one the front half counts what decode does. -/
theorem tally_flow_next (p : Platform) {c : Core}
    (ht : c.latches.transfer? c.traps = none) :
    (c.flow p).core.counters.tally
      = { c.counters.tally with
          anomalies := c.counters.anomalies
            + ((c.latches.decoded c.regs).any (!·.control.legal)).toNat
          dataStalls := c.counters.dataStalls + c.latches.waits.toNat } := by
  rw [flow_next p ht]
  show ((c.access p).core.execute.core.decode.core.fetchNext p c.latches.waits).core.counters.tally
    = _
  have hex : (c.access p).core.execute.core.counters.tally = c.counters.tally :=
    (tally_execute _).trans (tally_access p c)
  have ha : (c.access p).core.execute.core.counters.anomalies = c.counters.anomalies :=
    congrArg Tally.anomalies hex
  have hd : (c.access p).core.execute.core.counters.dataStalls = c.counters.dataStalls :=
    congrArg Tally.dataStalls hex
  rw [tally_fetchNext, tally_decode, hex, ha, hd]
  simp only [execute_frame, access_frame]

theorem tally_retired (c : Core) :
    c.retired.counters.tally
      = { c.counters.tally with
          retired := c.counters.retired + (c.latches.memWb.any (·.control.legal)).toNat } :=
  tally_writeback c

/-- **What an ordinary cycle counts.** -/
theorem tick_charges (p : Platform) {c : Core} {i : Inputs} (h : c.Ordinary i) :
    Charges c (c.tick p i) := by
  have htick : c.tick p i = (c.retired.flow p).core.countCycle := tick_flow p h
  have htally : (c.tick p i).counters.tally = (c.retired.flow p).core.counters.tally := by
    rw [htick]
    rfl
  have hret := tally_retired c
  cases ht : c.latches.transfer? c.traps with
  | some t =>
      -- decode stands still, so there is nothing to count in ID/EX
      have hflow := tally_flow_transfer p (c := c.retired) (t := t) (by simpa using ht)
      have hidEx : (c.tick p i).latches.idEx = none := by
        rw [htick, flow_transfer p (c := c.retired) (t := t) (by simpa using ht)]
        rfl
      rw [hflow, hret] at htally
      simp only [Counters.tally, Tally.mk.injEq] at htally hret
      obtain ⟨h1, h2, h3, h4⟩ := htally
      refine ⟨h1, ?_, ?_, ?_⟩
      · rw [h2, hidEx]
        rfl
      · rw [h3, ht]
        rfl
      · rw [h4, hret.2.2.2, ht]
        rfl
  | none =>
      have hflow := tally_flow_next p (c := c.retired) (by simpa using ht)
      have hidEx : (c.tick p i).latches.idEx = c.latches.decoded c.settled := by
        rw [htick, flow_next p (c := c.retired) (by simpa using ht)]
        simp [countCycle]
      rw [hflow, hret] at htally
      simp only [Counters.tally, Tally.mk.injEq] at htally hret
      obtain ⟨h1, h2, h3, h4⟩ := htally
      refine ⟨h1, ?_, ?_, ?_⟩
      · rw [h2, hret.2.1, hidEx]
        simp
      · rw [h3, hret.2.2.1, ht]
        simp
      · rw [h4, ht]
        rfl

/-! ## §4. Refused fetches, and interrupts. -/

/-- Fetch is at work in this cycle, if it is an ordinary one, and program
memory refuses. -/
def starving (p : Platform) (c : Core) : Bool :=
  (c.latches.transfer? c.traps).isNone && !c.halted && !c.latches.waits
    && !(p.program.fetch c.pc).isOk

/-- Writeback counts neither refused fetches nor interrupts. -/
theorem fetchFaults_retired (c : Core) :
    c.retired.counters.fetchFaultCycles = c.counters.fetchFaultCycles
      ∧ c.retired.counters.interrupts = c.counters.interrupts := by
  unfold retired writeback
  cases c.latches.memWb with
  | none => exact ⟨rfl, rfl⟩
  | some w =>
      show (c.counters.retire w.control.cls).fetchFaultCycles = _
        ∧ (c.counters.retire w.control.cls).interrupts = _
      cases w.control.cls <;> exact ⟨rfl, rfl⟩

/-- The memory stage and execute count neither refused fetches nor interrupts. -/
theorem fetchFaults_execute (p : Platform) (c : Core) :
    (c.access p).core.execute.core.counters.fetchFaultCycles = c.counters.fetchFaultCycles
      ∧ (c.access p).core.execute.core.counters.interrupts = c.counters.interrupts := by
  obtain ⟨x, m, b, hx⟩ := counters_execute (c.access p).core
  obtain ⟨n, ha⟩ := counters_access p c
  rw [hx, ha]
  exact ⟨rfl, rfl⟩

/-- Fetch counts a cycle in which it is refused. -/
theorem fetchFaults_fetchNext (p : Platform) (c : Core) (stall : Bool) :
    (c.fetchNext p stall).core.counters.fetchFaultCycles
        = c.counters.fetchFaultCycles
          + (!c.halted && !stall && !(p.program.fetch c.pc).isOk).toNat
      ∧ (c.fetchNext p stall).core.counters.interrupts = c.counters.interrupts := by
  unfold fetchNext
  cases c.halted <;> cases stall <;> try exact ⟨rfl, rfl⟩
  -- what is left is a core that fetches
  show (c.fetch p).core.counters.fetchFaultCycles = _ ∧ (c.fetch p).core.counters.interrupts = _
  unfold fetch
  cases p.program.fetch c.pc with
  | ok inst => exact ⟨rfl, rfl⟩
  | error fault =>
      dsimp only
      split <;> exact ⟨rfl, rfl⟩

/-- In a cycle as a whole, those are counted in which fetch starves. -/
theorem fetchFaults_flow (p : Platform) (c : Core) :
    (c.flow p).core.counters.fetchFaultCycles
        = c.counters.fetchFaultCycles + (c.starving p).toNat
      ∧ (c.flow p).core.counters.interrupts = c.counters.interrupts := by
  obtain ⟨hf, hi⟩ := fetchFaults_execute p c
  unfold starving
  cases ht : c.latches.transfer? c.traps with
  | some t =>
      rw [flow_transfer p ht]
      cases t <;> exact ⟨hf, hi⟩
  | none =>
      rw [flow_next p ht]
      -- only fetch counts refusals, and the stages before it leave its address alone
      generalize hd : (c.access p).core.execute.core.decode.core = d
      obtain ⟨s, a, hcounters⟩ := counters_decode (c.access p).core.execute.core
      have hd1 : d.counters.fetchFaultCycles = c.counters.fetchFaultCycles := by
        rw [← hd, hcounters]
        exact hf
      have hd2 : d.counters.interrupts = c.counters.interrupts := by
        rw [← hd, hcounters]
        exact hi
      have hpc : d.pc = c.pc := by simp [← hd]
      have hhalted : d.halted = c.halted := by simp [← hd]
      have hfetch := fetchFaults_fetchNext p d c.latches.waits
      rw [hd1, hd2, hpc, hhalted] at hfetch
      exact hfetch

/-- What an ordinary cycle does to the counters of fetch and of interrupts. -/
theorem fetchFaults_ordinary (p : Platform) {c : Core} {i : Inputs} (h : c.Ordinary i) :
    (c.tick p i).counters.fetchFaultCycles
        = c.counters.fetchFaultCycles + (c.starving p).toNat
      ∧ (c.tick p i).counters.interrupts = c.counters.interrupts := by
  obtain ⟨hf, hi⟩ := fetchFaults_flow p c.retired
  obtain ⟨hrf, hri⟩ := fetchFaults_retired c
  have hstarving : c.retired.starving p = c.starving p := by
    unfold starving
    simp only [retired_frame]
  rw [tick_flow p h]
  exact ⟨by rw [← hrf, ← hstarving]; exact hf, hi.trans hri⟩

/-- Accepting an interrupt is counted, and beside it only what retires. -/
theorem counters_accept (p : Platform) {c : Core} {i : Inputs} {cause : InterruptCause}
    (h : c.Accepts i cause) :
    (c.tick p i).counters.interrupts = c.counters.interrupts + 1
      ∧ (c.tick p i).counters.fetchFaultCycles = c.counters.fetchFaultCycles
      ∧ (c.tick p i).counters.tally = c.retired.counters.tally := by
  obtain ⟨hf, hi⟩ := fetchFaults_retired c
  rw [← hf, ← hi]
  unfold tick cycle
  rw [if_neg (by simp [h.1])]
  simp only [h.2]
  exact ⟨rfl, rfl, rfl⟩

end Core

end FiveStage
