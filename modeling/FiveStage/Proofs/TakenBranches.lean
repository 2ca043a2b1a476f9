/-
  FiveStage.Proofs.TakenBranches
  ──────────────────────────────
  **WHICH BRANCHES THE COUNTER OF TAKEN BRANCHES HAS SEEN.**

  A branch is counted as taken when it is executed, and retires two cycles
  later if nothing comes in between.  In the first of them an interrupt can:
  then the branch is discarded, and executed and counted once more after the
  handler.  So in a run without a reset

      counted = retired + in flight + discarded

  where a branch is in flight in EX/MEM or in MEM/WB.  Both latches forget
  what execute decided; but nothing a branch reads is written behind its back,
  so it can be told from the registers that stand there as the branch passes.
-/
import FiveStage.Proofs.Counting
import FiveStage.Proofs.Course

namespace FiveStage

/-! ## §1. Taken branches. -/

/-- The signals are those of a conditional branch that is taken with these
registers. -/
def Control.takes (k : Control) (regs : Registers) : Bool :=
  k.branchTaken (regs.operands k)

/-- Whether a branch is taken depends on its operands' values only. -/
theorem Control.branchTaken_congr {o o' : Operands} (h : o.Agree o') (k : Control) :
    k.branchTaken o = k.branchTaken o' := by
  unfold branchTaken
  rw [h.1, h.2]

/-- The classes that the counter of branches counts. -/
def InstrClass.jumps : InstrClass → Bool
  | .branch | .jal | .jalr => true
  | _ => false

/-- A taken branch is counted among the branches. -/
theorem Control.jumps_of_takes {k : Control} {regs : Registers} (h : k.takes regs = true) :
    k.cls.jumps = true := by
  unfold takes branchTaken at h
  rw [Bool.and_eq_true, beq_iff_eq] at h
  rw [h.1]
  rfl

/-- The access stage does not change whether a branch is taken. -/
theorem ExMem.complete_takes (policy : AlignmentPolicy) (dmem : Ram) (x : ExMem)
    (regs : Registers) :
    (x.complete policy dmem).1.control.takes regs = x.control.takes regs := by
  unfold complete
  cases hk : x.control.cls with
  | load | store =>
      dsimp only
      split <;> rfl
  | regReg | regImm | lui | auipc | jal | jalr | branch | halt | mret | illegal => rfl

namespace Core

variable {p : Platform} {c c' : Core} {i : Inputs}

/-- The taken branch in EX/MEM: it sees what MEM/WB is about to write. -/
def takenExMem (c : Core) : List ExMem :=
  c.latches.exMem.toList.filter (·.control.takes c.settled)

/-- The taken branch in MEM/WB. -/
def takenMemWb (c : Core) : List MemWb :=
  c.latches.memWb.toList.filter (·.control.takes c.regs)

/-- The taken branch that retires in a cycle. -/
def takenRetiring (c : Core) (i : Inputs) : List MemWb :=
  (c.retiring i).filter (·.control.takes c.regs)

/-- The taken branch that an interrupt discards in a cycle. -/
def takenDiscarded (c : Core) (i : Inputs) : List ExMem :=
  if !i.reset && (c.traps.arbitrate i c.halted).isSome then c.takenExMem else []

/-- The cycle that accepts an interrupt discards the taken branch in EX/MEM. -/
theorem takenDiscarded_of_accepts {cause : InterruptCause} (h : c.Accepts i cause) :
    c.takenDiscarded i = c.takenExMem := by
  simp [takenDiscarded, h.1, h.2]

theorem takenDiscarded_of_ordinary (h : c.Ordinary i) : c.takenDiscarded i = [] := by
  simp [takenDiscarded, h.2]

theorem takenRetiring_of_running (h : i.reset = false) : c.takenRetiring i = c.takenMemWb := by
  unfold takenRetiring takenMemWb
  rw [retiring_of_running h]

theorem taken_of_empty (hl : c.latches = .empty) : c.takenExMem = [] ∧ c.takenMemWb = [] := by
  unfold takenExMem takenMemWb
  rw [hl]
  exact ⟨rfl, rfl⟩

/-! ## §2. From latch to latch. -/

/-- What execute decides for the instruction in ID/EX. -/
def deciding (c : Core) : Bool :=
  c.latches.idEx.any fun e => e.control.branchTaken (c.latches.operands e)

/-- The branch that execute takes is the taken branch in EX/MEM then. -/
theorem Coherent.takenExMem_advance (hc : Coherent p c) (ha : Advance p c c') :
    c'.takenExMem.length = c.deciding.toNat := by
  unfold takenExMem deciding
  cases he : c.latches.idEx with
  | none =>
      rw [ha.exMem_of_none he]
      rfl
  | some e =>
      -- the operands are those in the registers that are settled next
      have hsame : (executed e (c.latches.operands e)).control.takes c'.settled
          = e.control.branchTaken (c.latches.operands e) := by
        rw [ha.settled_eq hc]
        exact (Control.branchTaken_congr (hc.operands_agree he) e.control).symm
      rw [ha.exMem_of_some he, Option.toList_some, List.filter_cons, hsame, Option.any_some]
      cases e.control.branchTaken (c.latches.operands e) <;> rfl

/-- It is the taken branch in MEM/WB one cycle later. -/
theorem Advance.takenMemWb_eq (ha : Advance p c c') :
    c'.takenMemWb.length = c.takenExMem.length := by
  unfold takenMemWb takenExMem
  rw [ha.memWb, ha.regs]
  cases c.latches.exMem with
  | none => rfl
  | some x =>
      rw [Option.map_some, Option.toList_some, Option.toList_some, List.filter_cons,
        List.filter_cons, ExMem.complete_takes]
      cases x.control.takes c.settled <;> rfl

/-! ## §3. The two counters. -/

theorem branches_retire (k : Counters) (cls : InstrClass) :
    (k.retire cls).branches = k.branches + cls.jumps.toNat
      ∧ (k.retire cls).branchesTaken = k.branchesTaken := by
  cases cls <;> exact ⟨rfl, rfl⟩

/-- Retiring counts the branch in MEM/WB, taken or not. -/
theorem branches_retired (c : Core) :
    c.retired.counters.branches
        = c.counters.branches + (c.latches.memWb.toList.countP (·.control.cls.jumps))
      ∧ c.retired.counters.branchesTaken = c.counters.branchesTaken := by
  unfold retired writeback
  cases c.latches.memWb with
  | none => exact ⟨rfl, rfl⟩
  | some w =>
      obtain ⟨hb, ht⟩ := branches_retire c.counters w.control.cls
      refine ⟨hb.trans ?_, ht⟩
      rw [Option.toList_some, List.countP_singleton]
      cases w.control.cls.jumps <;> rfl

/-- Execute counts a branch as taken where it decides it. -/
theorem branches_execute (c : Core) :
    c.execute.core.counters.branches = c.counters.branches
      ∧ c.execute.core.counters.branchesTaken
        = c.counters.branchesTaken + c.deciding.toNat := by
  unfold execute deciding Latches.operands
  cases c.latches.idEx with
  | none => exact ⟨rfl, rfl⟩
  | some e =>
      refine ⟨rfl, ?_⟩
      show c.counters.branchesTaken + (if _ then 1 else 0) = _
      rw [Option.any_some]
      cases e.control.branchTaken _ <;> rfl

/-- Of the stages only execute counts taken branches. -/
theorem branches_flow (p : Platform) (c : Core) :
    (c.flow p).core.counters.branches = c.counters.branches
      ∧ (c.flow p).core.counters.branchesTaken
        = c.counters.branchesTaken + c.deciding.toNat := by
  obtain ⟨n, haccess⟩ := counters_access p c
  -- what access and execute do is the same in every cycle; decode and fetch count no branch
  have hex : (c.access p).core.execute.core.counters.branches = c.counters.branches
      ∧ (c.access p).core.execute.core.counters.branchesTaken
        = c.counters.branchesTaken + c.deciding.toNat := by
    have hdeciding : (c.access p).core.deciding = c.deciding := by
      unfold deciding
      rw [(access_frame p c).2.2.1]
    obtain ⟨hb, ht⟩ := branches_execute (c.access p).core
    rw [haccess] at hb ht
    rw [hdeciding] at ht
    exact ⟨hb, ht⟩
  cases ht : c.latches.transfer? c.traps with
  | some t =>
      rw [flow_transfer p ht]
      cases t <;> exact hex
  | none =>
      rw [flow_next p ht]
      obtain ⟨s, a, hdecode⟩ := counters_decode (c.access p).core.execute.core
      obtain ⟨n, f, hfetch⟩ := counters_fetchNext p (c.access p).core.execute.core.decode.core
        c.latches.waits
      rw [hdecode] at hfetch
      show (fetchNext p _ _).core.counters.branches = _
        ∧ (fetchNext p _ _).core.counters.branchesTaken = _
      rw [hfetch]
      exact hex

/-- What an ordinary cycle adds to the two counters. -/
theorem branches_ordinary (p : Platform) (h : c.Ordinary i) :
    (c.tick p i).counters.branches
        = c.counters.branches + c.latches.memWb.toList.countP (·.control.cls.jumps)
      ∧ (c.tick p i).counters.branchesTaken
        = c.counters.branchesTaken + c.deciding.toNat := by
  obtain ⟨hb, ht⟩ := branches_flow p c.retired
  obtain ⟨hrb, hrt⟩ := branches_retired c
  have hdeciding : c.retired.deciding = c.deciding := by
    unfold deciding
    simp only [retired_frame]
  rw [tick_flow p h, ← hrb, ← hrt, ← hdeciding]
  exact ⟨hb, ht⟩

theorem branches_accept (p : Platform) {cause : InterruptCause} (h : c.Accepts i cause) :
    (c.tick p i).counters.branches
        = c.counters.branches + c.latches.memWb.toList.countP (·.control.cls.jumps)
      ∧ (c.tick p i).counters.branchesTaken = c.counters.branchesTaken := by
  obtain ⟨hb, ht⟩ := branches_retired c
  rw [← hb, ← ht]
  unfold tick cycle
  rw [if_neg (by simp [h.1])]
  simp only [h.2]
  exact ⟨rfl, rfl⟩

/-! ## §4. Along a run. -/

/-- The taken branches that retire in a run. -/
def takenRetired (p : Platform) (c : Core) (s : List Inputs) : List MemWb :=
  along takenRetiring p c s

/-- The taken branches that interrupts discard in a run. -/
def takenLost (p : Platform) (c : Core) (s : List Inputs) : List ExMem :=
  along takenDiscarded p c s

/-- The accounts of the branches of a run: how many of those that were counted
retired, how many are in flight, and how many were discarded. -/
structure Branched (c : Core) (retired : List MemWb) (lost : List ExMem) : Prop where
  /-- Every branch that was counted is in one place. -/
  counted : c.counters.branchesTaken
    = retired.length + (c.takenExMem.length + c.takenMemWb.length) + lost.length
  /-- What retired is counted among the branches and jumps. -/
  retired : retired.length ≤ c.counters.branches
  /-- An interrupt discards one at most. -/
  lost : lost.length ≤ c.counters.interrupts

theorem length_takenExMem_le (c : Core) : c.takenExMem.length ≤ 1 := by
  refine Nat.le_trans (List.length_filter_le _ _) ?_
  cases c.latches.exMem with
  | none => exact Nat.zero_le 1
  | some x => exact Nat.le_refl 1

/-- What retires taken is a branch. -/
theorem length_takenMemWb_le (c : Core) :
    c.takenMemWb.length ≤ c.latches.memWb.toList.countP (·.control.cls.jumps) := by
  unfold takenMemWb
  rw [← List.countP_eq_length_filter]
  exact List.countP_mono_left fun w _ h => Control.jumps_of_takes h

/-- **A cycle without a reset keeps the accounts.** -/
theorem Branched.tick {retired : List MemWb} {lost : List ExMem} (hc : Coherent p c)
    (h : Branched c retired lost) (hi : i.reset = false) :
    Branched (c.tick p i) (retired ++ c.takenRetiring i) (lost ++ c.takenDiscarded i) := by
  obtain ⟨hcounted, hretired, hlost⟩ := h
  have hjumps := c.length_takenMemWb_le
  rw [takenRetiring_of_running hi]
  rcases cycle_cases c i with hr | ⟨cause, ha⟩ | ho
  · rw [hi] at hr
    cases hr
  · -- the branch in EX/MEM is lost, and both latches are empty
    obtain ⟨hex, hmem⟩ := taken_of_empty (tick_accept p ha).2.2.1
    obtain ⟨hb, ht⟩ := branches_accept p ha
    have hone := c.length_takenExMem_le
    rw [takenDiscarded_of_accepts ha]
    constructor
    · rw [ht, hex, hmem, List.length_append, List.length_append, hcounted]
      simp only [List.length_nil]
      omega
    · rw [hb, List.length_append]
      omega
    · rw [(counters_accept p ha).1, List.length_append]
      omega
  · -- each goes on by one latch, and execute counts the one that comes up
    have hadvance := tick_ordinary p ho
    obtain ⟨hb, ht⟩ := branches_ordinary p ho
    rw [takenDiscarded_of_ordinary ho, List.append_nil]
    constructor
    · rw [ht, hc.takenExMem_advance hadvance, hadvance.takenMemWb_eq, List.length_append, hcounted]
      omega
    · rw [hb, List.length_append]
      omega
    · rw [(fetchFaults_ordinary p ho).2]
      exact hlost

/-- The accounts hold along every run without a reset. -/
theorem branched (p : Platform) (dmem : Ram) (regs : Registers) {s : List Inputs}
    (hs : ∀ i ∈ s, i.reset = false) :
    Branched ((fresh p dmem regs).after p s) ((fresh p dmem regs).takenRetired p s)
      ((fresh p dmem regs).takenLost p s) := by
  induction s using List.reverseRecOn with
  | nil => exact ⟨rfl, Nat.le_refl 0, Nat.le_refl 0⟩
  | append_singleton s i ih =>
      have hr : Reachable p ((fresh p dmem regs).after p s) := ⟨dmem, regs, s, rfl⟩
      have hi : i.reset = false := hs i (List.mem_append_right s (List.mem_singleton_self i))
      have hstep := (ih fun j hj => hs j (List.mem_append_left [i] hj)).tick hr.coherent hi
      unfold takenRetired takenLost
      rw [along_snoc, along_snoc, after_snoc]
      exact hstep

/-- **What the counter of taken branches counts.**  In a run without a reset it
is at any time the number of taken branches that retired, and of those that
are in EX/MEM or in MEM/WB, and of those that interrupts have discarded, each
interrupt one at most.  So once nothing is in flight it is not above the
number of branches and jumps that retired, but for those discarded. -/
theorem branches_counted (p : Platform) (dmem : Ram) (regs : Registers) {s : List Inputs}
    (hs : ∀ i ∈ s, i.reset = false) :
    ((fresh p dmem regs).after p s).counters.branchesTaken
        = ((fresh p dmem regs).takenRetired p s).length
          + (((fresh p dmem regs).after p s).takenExMem.length
            + ((fresh p dmem regs).after p s).takenMemWb.length)
          + ((fresh p dmem regs).takenLost p s).length
      ∧ ((fresh p dmem regs).takenLost p s).length
          ≤ ((fresh p dmem regs).after p s).counters.interrupts
      ∧ (((fresh p dmem regs).after p s).drained = true →
          ((fresh p dmem regs).after p s).counters.branchesTaken
            ≤ ((fresh p dmem regs).after p s).counters.branches
              + ((fresh p dmem regs).takenLost p s).length) := by
  obtain ⟨hcounted, hretired, hlost⟩ := branched p dmem regs hs
  refine ⟨hcounted, hlost, fun hd => ?_⟩
  obtain ⟨hex, hmem⟩ := taken_of_empty (latches_of_drained hd)
  rw [hcounted, hex, hmem]
  simp only [List.length_nil]
  omega

/-- One branch, which is taken, and a handler that only returns. -/
def branching : Platform where
  program := .rom ⟨#[(Instr.branch .eq 0 0 4).encode, nopWord, Encode.halt, nopWord,
    Encode.mret], 5⟩
  misaligned := .fault
  resetVector := 0
  interrupts := { handlerVector := 16 }
  traceInstructions := false

/-- An interrupt in the cycle after the branch is executed. -/
def intervening : List Inputs :=
  quiet 3 ++ [{ external := true }] ++ quiet 12

/-- The core once it has halted. -/
def branchingNow : Core :=
  (fresh branching ⟨0, 8, {}⟩ .zero).after branching intervening

/-- Both executions of the branch are counted; one of them was discarded. -/
theorem branches_counted_intervening :
    (∀ i ∈ intervening, i.reset = false) ∧ branchingNow.finished = true
      ∧ branchingNow.counters.branchesTaken
        = ((fresh branching ⟨0, 8, {}⟩ .zero).takenRetired branching intervening).length
          + (branchingNow.takenExMem.length + branchingNow.takenMemWb.length)
          + ((fresh branching ⟨0, 8, {}⟩ .zero).takenLost branching intervening).length
      ∧ ((fresh branching ⟨0, 8, {}⟩ .zero).takenLost branching intervening).length = 1
      ∧ branchingNow.counters.branchesTaken ≤ branchingNow.counters.branches + 1 := by
  have hs : ∀ i ∈ intervening, i.reset = false := by decide
  have hfin : branchingNow.finished = true := by decide +kernel
  have hlost : ((fresh branching ⟨0, 8, {}⟩ .zero).takenLost branching intervening).length = 1 := by
    decide +kernel
  obtain ⟨hcounted, -, hdrained⟩ := branches_counted branching ⟨0, 8, {}⟩ .zero hs
  rw [hlost] at hdrained
  exact ⟨hs, hfin, hcounted, hlost, hdrained (Bool.and_eq_true_iff.mp hfin).2⟩

/-- Two taken branches are counted though one retired and none is in flight. -/
theorem branch_counted_twice :
    (∀ i ∈ intervening, i.reset = false) ∧ branchingNow.drained = true
      ∧ branchingNow.counters.branchesTaken = 2 ∧ branchingNow.counters.branches = 1
      ∧ ((fresh branching ⟨0, 8, {}⟩ .zero).takenRetired branching intervening).length = 1 := by
  decide +kernel

end Core

end FiveStage
