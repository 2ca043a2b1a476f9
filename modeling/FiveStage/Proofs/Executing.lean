/-
  FiveStage.Proofs.Executing
  ──────────────────────────
  **WHAT IS EXECUTED, AND ONCE.**

  Execute works for the instruction in ID/EX, and in ordinary cycles only:
  neither a reset nor an interrupt lets it do anything.  What it has worked
  for is in EX/MEM when the cycle is over, and nothing else ever is:

      executing        what execute works for in a cycle
      exMem_tick       it goes on to EX/MEM
      executed_once    along a run the numbers of what was executed only grow

  The last says that no instruction is executed twice, whatever is discarded
  and fetched again around it: fetched again, it has another number.
-/
import FiveStage.Proofs.Conservation

namespace FiveStage

/-- The numbers of the instructions that have not come to execute yet. -/
def Latches.waitingIds (l : Latches) : List Nat :=
  (l.idEx.map (·.id)).toList ++ (l.ifId.map (·.id)).toList

namespace Core

variable {p : Platform} {c c' : Core} {i : Inputs}

/-! ## §1. One cycle. -/

/-- The instruction that execute works for in a cycle. -/
def executing (c : Core) (i : Inputs) : List IdEx :=
  if i.reset then []
  else if (c.traps.arbitrate i c.halted).isSome then []
  else c.latches.idEx.toList

theorem executing_of_reset (h : i.reset = true) : c.executing i = [] := by
  simp [executing, h]

theorem executing_of_accepts {cause : InterruptCause} (h : c.Accepts i cause) :
    c.executing i = [] := by
  simp [executing, h.1, h.2]

/-- An ordinary cycle executes what is in ID/EX. -/
theorem executing_of_ordinary (h : c.Ordinary i) : c.executing i = c.latches.idEx.toList := by
  simp [executing, h.1, h.2]

/-- What is executed, by the two cases. -/
theorem mem_executing {e : IdEx} :
    e ∈ c.executing i ↔ c.Ordinary i ∧ c.latches.idEx = some e := by
  rcases cycle_cases c i with hr | ⟨cause, hi⟩ | ho
  · simp [executing_of_reset hr, Ordinary, hr]
  · simp [executing_of_accepts hi, Ordinary, hi.2]
  · simp [executing_of_ordinary ho, ho]

/-- **What is executed goes on to EX/MEM**, and nothing else gets there. -/
theorem exMem_tick (p : Platform) (c : Core) (i : Inputs) :
    (c.tick p i).latches.exMem.toList
      = (c.executing i).map fun e => executed e (c.latches.operands e) := by
  rcases cycle_cases c i with hr | ⟨cause, hi⟩ | ho
  · rw [executing_of_reset hr, tick_reset p c hr]
    rfl
  · rw [executing_of_accepts hi, (tick_accept p hi).2.2.1]
    rfl
  · rw [executing_of_ordinary ho, (tick_ordinary p ho).exMem, Latches.executed]
    cases c.latches.idEx <;> rfl

/-- What comes behind execute is what was there, less what was executed and
what was discarded, and what is fetched. -/
theorem Coherent.waiting_tick (hc : Coherent p c) (i : Inputs) :
    ∃ kept n, ((c.executing i).map (·.id) ++ kept).Sublist c.latches.waitingIds
      ∧ (c.tick p i).latches.waitingIds = kept ++ List.range' (c.lastId + 1) n
      ∧ (c.tick p i).lastId = c.lastId + n := by
  rcases cycle_cases c i with hr | ⟨cause, hi⟩ | ho
  · -- a reset leaves nothing to wait, and executes nothing
    refine ⟨[], 0, ?_, ?_, ?_⟩
    · rw [executing_of_reset hr]
      exact List.nil_sublist _
    · rw [tick_reset p c hr]
      rfl
    · rw [tick_reset p c hr]
      rfl
  · -- an interrupt discards what waits
    refine ⟨[], 0, ?_, ?_, lastId_accept p hi⟩
    · rw [executing_of_accepts hi]
      exact List.nil_sublist _
    · rw [(tick_accept p hi).2.2.1]
      rfl
  · obtain ⟨n, hwaiting, hlast⟩ := hc.front_ids (tick_ordinary p ho).front
    refine ⟨_, n, ?_, hwaiting, hlast⟩
    rw [executing_of_ordinary ho]
    -- what is executed stood in ID/EX, in front of all that is kept
    have hidEx : c.latches.idEx.toList.map (·.id) = (c.latches.idEx.map (·.id)).toList := by
      cases c.latches.idEx <;> rfl
    rw [hidEx]
    refine List.Sublist.append_left ?_ _
    split
    · exact List.nil_sublist _
    · exact List.Sublist.refl _

/-! ## §2. Along a run. -/

/-- The instructions that are executed in a run. -/
def executedIn (p : Platform) (c : Core) (s : List Inputs) : List IdEx :=
  along executing p c s

theorem executedIn_snoc (p : Platform) (c : Core) (s : List Inputs) (i : Inputs) :
    c.executedIn p (s ++ [i]) = c.executedIn p s ++ (c.after p s).executing i :=
  along_snoc executing p c s i

/-- In the order of execution the numbers grow, and what waits is younger. -/
theorem executed_ordered (p : Platform) (dmem : Ram) (regs : Registers) (s : List Inputs) :
    (((fresh p dmem regs).executedIn p s).map (·.id)
          ++ ((fresh p dmem regs).after p s).latches.waitingIds).Pairwise (· < ·)
      ∧ ∀ n ∈ ((fresh p dmem regs).executedIn p s).map (·.id)
          ++ ((fresh p dmem regs).after p s).latches.waitingIds,
          n ≤ ((fresh p dmem regs).after p s).lastId := by
  induction s using List.reverseRecOn with
  | nil =>
      refine ⟨List.Pairwise.nil, ?_⟩
      intro n hn
      cases hn
  | append_singleton s i ih =>
      obtain ⟨hordered, hle⟩ := ih
      obtain ⟨kept, n, hsub, hwaiting, hlast⟩ :=
        ((coherent_fresh p dmem regs).after s).waiting_tick i
      -- what is kept stays in order, and what is fetched has the next numbers
      have hold := hsub.append_left (((fresh p dmem regs).executedIn p s).map (·.id))
      rw [executedIn_snoc, after_snoc, List.map_append, hwaiting, hlast, List.append_assoc,
        ← List.append_assoc _ kept, ← List.append_assoc]
      have hkept := fun a ha => hle a (hold.subset ha)
      refine ⟨pairwise_append_range' (hordered.sublist hold) hkept n, ?_⟩
      intro a ha
      rcases List.mem_append.mp ha with ha | ha
      · exact Nat.le_add_right_of_le (hkept a ha)
      · rw [List.mem_range'_1] at ha
        omega

/-- **No instruction is executed twice.** -/
theorem executed_once (p : Platform) (dmem : Ram) (regs : Registers) (s : List Inputs) :
    (((fresh p dmem regs).executedIn p s).map (·.id)).Pairwise (· < ·) :=
  (executed_ordered p dmem regs s).1.sublist (List.sublist_append_left _ _)

end Core

end FiveStage
