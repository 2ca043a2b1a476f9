/-
  FiveStage.Proofs.Provenance
  ───────────────────────────
  **WHERE AN INSTRUCTION IN MEM/WB COMES FROM.**

  `Reachable.induct` is the induction over everything a core can get into: a
  property of the fresh cores that every cycle keeps.  The first use of it is
  for MEM/WB, of which coherence says little: what stands there is what the
  memory stage made of an instruction that had the signals of its word.
-/
import FiveStage.Proofs.Frontier

namespace FiveStage

/-! ## §1. What the memory stage leaves of an instruction. -/

namespace ExMem

variable {policy : AlignmentPolicy} {dmem : Ram} {x : ExMem}

/-- A load that was refused writes no register. -/
theorem complete_suppressed (hl : x.control.cls = .load)
    (hf : (x.complete policy dmem).1.fault ≠ none) :
    (x.complete policy dmem).1.control.rdValid = false := by
  unfold complete at hf ⊢
  simp only [hl] at hf ⊢
  split at hf
  · exact absurd rfl hf
  · rfl

end ExMem

/-- The instruction has come through the memory stage, with the signals of
its word. -/
def MemWb.Completed (policy : AlignmentPolicy) (w : MemWb) : Prop :=
  ∃ (x : ExMem) (dmem : Ram),
    x.control = Control.ofWord x.inst ∧ w = (x.complete policy dmem).1

namespace MemWb

variable {policy : AlignmentPolicy} {w : MemWb}

theorem Completed.cls_eq (h : w.Completed policy) :
    w.control.cls = (Control.ofWord w.inst).cls := by
  obtain ⟨x, dmem, hx, rfl⟩ := h
  rw [ExMem.complete_cls, ExMem.complete_toInFlight, hx]

/-- A load that was refused does not write its destination. -/
theorem Completed.suppressed (h : w.Completed policy) (hl : w.control.cls = .load)
    (hf : w.fault ≠ none) : w.control.rdValid = false := by
  obtain ⟨x, dmem, -, rfl⟩ := h
  exact ExMem.complete_suppressed (ExMem.complete_cls ▸ hl) hf

end MemWb

/-! ## §2. Everything a core can get into. -/

namespace Core

variable {p : Platform} {c : Core}

theorem Reachable.start (p : Platform) (dmem : Ram) (regs : Registers) :
    Reachable p (fresh p dmem regs) :=
  ⟨dmem, regs, [], rfl⟩

/-- A cycle leads from a reachable core to a reachable one. -/
theorem Reachable.tick (hr : Reachable p c) (i : Inputs) : Reachable p (c.tick p i) := by
  obtain ⟨dmem, regs, schedule, rfl⟩ := hr
  refine ⟨dmem, regs, schedule ++ [i], ?_⟩
  unfold after
  rw [List.foldl_append]
  rfl

/-- **Induction over everything a core can get into.** -/
@[elab_as_elim]
theorem Reachable.induct {motive : Core → Prop}
    (start : ∀ dmem regs, motive (fresh p dmem regs))
    (step : ∀ c i, Reachable p c → motive c → motive (c.tick p i)) (hr : Reachable p c) :
    motive c := by
  obtain ⟨dmem, regs, schedule, rfl⟩ := hr
  -- a run unrolls at its first cycle, so the core it starts from varies
  suffices h : ∀ (s : List Inputs) (c : Core), Reachable p c → motive c → motive (c.after p s) from
    h schedule _ (Reachable.start p dmem regs) (start dmem regs)
  intro s
  induction s with
  | nil => exact fun c _ hc => hc
  | cons i is ih => exact fun c hr hc => ih (c.tick p i) (hr.tick i) (step c i hr hc)

/-! ## §3. MEM/WB. -/

/-- What is in MEM/WB after a cycle was in EX/MEM before it. -/
theorem memWb_tick {i : Inputs} {w : MemWb} (hw : (c.tick p i).latches.memWb = some w) :
    ∃ x, c.latches.exMem = some x ∧ w = (x.complete p.misaligned c.dmem).1 := by
  rcases cycle_cases c i with hr | ⟨cause, hi⟩ | ho
  · rw [tick_reset p c hr] at hw
    cases hw
  · rw [(tick_accept p hi).2.2.1] at hw
    cases hw
  · rw [(tick_ordinary p ho).memWb] at hw
    obtain ⟨x, hx, rfl⟩ := Option.map_eq_some_iff.mp hw
    exact ⟨x, hx, rfl⟩

/-- **All that gets into MEM/WB came through the memory stage.** -/
theorem Reachable.completed (hr : Reachable p c) :
    ∀ w, c.latches.memWb = some w → w.Completed p.misaligned := by
  refine hr.induct ?_ ?_
  · intro dmem regs w hw
    cases hw
  · intro c i hr _ w hw
    obtain ⟨x, hx, rfl⟩ := memWb_tick hw
    exact ⟨x, c.dmem, (hr.coherent.exMem x hx).2.control, rfl⟩

end Core

end FiveStage
