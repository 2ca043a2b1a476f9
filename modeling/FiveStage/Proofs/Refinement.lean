/-
  FiveStage.Proofs.Refinement
  ───────────────────────────
  **THE PIPELINE REFINES THE SEQUENTIAL MACHINE.**

  A fresh core that is left alone shows, cycle after cycle, a run of the
  sequential machine from the reset vector.  After any number of cycles

      the records        are those of the first `k` instructions
      the registers      are those after `k` instructions
      data memory        is one instruction ahead while MEM/WB is occupied
      a drained core     is the sequential machine after `k` instructions

  Nothing is lost at the other end: every instruction retires, and when the
  sequential machine stops the pipeline drains and stays drained.
-/
import FiveStage.Proofs.Quiet

namespace FiveStage

/-! ## §1. Starting. -/

/-- The sequential machine at the reset vector. -/
def Platform.boot (p : Platform) (dmem : Ram) (regs : Registers) : Hart where
  pc := p.resetVector
  regs := regs
  dmem := dmem

namespace Core

variable (p : Platform) (dmem : Ram) (regs : Registers)

theorem frontier_fresh : (fresh p dmem regs).frontier p = p.boot dmem regs :=
  frontier_of_empty p rfl

/-- The frontier tracks the sequential machine from the reset vector on. -/
theorem tracks_fresh (n : Nat) :
    Tracks p (p.boot dmem regs) ((fresh p dmem regs).issued p n)
      ((fresh p dmem regs).after p (quiet n)) := by
  rw [← frontier_fresh]
  exact tracks_quiet (coherent_fresh p dmem regs) rfl n

/-- What has retired and the two that are about to are the instructions issued. -/
theorem seen_fresh (n : Nat) :
    (fresh p dmem regs).seen p (quiet n)
        ++ (((fresh p dmem regs).after p (quiet n)).leaving
            ++ ((fresh p dmem regs).after p (quiet n)).following p)
      = ((p.boot dmem regs).history p.program p.misaligned
          ((fresh p dmem regs).issued p n)).map Performed.visible := by
  rw [seen_quiet (coherent_fresh p dmem regs) rfl n, ← frontier_fresh]
  rfl

theorem seen_fresh_two (n : Nat) :
    (fresh p dmem regs).seen p (quiet (n + 2))
      = ((p.boot dmem regs).history p.program p.misaligned
          ((fresh p dmem regs).issued p n)).map Performed.visible := by
  rw [quiet_add, seen_append, seen_two, seen_fresh]

/-! ## §2. The state that goes with the records. -/

end Core

/-- The registers of a run are what its records make of them. -/
theorem Hart.regs_run (program : ProgramMemory) (policy : AlignmentPolicy) (h : Hart) (n : Nat) :
    (h.after program policy n).regs
      = Core.replay h.regs ((h.history program policy n).map Performed.visible) := by
  induction n with
  | zero => rfl
  | succ n ih =>
      cases hs : (h.after program policy n).step? program policy with
      | none =>
          obtain ⟨ha, hh⟩ := run_succ_of_stuck n hs
          rw [ha, hh, ih]
      | some r =>
          obtain ⟨s, h'⟩ := r
          obtain ⟨ha, hh⟩ := run_succ_of_step n hs
          obtain ⟨-, -, -, heffect, he⟩ := fetch_of_step hs
          rw [ha, hh, he, List.map_append, Core.replay_append, Hart.apply_regs, ih, ← heffect]
          rfl

namespace Core

variable (p : Platform) (dmem : Ram) (regs : Registers)

/-- The records are a history, as far as they go. -/
theorem records_fresh (n : Nat) :
    ((p.boot dmem regs).history p.program p.misaligned
        ((fresh p dmem regs).seen p (quiet n)).length).length
        = ((fresh p dmem regs).seen p (quiet n)).length
      ∧ (fresh p dmem regs).seen p (quiet n)
        = ((p.boot dmem regs).history p.program p.misaligned
            ((fresh p dmem regs).seen p (quiet n)).length).map Performed.visible := by
  have hfull := (tracks_fresh p dmem regs n).full
  obtain ⟨hle, hseen⟩ := Hart.history_of_prefix hfull ⟨_, seen_fresh p dmem regs n⟩
  exact ⟨Hart.full_of_le hle hfull, hseen⟩

/-- The registers are those of the sequential machine after as many instructions
as were seen. -/
theorem regs_fresh (n : Nat) :
    ((fresh p dmem regs).after p (quiet n)).regs
      = ((p.boot dmem regs).after p.program p.misaligned
          ((fresh p dmem regs).seen p (quiet n)).length).regs := by
  rw [Hart.regs_run, ← (records_fresh p dmem regs n).2, regs_after]
  rfl

/-- Data memory belongs to all that has left the memory stage, the
instruction in MEM/WB included. -/
theorem dmem_fresh (n : Nat) :
    ((fresh p dmem regs).after p (quiet n)).dmem
      = ((p.boot dmem regs).after p.program p.misaligned
          (((fresh p dmem regs).seen p (quiet n)).length
            + ((fresh p dmem regs).after p (quiet n)).leaving.length)).dmem := by
  cases n with
  | zero => rfl
  | succ n =>
      have ht := tracks_fresh p dmem regs n
      have ha := tick_ordinary p (ordinary_quiet ((fresh p dmem regs).after p (quiet n)))
      -- memory is where the frontier was a cycle ago
      have hmem : ((fresh p dmem regs).after p (quiet (n + 1))).dmem
          = ((p.boot dmem regs).after p.program p.misaligned
              ((fresh p dmem regs).issued p n)).dmem := by
        rw [after_quiet_succ, ha.dmem_eq ht.coherent, ht.frontier]
      have hlen := congrArg List.length (seen_fresh_two p dmem regs n)
      rw [seen_quiet_succ, List.length_append, List.length_map, ht.full] at hlen
      rw [hmem, hlen]

/-- A drained core is the sequential machine after as many instructions. -/
theorem drained_fresh (n : Nat)
    (hd : ((fresh p dmem regs).after p (quiet n)).drained = true) :
    ((fresh p dmem regs).after p (quiet n)).hart
      = (p.boot dmem regs).after p.program p.misaligned
          ((fresh p dmem regs).seen p (quiet n)).length := by
  have hl := latches_of_drained hd
  have ht := tracks_fresh p dmem regs n
  have hseen := seen_fresh p dmem regs n
  obtain ⟨hleaving, hfollowing⟩ := pending_of_empty p hl
  rw [hleaving, hfollowing, List.append_nil, List.append_nil] at hseen
  rw [hseen, List.length_map, ht.full, ← ht.frontier, frontier_of_empty p hl]

/-! ## §3. Nothing is lost. -/

/-- Every part of the sequential history is seen at some time. -/
theorem exists_seen_fresh (k : Nat) :
    ∃ n, (fresh p dmem regs).seen p (quiet n)
      = ((p.boot dmem regs).history p.program p.misaligned k).map Performed.visible := by
  rw [← frontier_fresh]
  exact exists_seen (coherent_fresh p dmem regs) rfl k

/-- When the sequential machine has come to a stop the pipeline drains. -/
theorem exists_drained_fresh (k : Nat)
    (hs : ((p.boot dmem regs).after p.program p.misaligned k).step? p.program p.misaligned
      = none) :
    ∃ m, ∀ n, m ≤ n → ((fresh p dmem regs).after p (quiet n)).drained = true
      ∧ ((fresh p dmem regs).after p (quiet n)).hart
          = (p.boot dmem regs).after p.program p.misaligned k := by
  obtain ⟨j, -, hfull, -, hafter⟩ := Hart.exists_full p.program p.misaligned
    (p.boot dmem regs) k
  rw [← frontier_fresh] at hfull
  -- after `m` cycles the frontier stands where the machine stops
  obtain ⟨m, hm⟩ := reaches (coherent_fresh p dmem regs) rfl hfull
  have ht : Tracks p (p.boot dmem regs) j ((fresh p dmem regs).after p (quiet m)) :=
    hm ▸ tracks_fresh p dmem regs m
  rw [← hafter] at hs ⊢
  refine ⟨m + 2, ?_⟩
  intro n hn
  obtain ⟨d, rfl⟩ := Nat.exists_eq_add_of_le hn
  have hl : ((fresh p dmem regs).after p (quiet (m + 2 + d))).latches = .empty := by
    rw [Nat.add_assoc, after_quiet_add]
    exact ht.drains hs (Nat.le_add_right 2 d)
  refine ⟨drained_of_empty hl, ?_⟩
  rw [← frontier_of_empty p hl, Nat.add_assoc, after_quiet_add]
  exact (ht.stays hs (2 + d)).frontier

/-- **The pipeline refines the sequential machine.**  At any time the records
of a fresh core that is left alone are those of the first `k` instructions,
with the registers after these, the data memory after these and the one in
MEM/WB, and the whole state after these once the pipeline is drained.  Every
history is seen in time, and a core whose program has come to a stop drains. -/
theorem refines_sequential :
    (∀ n, ∃ k,
        ((p.boot dmem regs).history p.program p.misaligned k).length = k
        ∧ (fresh p dmem regs).seen p (quiet n)
            = ((p.boot dmem regs).history p.program p.misaligned k).map Performed.visible
        ∧ ((fresh p dmem regs).after p (quiet n)).regs
            = ((p.boot dmem regs).after p.program p.misaligned k).regs
        ∧ ((fresh p dmem regs).after p (quiet n)).dmem
            = ((p.boot dmem regs).after p.program p.misaligned
                (if ((fresh p dmem regs).after p (quiet n)).latches.memWb.isSome then k + 1
                  else k)).dmem
        ∧ (((fresh p dmem regs).after p (quiet n)).drained = true →
            ((fresh p dmem regs).after p (quiet n)).hart
              = (p.boot dmem regs).after p.program p.misaligned k))
      ∧ (∀ k, ∃ n, (fresh p dmem regs).seen p (quiet n)
          = ((p.boot dmem regs).history p.program p.misaligned k).map Performed.visible)
      ∧ ∀ k, ((p.boot dmem regs).after p.program p.misaligned k).step? p.program p.misaligned
          = none →
          ∃ m, ∀ n, m ≤ n → ((fresh p dmem regs).after p (quiet n)).drained = true
            ∧ ((fresh p dmem regs).after p (quiet n)).hart
                = (p.boot dmem regs).after p.program p.misaligned k := by
  refine ⟨?_, exists_seen_fresh p dmem regs, exists_drained_fresh p dmem regs⟩
  intro n
  obtain ⟨hfull, hseen⟩ := records_fresh p dmem regs n
  refine ⟨_, hfull, hseen, regs_fresh p dmem regs n, ?_, drained_fresh p dmem regs n⟩
  rw [dmem_fresh, leaving]
  cases ((fresh p dmem regs).after p (quiet n)).latches.memWb <;> rfl

/-- A program that adds to what it has just loaded, and halts. -/
def loading : Platform where
  program := .rom ⟨#[(Instr.load .lw 1 0 0).encode, (Instr.opImm .add 1 1 1).encode,
    Encode.halt], 3⟩
  misaligned := .fault
  resetVector := 0
  interrupts := {}
  traceInstructions := false

/-- Its pipeline drains, with the halt performed. -/
theorem refines_sequential_loading :
    ((loading.boot ⟨0, 8, {}⟩ .zero).after loading.program loading.misaligned 3).halted = true
      ∧ ((loading.boot ⟨0, 8, {}⟩ .zero).after loading.program loading.misaligned 3).regs.read 1
          = 1
      ∧ ∃ m, ∀ n, m ≤ n →
        ((fresh loading ⟨0, 8, {}⟩ .zero).after loading (quiet n)).drained = true
          ∧ ((fresh loading ⟨0, 8, {}⟩ .zero).after loading (quiet n)).hart
            = (loading.boot ⟨0, 8, {}⟩ .zero).after loading.program loading.misaligned 3 := by
  have hh : ((loading.boot ⟨0, 8, {}⟩ .zero).after loading.program
      loading.misaligned 3).halted = true := by decide +kernel
  exact ⟨hh, by decide +kernel,
    (refines_sequential loading ⟨0, 8, {}⟩ .zero).2.2 3 (Hart.step_of_halted hh)⟩

end Core

end FiveStage
