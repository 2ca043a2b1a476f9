/-
  FiveStage.Proofs.Hazards
  ────────────────────────
  **THE CYCLES LOST TO HAZARDS.**

  Two things keep ID/EX empty for a while after an instruction, and both can
  be told from the program alone:

      it feeds the next     one cycle: the next waits for the load
      it jumps              two cycles: what was fetched behind it is lost

  An instruction does at most one of the two.  `gap_tick` says that a cycle
  in which the frontier performs an instruction leaves it exactly so far
  from the next one, and counts the loss.
-/
import FiveStage.Proofs.Counting
import FiveStage.Proofs.Quiet

namespace FiveStage

/-! ## §1. Hazards of the program. -/

/-- The registers an instruction reads. -/
def Instr.sources : Instr → List Reg
  | .op _ _ rs1 rs2 | .store _ rs2 rs1 _ | .branch _ rs1 rs2 _ => [rs1, rs2]
  | .opImm _ _ rs1 _ | .shift _ _ rs1 _ | .load _ _ rs1 _ | .jalr _ rs1 _ => [rs1]
  | .lui .. | .auipc .. | .jal .. | .halt | .mret => []

/-- The register a load fills, if it fills one. -/
def Instr.fills? : Instr → Option Reg
  | .load _ rd _ _ => if rd = 0 then none else some rd
  | _ => none

/-- The first instruction is a load, and the second reads what it loads. -/
def feeds (first second : Word) : Bool :=
  match Instr.decode first, Instr.decode second with
  | .ok i, .ok j => i.fills?.any j.sources.contains
  | _, _ => false

namespace Performed

/-- The next instruction has to wait for this one. -/
def feeds (s t : Performed) : Bool :=
  FiveStage.feeds s.inst t.inst

/-- Number of loads in a run that the next instruction has to wait for. -/
def loadUses (run : List Performed) : Nat :=
  (run.zip run.tail).countP fun (s, t) => s.feeds t

/-- Number of taken branches and jumps in a run. -/
def jumpCount (run : List Performed) : Nat :=
  run.countP jumps

/-- The last instruction of a run adds one if it waits for the load before it. -/
theorem loadUses_snoc (run : List Performed) (s t : Performed) :
    loadUses (run ++ [s] ++ [t]) = loadUses (run ++ [s]) + (s.feeds t).toNat := by
  induction run with
  | nil => cases h : s.feeds t <;> simp [loadUses, h]
  | cons a run ih =>
      -- the pair at the front is the same on both sides
      unfold loadUses at ih ⊢
      cases run with
      | nil =>
          simp only [List.nil_append, List.cons_append, List.tail_cons, List.zip_cons_cons,
            List.countP_cons] at ih ⊢
          omega
      | cons b run =>
          simp only [List.cons_append, List.tail_cons, List.zip_cons_cons,
            List.countP_cons] at ih ⊢
          omega

theorem jumpCount_snoc (run : List Performed) (s : Performed) :
    jumpCount (run ++ [s]) = jumpCount run + s.jumps.toNat := by
  unfold jumpCount
  rw [List.countP_append, List.countP_singleton]
  cases s.jumps <;> rfl

end Performed

/-! ## §2. The signals of a hazard. -/

/-- The signals read the source registers of the instruction. -/
theorem Instr.reads_control (j : Instr) (r : Reg) :
    j.control.reads r.toNat = (r != 0 && j.sources.contains r) := by
  have hzero : (r.toNat != 0) = (r != 0) := by
    rw [Bool.eq_iff_iff, bne_iff_ne, bne_iff_ne, ne_eq, ne_eq, BitVec.toNat_eq]
    rfl
  have hreg : ∀ r' : Reg, (some r'.toNat == some r.toNat) = decide (r = r') := by
    intro r'
    rw [Bool.eq_iff_iff, beq_iff_eq, decide_eq_true_iff, Option.some.injEq, BitVec.toNat_eq,
      eq_comm]
  have hnone : ((none : Option Nat) == some r.toNat) = false := rfl
  unfold Control.reads
  rw [hzero]
  cases j <;>
    simp [Instr.control, Instr.sources, Control.producing, hreg, hnone]

/-- Decode waits for a load exactly if the load feeds the instruction. -/
theorem feeds_eq_signals (w w' : Word) :
    feeds w w'
      = ((Control.ofWord w).isLoad && (Control.ofWord w).rdValid
          && (Control.ofWord w').reads (Control.ofWord w).rd) := by
  unfold feeds Control.ofWord Control.decode
  cases hd : Instr.decode w with
  | error a => rfl
  | ok i =>
      cases hd' : Instr.decode w' with
      | error a =>
          show false = (i.control.isLoad && i.control.rdValid
            && Control.illegal.reads i.control.rd)
          simp [Control.reads, Control.illegal]
      | ok j =>
          show i.fills?.any j.sources.contains = (i.control.isLoad && i.control.rdValid
            && j.control.reads i.control.rd)
          cases i with
          | load f rd rs1 offset =>
              -- a load of `x0` fills nothing, and has no destination signal
              show (if rd = 0 then none else some rd).any j.sources.contains
                = (true && (rd != 0) && j.control.reads rd.toNat)
              rw [j.reads_control]
              by_cases h0 : rd = 0
              · subst h0
                rfl
              · have hne : (rd != 0) = true := bne_iff_ne.mpr h0
                rw [if_neg h0, hne]
                rfl
          | _ => rfl

/-- What jumps is no load. -/
theorem feeds_of_jump {policy : AlignmentPolicy} {h : Hart} {w : Word} (w' : Word)
    (hj : (h.effectOf policy w).target.isSome = true) : feeds w w' = false := by
  unfold Hart.effectOf at hj
  unfold feeds
  cases hd : Instr.decode w with
  | error a => rfl
  | ok i =>
      rw [hd] at hj
      cases i with
      | load f rd rs1 offset =>
          dsimp only [Hart.effect] at hj
          split at hj <;> cases hj
      | _ => cases Instr.decode w' <;> rfl

namespace Core

variable {p : Platform} {c c' : Core} {e : IdEx}

/-- With no handler to return from, execute asks for the transfer of the
effect, whatever the instruction. -/
theorem Coherent.transfer_idle (hc : Coherent p c) (hi : c.traps.active = none)
    (he : c.latches.idEx = some e) :
    c.latches.transfer? c.traps
      = ((c.frontier p).effectOf p.misaligned e.inst).transfer? (c.frontier p).pc := by
  by_cases hk : e.control.cls = .mret
  · rw [transfer_of_mret he hk, TrapUnit.resume?, hi,
      Hart.effectOf_mret p.misaligned _ (hc.idEx_control he ▸ hk)]
    rfl
  · exact hc.transfer_of_some he hk

/-- Outside a handler, fetch is redirected exactly if the sequential machine
jumps. -/
theorem Coherent.redirects_idle (hc : Coherent p c) (hi : c.traps.active = none)
    (he : c.latches.idEx = some e) :
    (c.latches.transfer? c.traps).any (·.redirects)
      = ((c.frontier p).effectOf p.misaligned e.inst).target.isSome := by
  rw [hc.transfer_idle hi he]
  unfold Effect.transfer?
  split
  · rename_i hh
    rw [Hart.target_of_halts hh]
    rfl
  · cases ((c.frontier p).effectOf p.misaligned e.inst).target <;> rfl

/-- The pipeline waits exactly if the load in ID/EX feeds the word in IF/ID. -/
theorem Coherent.waits_idEx (hc : Coherent p c) (he : c.latches.idEx = some e) {f : InFlight}
    (hf : c.latches.ifId = some f) : c.latches.waits = FiveStage.feeds e.inst f.inst := by
  rw [feeds_eq_signals, ← hc.idEx_control he, Latches.waits, he, hf]
  rfl

/-! ## §3. What is behind an instruction. -/

/-- Unless there is a transfer, the frontier comes to what is in IF/ID. -/
theorem Coherent.step_ifId (hc : Coherent p c) (ha : Advance p c c')
    (he : c.latches.idEx = some e) (ht : c.latches.transfer? c.traps = none) {f : InFlight}
    (hf : c.latches.ifId = some f) :
    ∃ t h', (c'.frontier p).step? p.program p.misaligned = some (t, h') ∧ t.inst = f.inst := by
  obtain ⟨hpc, hh⟩ := hc.front_of_next ha.front he ht
  obtain ⟨hpc', hh'⟩ := hc.front_advance ha
  have hfetch : p.program.fetch (c'.frontier p).pc = .ok f.inst := by
    rw [hpc', hpc, ← (hc.next e he).1 f hf]
    exact (hc.ifId f hf).1
  exact ⟨_, _, Hart.step_of_fetch (hh'.trans hh) hfetch, rfl⟩

/-- Only where the program ends IF/ID is empty behind an instruction. -/
theorem Coherent.stuck_of_gap (hc : Coherent p c) (ha : Advance p c c')
    (he : c.latches.idEx = some e) (ht : c.latches.transfer? c.traps = none)
    (hf : c.latches.ifId = none) :
    (c'.frontier p).step? p.program p.misaligned = none := by
  obtain ⟨hpc, hfetch⟩ := (hc.next e he).2 hf
  cases hs : (c'.frontier p).step? p.program p.misaligned with
  | none => rfl
  | some r =>
      have hok := (Hart.fetch_of_step hs).2.1
      rw [(hc.front_advance ha).1, (hc.front_of_next ha.front he ht).1, ← hpc] at hok
      exact absurd hok (hfetch _)

/-- Decode waits for an instruction only if there is one behind it. -/
theorem Coherent.waits_of_stuck (hc : Coherent p c) (ha : Advance p c c')
    (he : c.latches.idEx = some e)
    (hs : (c'.frontier p).step? p.program p.misaligned = none) :
    ((c.latches.transfer? c.traps).isNone && c.latches.waits) = false := by
  cases ht : c.latches.transfer? c.traps with
  | some t => rfl
  | none =>
      show c.latches.waits = false
      cases hf : c.latches.ifId with
      | none =>
          rw [Latches.waits, hf]
          rfl
      | some f =>
          obtain ⟨t, h', hstep, -⟩ := hc.step_ifId ha he ht hf
          rw [hs] at hstep
          cases hstep

/-- **The gap behind an instruction.**  The next one is a cycle away if it has
to wait for this one, two cycles if this one jumps, and at hand otherwise. -/
theorem Coherent.gap_tick (hc : Coherent p c) (hi : c.traps.active = none)
    (ha : Advance p c c') (he : c.latches.idEx = some e) {t : Performed} {h' : Hart}
    (hs : (c'.frontier p).step? p.program p.misaligned = some (t, h')) :
    c'.distance = (FiveStage.feeds e.inst t.inst).toNat
        + 2 * ((c.frontier p).effectOf p.misaligned e.inst).target.isSome.toNat
      ∧ ((c.latches.transfer? c.traps).isNone && c.latches.waits)
          = FiveStage.feeds e.inst t.inst := by
  have hjump := hc.redirects_idle hi he
  have hrun := (hc.at_idEx he).1
  -- without a transfer the next instruction is the one in IF/ID
  have hnext : c.latches.transfer? c.traps = none →
      ∃ f, c.latches.ifId = some f ∧ c.latches.waits = FiveStage.feeds e.inst t.inst := by
    intro ht
    cases hf : c.latches.ifId with
    | none =>
        rw [hc.stuck_of_gap ha he ht hf] at hs
        cases hs
    | some f =>
        obtain ⟨t', h'', hs', hinst⟩ := hc.step_ifId ha he ht hf
        rw [hs] at hs'
        cases hs'
        exact ⟨f, rfl, by rw [hinst, hc.waits_idEx he hf]⟩
  unfold distance
  cases ha.front with
  | redirect target transfer ifId idEx =>
      -- both bubbles behind a jump, which is no load
      rw [transfer] at hjump ⊢
      rw [feeds_of_jump t.inst hjump.symm, ← hjump, ifId, idEx]
      exact ⟨rfl, rfl⟩
  | halt resume transfer _ _ _ halted =>
      rw [Hart.step_of_halted ((hc.front_advance ha).2.trans halted)] at hs
      cases hs
  | stopped _ stop =>
      rw [hrun] at stop
      cases stop
  | stall transfer _ waits ifId idEx =>
      -- one bubble, with the next instruction held in IF/ID
      obtain ⟨f, hf, hfeeds⟩ := hnext transfer
      rw [transfer] at hjump ⊢
      rw [← hfeeds, ← hjump, waits, ifId, idEx, hf]
      exact ⟨rfl, rfl⟩
  | fetched _ transfer _ waits _ _ idEx | starved _ transfer _ waits _ _ idEx =>
      obtain ⟨f, hf, hfeeds⟩ := hnext transfer
      rw [transfer] at hjump ⊢
      rw [← hfeeds, ← hjump, waits, idEx, hf]
      exact ⟨rfl, rfl⟩

end Core

end FiveStage
