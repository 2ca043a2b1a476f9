/-
  FiveStage.Proofs.Timing
  ───────────────────────
  **HOW LONG A PROGRAM TAKES, TO THE CYCLE.**

  Instruction number `k` of the sequential machine retires from a fresh core
  that is left alone exactly in the cycle

      5 + k + (load uses up to k) + 2 · (jumps before k)

  and in no other cycle does anything retire.  The proof keeps a clock: at
  any time the cycles gone and those until ID/EX holds the next instruction
  are what the instructions issued so far have cost.  The counters keep the
  same account, so a run that halts can be told from its counters:

      cycles = retired + anomalies + data stalls + 2 · control stalls + 4
-/
import FiveStage.Core.Elapsed
import FiveStage.Proofs.Hazards
import FiveStage.Proofs.Refinement
import FiveStage.Simulator

namespace FiveStage

/-! ## §1. The cost of the first instructions. -/

namespace Hart

variable {program : ProgramMemory} {policy : AlignmentPolicy} {h : Hart} {k : Nat}

/-- Number of instructions before number `k` that are a load which the next
instruction has to wait for. -/
def loadUses (program : ProgramMemory) (policy : AlignmentPolicy) (h : Hart) (k : Nat) : Nat :=
  Performed.loadUses (h.history program policy (k + 1))

/-- Number of instructions before number `k` that jump. -/
def jumpCount (program : ProgramMemory) (policy : AlignmentPolicy) (h : Hart) (k : Nat) : Nat :=
  Performed.jumpCount (h.history program policy k)

/-- The cycle in which instruction number `k` retires. -/
def retireCycle (program : ProgramMemory) (policy : AlignmentPolicy) (h : Hart) (k : Nat) : Nat :=
  5 + k + h.loadUses program policy k + 2 * h.jumpCount program policy k

theorem loadUses_zero : h.loadUses program policy 0 = 0 := by
  unfold loadUses
  cases hs : h.step? program policy with
  | none =>
      rw [(run_of_stuck hs 1).2]
      rfl
  | some r =>
      rw [(run_of_step hs 0).2]
      rfl

/-- One more instruction adds one to the jumps if it jumps. -/
theorem jumpCount_succ {s : Performed} {h' : Hart}
    (hs : (h.after program policy k).step? program policy = some (s, h')) :
    h.jumpCount program policy (k + 1) = h.jumpCount program policy k + s.jumps.toNat := by
  unfold jumpCount
  rw [(run_succ_of_step k hs).2, Performed.jumpCount_snoc]

/-- One more instruction adds one to the load-uses if the one before it is a
load that it waits for. -/
theorem loadUses_succ {s t : Performed} {h' h'' : Hart}
    (hs : (h.after program policy k).step? program policy = some (s, h'))
    (ht : h'.step? program policy = some (t, h'')) :
    h.loadUses program policy (k + 1) = h.loadUses program policy k + (s.feeds t).toNat := by
  obtain ⟨hafter, hhistory⟩ := run_succ_of_step k hs
  rw [← hafter] at ht
  unfold loadUses
  rw [(run_succ_of_step (k + 1) ht).2, hhistory, Performed.loadUses_snoc]

theorem loadUses_succ_of_stuck
    (hs : (h.after program policy (k + 1)).step? program policy = none) :
    h.loadUses program policy (k + 1) = h.loadUses program policy k := by
  unfold loadUses
  rw [(run_succ_of_stuck (k + 1) hs).2]

/-- A halt stops the hart and jumps nowhere. -/
theorem halt_of_step {s : Performed} {h' : Hart}
    (hs : (h.after program policy k).step? program policy = some (s, h'))
    (hhalt : Instr.decode s.inst = .ok .halt) :
    (h.after program policy (k + 1)).halted = true ∧ s.jumps = false := by
  obtain ⟨-, -, -, heffect, hnext⟩ := fetch_of_step hs
  have hhalts : s.effect = { halts := true } := by
    rw [heffect, effectOf, hhalt]
    rfl
  constructor
  · rw [(run_succ_of_step k hs).1, hnext, ← heffect, hhalts]
    rfl
  · rw [Performed.jumps, hhalts]
    rfl

end Hart

namespace Core

/-! ## §2. The account of what was decoded. -/

variable {p : Platform} {c c' : Core} {h : Hart} {n k : Nat}

/-- Instructions counted, and those in flight that are still to be counted. -/
def accounted (c : Core) : Nat :=
  c.counters.retired + c.counters.anomalies
    + (c.latches.memWb.any (·.control.legal)).toNat
    + (c.latches.exMem.any (·.control.legal)).toNat

/-- Execute passes the accountable on; an anomaly in ID/EX is counted already. -/
theorem accounted_advance (ha : Advance p c c') (hk : Charges c c') :
    c'.accounted + (c.latches.idEx.any (!·.control.legal)).toNat
      = c.accounted + c.latches.idEx.isSome.toNat
        + (c'.latches.idEx.any (!·.control.legal)).toNat := by
  -- the memory stage keeps the class of its instruction
  have hmemWb : c'.latches.memWb.any (·.control.legal)
      = c.latches.exMem.any (·.control.legal) := by
    rw [ha.memWb]
    cases c.latches.exMem with
    | none => rfl
    | some x =>
        show (x.complete p.misaligned c.dmem).1.control.legal = x.control.legal
        unfold Control.legal
        rw [ExMem.complete_cls]
  -- what execute hands on is legal or not, as it was decoded
  have hexMem : (c'.latches.exMem.any (·.control.legal)).toNat
      + (c.latches.idEx.any (!·.control.legal)).toNat = c.latches.idEx.isSome.toNat := by
    rw [ha.exMem, Latches.executed]
    cases c.latches.idEx with
    | none => rfl
    | some e =>
        show e.control.legal.toNat + (!e.control.legal).toNat = 1
        cases e.control.legal <;> rfl
  unfold accounted
  rw [hk.retired, hk.anomalies, hmemWb]
  omega

/-! ## §3. The clock. -/

/-- The core is `n` cycles and `k` instructions into the run of a hart. -/
structure Clocked (p : Platform) (h : Hart) (n k : Nat) (c : Core) : Prop where
  /-- The frontier has performed `k` instructions. -/
  tracks : Tracks p h k c
  /-- The waits so far are the load uses so far. -/
  dataStalls : c.counters.dataStalls = h.loadUses p.program p.misaligned k
  /-- The redirects so far are the jumps so far. -/
  controlStalls : c.counters.controlStalls = h.jumpCount p.program p.misaligned k
  /-- All instructions are accounted for. -/
  accounted : c.accounted = k + (c.latches.idEx.any (!·.control.legal)).toNat
  /-- The next instruction, if there is one, is in ID/EX at the right time. -/
  clock : (h.after p.program p.misaligned k).step? p.program p.misaligned ≠ none →
    n + c.distance
      = 2 + k + h.loadUses p.program p.misaligned k + 2 * h.jumpCount p.program p.misaligned k

/-- A cycle without an instruction in ID/EX brings the next one closer. -/
theorem Clocked.tick_of_none (hk : Clocked p h n k c) (he : c.latches.idEx = none) :
    Clocked p h (n + 1) k (c.tick p {}) := by
  have ho := ordinary_quiet c
  have ha := tick_ordinary p ho
  have hch := tick_charges p ho
  have ht := transfer_of_none he
  refine ⟨hk.tracks.tick_of_none he, ?_, ?_, ?_, ?_⟩
  · rw [hch.dataStalls, waits_of_bubble he, ht]
    exact hk.dataStalls
  · rw [hch.controlStalls, ht]
    exact hk.controlStalls
  · have hacc := accounted_advance ha hch
    rw [he, hk.accounted, he] at hacc
    exact hacc
  · intro hs
    -- nothing is charged, and the next instruction is one cycle closer
    have hclock := hk.clock hs
    have hd := hk.tracks.coherent.distance_tick ha he (hk.tracks.frontier ▸ hs)
    omega

/-- A cycle with one performs it, and what that costs is known. -/
theorem Clocked.tick_of_some (hk : Clocked p h n k c) {e : IdEx}
    (he : c.latches.idEx = some e) : Clocked p h (n + 1) (k + 1) (c.tick p {}) := by
  have ho := ordinary_quiet c
  have ha := tick_ordinary p ho
  have hch := tick_charges p ho
  have hc := hk.tracks.coherent
  have hi := hk.tracks.idle
  have hs := hc.frontier_performs ha he fun _ => hi
  have htracks := (hk.tracks.tick_of_some he).1
  rw [hk.tracks.frontier] at hs
  have hjumps := Hart.jumpCount_succ hs
  have hredirects := hc.redirects_idle hi he
  rw [hk.tracks.frontier] at hredirects
  refine ⟨htracks, ?_, ?_, ?_, ?_⟩
  · -- the load use is counted when the next instruction waits, so there must be one
    rw [hch.dataStalls, hk.dataStalls]
    cases hnext : ((c.tick p {}).frontier p).step? p.program p.misaligned with
    | none =>
        rw [hc.waits_of_stuck ha he hnext,
          Hart.loadUses_succ_of_stuck (htracks.frontier ▸ hnext)]
        rfl
    | some r =>
        rw [(hc.gap_tick hi ha he hnext).2, Hart.loadUses_succ hs hnext]
        rfl
  · rw [hch.controlStalls, hk.controlStalls, hredirects, hjumps]
    rfl
  · have hacc := accounted_advance ha hch
    rw [hk.accounted, he] at hacc
    have hsome : (some e).isSome.toNat = 1 := rfl
    omega
  · -- the clock was at zero, and the gap is what this instruction costs beyond its cycle
    intro hnext
    obtain ⟨⟨t, h'⟩, hnext⟩ := Option.ne_none_iff_exists'.mp hnext
    rw [← htracks.frontier] at hnext
    have hclock := hk.clock (by rw [hs]; simp)
    have hzero : c.distance = 0 := distance_eq_zero.mpr (by rw [he]; rfl)
    have hgap := (hc.gap_tick hi ha he hnext).1
    have hloads := Hart.loadUses_succ hs hnext
    rw [hk.tracks.frontier] at hgap
    unfold Performed.feeds at hloads
    unfold Performed.jumps at hjumps
    rw [hgap, hloads, hjumps]
    dsimp only
    omega

/-- Once the program has come to a stop, only the time goes on. -/
theorem Clocked.stays (hk : Clocked p h n k c)
    (hs : (h.after p.program p.misaligned k).step? p.program p.misaligned = none) (m : Nat) :
    Clocked p h (n + m) k (c.after p (quiet m)) := by
  induction m with
  | zero => exact hk
  | succ m ih =>
      rw [after_quiet_succ]
      exact ih.tick_of_none
        (ih.tracks.coherent.bubbles_of_stuck (ih.tracks.frontier ▸ hs)).2

/-- With nothing in flight the counters add up to the cost of the program. -/
theorem Clocked.sum_of_empty (hk : Clocked p h n k c) (hl : c.latches = .empty) :
    c.counters.retired + c.counters.anomalies + c.counters.dataStalls
        + 2 * c.counters.controlStalls
      = k + h.loadUses p.program p.misaligned k + 2 * h.jumpCount p.program p.misaligned k := by
  have hacc := hk.accounted
  unfold Core.accounted at hacc
  rw [hl] at hacc
  have hcount : c.counters.retired + c.counters.anomalies = k := hacc
  rw [hcount, hk.dataStalls, hk.controlStalls]

/-- **The clock is right** at any time. -/
theorem clocked_fresh (p : Platform) (dmem : Ram) (regs : Registers) (n : Nat) :
    Clocked p (p.boot dmem regs) n ((fresh p dmem regs).issued p n)
      ((fresh p dmem regs).after p (quiet n)) := by
  induction n with
  | zero => exact ⟨tracks_fresh p dmem regs 0, Hart.loadUses_zero.symm, rfl, rfl, fun _ => by
      rw [issued, Hart.loadUses_zero]; rfl⟩
  | succ n ih =>
      rw [after_quiet_succ]
      cases he : ((fresh p dmem regs).after p (quiet n)).latches.idEx with
      | none =>
          rw [issued_succ_of_none he]
          exact ih.tick_of_none he
      | some e =>
          rw [issued_succ_of_some (by rw [he]; rfl)]
          exact ih.tick_of_some he

/-! ## §4. Retirement on time. -/

variable (p : Platform) (dmem : Ram) (regs : Registers)

/-- Every instruction is issued on time, which is three cycles before it
retires. -/
theorem issued_on_time {s : Performed}
    (hs : ((p.boot dmem regs).history p.program p.misaligned (k + 1))[k]? = some s) :
    ∃ n, n + 3 = (p.boot dmem regs).retireCycle p.program p.misaligned k
      ∧ (fresh p dmem regs).issued p n = k
      ∧ ((fresh p dmem regs).after p (quiet n)).issuing p = [s] := by
  have hc := coherent_fresh p dmem regs
  obtain ⟨hfull, h', hstep⟩ := Hart.getElem?_history.mp hs
  rw [← frontier_fresh] at hfull
  obtain ⟨m, hm⟩ := reaches hc rfl hfull
  have hcan : ((p.boot dmem regs).after p.program p.misaligned
      ((fresh p dmem regs).issued p m)).step? p.program p.misaligned ≠ none := by
    rw [hm, hstep]
    simp
  -- it is the next one after `m` cycles, and the clock says when it arrives
  obtain ⟨hissued, hsome⟩ := arrives hc rfl _ rfl (by rw [frontier_fresh]; exact hcan)
  generalize m + ((fresh p dmem regs).after p (quiet m)).distance = n at hissued hsome
  have hclocked := clocked_fresh p dmem regs n
  rw [hissued, hm] at hclocked
  have hclock := hclocked.clock (by rw [hstep]; simp)
  have hzero := distance_eq_zero.mpr hsome
  refine ⟨n, ?_, hissued.trans hm, ?_⟩
  · unfold Hart.retireCycle
    omega
  · obtain ⟨e, he⟩ := Option.isSome_iff_exists.mp hsome
    have hperforms := hclocked.tracks.coherent.frontier_performs
      (tick_ordinary p (ordinary_quiet _)) he fun _ => hclocked.tracks.idle
    rw [hclocked.tracks.frontier, hstep] at hperforms
    rw [issuing_of_some he, hclocked.tracks.frontier]
    cases hperforms
    rfl

/-- What is issued is an instruction of the program, and it is on time. -/
theorem on_time_of_issuing {n : Nat} {s : Performed}
    (hs : ((fresh p dmem regs).after p (quiet n)).issuing p = [s]) :
    ((p.boot dmem regs).history p.program p.misaligned
        ((fresh p dmem regs).issued p n + 1))[(fresh p dmem regs).issued p n]? = some s
      ∧ n + 3 = (p.boot dmem regs).retireCycle p.program p.misaligned
          ((fresh p dmem regs).issued p n) := by
  have hclocked := clocked_fresh p dmem regs n
  obtain ⟨ht, hhistory, -⟩ := hclocked.tracks.tick
  rw [hs] at hhistory
  have hget : ((p.boot dmem regs).history p.program p.misaligned
      ((fresh p dmem regs).issued p n + 1))[(fresh p dmem regs).issued p n]? = some s := by
    show ((p.boot dmem regs).history p.program p.misaligned
      ((fresh p dmem regs).issued p n + [s].length))[(fresh p dmem regs).issued p n]? = some s
    rw [hhistory, List.getElem?_append_right (Nat.le_of_eq hclocked.tracks.full),
      hclocked.tracks.full, Nat.sub_self]
    rfl
  refine ⟨hget, ?_⟩
  obtain ⟨-, h', hstep⟩ := Hart.getElem?_history.mp hget
  have hclock := hclocked.clock (by rw [hstep]; simp)
  have hzero := distance_eq_zero.mpr (isSome_of_issuing hs)
  unfold Hart.retireCycle
  omega

/-- Each instruction of the sequential program retires, in the cycle that its
cost says. -/
theorem retires_at {s : Performed}
    (hs : ((p.boot dmem regs).history p.program p.misaligned (k + 1))[k]? = some s) :
    ((fresh p dmem regs).after p
        (quiet ((p.boot dmem regs).retireCycle p.program p.misaligned k))).lastRetired.map
      Retirement.visible = some s.visible := by
  obtain ⟨n, hn, -, hissuing⟩ := issued_on_time p dmem regs hs
  have hretired := retired_three (coherent_fresh p dmem regs) rfl n
  rw [hissuing] at hretired
  rw [← hn]
  exact Option.toList_eq_singleton_iff.mp hretired

/-- Before the fourth cycle there is nothing to retire. -/
theorem lastRetired_early {n : Nat} (hn : n < 3) :
    ((fresh p dmem regs).after p (quiet n)).lastRetired = none := by
  match n, hn with
  | 0, _ => rfl
  | 1, _ => exact lastRetired_tick p _ rfl
  | 2, _ =>
      have hempty := (tick_ordinary p (ordinary_quiet (fresh p dmem regs))).memWb
      exact (lastRetired_tick p _ rfl).trans (congrArg (Option.map MemWb.retirement) hempty)

/-- Nothing else retires: what retires in a cycle is the instruction whose cycle
it is. -/
theorem retired_on_time {n : Nat} {r : Retirement}
    (hr : ((fresh p dmem regs).after p (quiet n)).lastRetired = some r) :
    ∃ k s, ((p.boot dmem regs).history p.program p.misaligned (k + 1))[k]? = some s
      ∧ n = (p.boot dmem regs).retireCycle p.program p.misaligned k
      ∧ r.visible = s.visible := by
  rcases Nat.lt_or_ge n 3 with hlt | hge
  · rw [lastRetired_early p dmem regs hlt] at hr
    cases hr
  · obtain ⟨m, rfl⟩ := Nat.exists_eq_add_of_le' hge
    have hretired := retired_three (coherent_fresh p dmem regs) rfl m
    rw [hr] at hretired
    cases hissuing : ((fresh p dmem regs).after p (quiet m)).issuing p with
    | nil =>
        rw [hissuing] at hretired
        cases hretired
    | cons s rest =>
        rw [hissuing] at hretired
        obtain ⟨hvisible, hrest⟩ := List.cons.inj hretired
        have hnil : rest = [] := List.map_eq_nil_iff.mp hrest.symm
        subst hnil
        obtain ⟨hget, hcycle⟩ := on_time_of_issuing p dmem regs hissuing
        exact ⟨_, s, hget, hcycle, hvisible⟩

/-! ## §5. The run of a program that halts. -/

/-- While an instruction can be performed the core has not halted. -/
theorem running_of_step {c : Core} (ht : Tracks p h k c)
    (hs : (h.after p.program p.misaligned k).step? p.program p.misaligned ≠ none) :
    c.halted = false := by
  cases hh : c.halted with
  | false => rfl
  | true =>
      rw [← ht.frontier] at hs
      exact absurd (Hart.step_of_halted (ht.coherent.front.2.trans hh)) hs

theorem not_finished_of_exMem {c : Core} (hx : c.latches.exMem.isSome = true) :
    c.finished = false := by
  unfold finished drained Latches.isEmpty Latches.occupied
  simp [hx]

theorem not_finished_of_memWb {c : Core} (hw : c.latches.memWb.isSome = true) :
    c.finished = false := by
  unfold finished drained Latches.isEmpty Latches.occupied
  simp [hw]

/-- A core does not finish before the halt has retired. -/
theorem not_finished_before {s : Performed}
    (hs : ((p.boot dmem regs).history p.program p.misaligned (k + 1))[k]? = some s) {j : Nat}
    (hj : j < (p.boot dmem regs).retireCycle p.program p.misaligned k) :
    ((fresh p dmem regs).after p (quiet j)).finished = false := by
  obtain ⟨n, hn, hissued, hissuing⟩ := issued_on_time p dmem regs hs
  have hsome := isSome_of_issuing hissuing
  have hexMem : ((fresh p dmem regs).after p (quiet (n + 1))).latches.exMem.isSome = true := by
    rw [after_quiet_succ, (tick_ordinary p (ordinary_quiet _)).exMem, Latches.executed,
      Option.isSome_map]
    exact hsome
  have hmemWb : ((fresh p dmem regs).after p (quiet (n + 2))).latches.memWb.isSome = true := by
    rw [after_quiet_succ, (tick_ordinary p (ordinary_quiet _)).memWb, Option.isSome_map]
    exact hexMem
  -- up to its issue the core runs, and then the halt itself is in flight
  have hcases : j ≤ n ∨ j = n + 1 ∨ j = n + 2 := by omega
  rcases hcases with hle | rfl | rfl
  · have hfull := (Hart.getElem?_history.mp hs).1
    obtain ⟨h', hstep⟩ := (Hart.getElem?_history.mp hs).2
    have hle' : (fresh p dmem regs).issued p j ≤ k := hissued ▸ issued_mono p _ hle
    have hlen : ((p.boot dmem regs).history p.program p.misaligned (k + 1)).length = k + 1 := by
      rw [(Hart.run_succ_of_step k hstep).2, List.length_append, hfull]
      rfl
    obtain ⟨-, s', h'', hstep'⟩ := Hart.step_of_full
      (Hart.full_of_le (Nat.succ_le_succ hle') hlen)
    have hrun := running_of_step p (tracks_fresh p dmem regs j) (by rw [hstep']; simp)
    unfold finished
    rw [hrun]
    rfl
  · exact not_finished_of_exMem hexMem
  · exact not_finished_of_memWb hmemWb

/-- In the cycle in which the halt retires the core finishes, and its counters
add up to that cycle. -/
theorem finishes_at {s : Performed}
    (hs : ((p.boot dmem regs).history p.program p.misaligned (k + 1))[k]? = some s)
    (hhalt : Instr.decode s.inst = .ok .halt) {c : Core}
    (hc : c = (fresh p dmem regs).after p
      (quiet ((p.boot dmem regs).retireCycle p.program p.misaligned k))) :
    c.finished = true
      ∧ (p.boot dmem regs).retireCycle p.program p.misaligned k
          = c.counters.retired + c.counters.anomalies + c.counters.dataStalls
            + 2 * c.counters.controlStalls + 4 := by
  obtain ⟨n, hn, hissued, hissuing⟩ := issued_on_time p dmem regs hs
  obtain ⟨hfull, h', hstep⟩ := Hart.getElem?_history.mp hs
  have hsucc : (fresh p dmem regs).issued p (n + 1) = k + 1 := by
    rw [issued, hissuing, hissued]
    rfl
  have h1 := clocked_fresh p dmem regs (n + 1)
  rw [hsucc] at h1
  -- from here on nothing is issued, and two cycles later all has retired
  obtain ⟨hstop, hjumps⟩ := Hart.halt_of_step hstep hhalt
  have hstuck : ((p.boot dmem regs).after p.program p.misaligned (k + 1)).step? p.program
      p.misaligned = none := Hart.step_of_halted hstop
  have hafter : c = ((fresh p dmem regs).after p (quiet (n + 1))).after p (quiet 2) := by
    rw [hc, ← hn, ← after_quiet_add]
  have h3 := h1.stays hstuck 2
  rw [← hafter] at h3
  have hl : c.latches = .empty := by
    rw [hafter]
    exact h1.tracks.drains hstuck (Nat.le_refl 2)
  have hh : c.halted = true := by
    rw [← h3.tracks.coherent.front.2, h3.tracks.frontier]
    exact hstop
  constructor
  · unfold finished
    rw [hh, drained_of_empty hl]
    rfl
  · have hloads := Hart.loadUses_succ_of_stuck hstuck
    have hjumpCount := Hart.jumpCount_succ hstep
    rw [h3.sum_of_empty hl, hloads, hjumpCount, hjumps]
    show 5 + k + _ + _ = k + 1 + _ + 2 * (_ + 0) + 4
    omega

end Core

/-! ## §6. The simulator. -/

/-- A run ends with the first cycle after which the core has finished. -/
theorem Simulator.runSteps_core {α : Type} (observe : α → Cycle → α) (n : Nat) :
    ∀ {budget : Nat} (sim : Simulator) (a : α), sim.lines = {} → n ≤ budget →
      (∀ j, j < n → (sim.core.after sim.platform (Core.quiet j)).finished = false) →
      (sim.core.after sim.platform (Core.quiet n)).finished = true →
      (sim.runSteps observe budget a).1.core = sim.core.after sim.platform (Core.quiet n) := by
  induction n with
  | zero =>
      intro budget sim a _ _ _ hfin
      -- finished: the loop stops, with or without budget
      cases budget with
      | zero => rfl
      | succ budget =>
          unfold runSteps
          have hfin : sim.core.finished = true := hfin
          rw [if_pos hfin]
          rfl
  | succ n ih =>
      intro budget sim a hl hn hbefore hfin
      cases budget with
      | zero => exact absurd hn (Nat.not_succ_le_zero n)
      | succ budget =>
          have hrun : sim.core.finished = false := hbefore 0 (Nat.zero_lt_succ n)
          have hcycle : (sim.afterCycle sim.cycle).core = sim.core.tick sim.platform {} := by
            rw [← hl]
            rfl
          unfold runSteps
          rw [if_neg (by rw [hrun]; exact Bool.false_ne_true)]
          -- one cycle, then the loop from the core it leaves
          have hrest := ih (sim.afterCycle sim.cycle) (observe a sim.cycle) hl
            (Nat.le_of_succ_le_succ hn)
          rw [hcycle] at hrest
          exact hrest (fun j hj => hbefore (j + 1) (Nat.succ_lt_succ hj)) hfin

namespace Core

/-- **Cycle-exact timing.**  Instruction number `k` of the program retires in
cycle `retireCycle k`, in no other cycle anything retires, and the simulator
of a program whose instruction number `k` is a halt stops in that cycle, which
its counters add up to. -/
theorem cycle_exact (p : Platform) (dmem : Ram) (regs : Registers) :
    (∀ k s, ((p.boot dmem regs).history p.program p.misaligned (k + 1))[k]? = some s →
        ((fresh p dmem regs).after p
            (quiet ((p.boot dmem regs).retireCycle p.program p.misaligned k))).lastRetired.map
          Retirement.visible = some s.visible)
      ∧ (∀ n r, ((fresh p dmem regs).after p (quiet n)).lastRetired = some r →
          ∃ k s, ((p.boot dmem regs).history p.program p.misaligned (k + 1))[k]? = some s
            ∧ n = (p.boot dmem regs).retireCycle p.program p.misaligned k
            ∧ r.visible = s.visible)
      ∧ ∀ k s limit,
          ((p.boot dmem regs).history p.program p.misaligned (k + 1))[k]? = some s →
          Instr.decode s.inst = .ok .halt →
          (p.boot dmem regs).retireCycle p.program p.misaligned k ≤ limit →
          let sim : Simulator :=
            Simulator.run { platform := p, core := fresh p dmem regs, maxCycles := limit }
          sim.outcome = .halted ((p.boot dmem regs).retireCycle p.program p.misaligned k)
            ∧ (p.boot dmem regs).retireCycle p.program p.misaligned k
                = sim.core.counters.retired + sim.core.counters.anomalies
                  + sim.core.counters.dataStalls + 2 * sim.core.counters.controlStalls + 4 := by
  refine ⟨fun k s => retires_at p dmem regs, fun n r => retired_on_time p dmem regs, ?_⟩
  intro k s limit hs hhalt hlimit sim
  -- the loop stops in the cycle in which the halt retires, and not before
  have hcore : sim.core = (fresh p dmem regs).after p
      (quiet ((p.boot dmem regs).retireCycle p.program p.misaligned k)) := by
    have hfin := (finishes_at p dmem regs hs hhalt rfl).1
    exact Simulator.runSteps_core _ _ _ () rfl hlimit
      (fun j hj => not_finished_before p dmem regs hs hj) hfin
  obtain ⟨hfin, hsum⟩ := finishes_at p dmem regs hs hhalt hcore
  refine ⟨?_, hsum⟩
  unfold Simulator.outcome
  rw [if_pos hfin, hcore, cycles_after, quiet, List.length_replicate]
  show Outcome.halted (0 + _) = _
  rw [Nat.zero_add]

/-- Three instructions, of which the second waits for the first: the halt
retires in the eighth cycle. -/
theorem cycle_exact_loading :
    ∃ sim : Simulator,
      sim = Simulator.run
        { platform := loading, core := fresh loading ⟨0, 8, {}⟩ .zero, maxCycles := 8 }
      ∧ sim.outcome = .halted 8
      ∧ 8 = sim.core.counters.retired + sim.core.counters.anomalies
          + sim.core.counters.dataStalls + 2 * sim.core.counters.controlStalls + 4 := by
  have hcycle : (loading.boot ⟨0, 8, {}⟩ .zero).retireCycle loading.program loading.misaligned 2
      = 8 := by decide +kernel
  have hhalt : ((loading.boot ⟨0, 8, {}⟩ .zero).history loading.program loading.misaligned
      (2 + 1))[2]? = some ⟨8, Encode.halt, { halts := true }⟩ := rfl
  obtain ⟨hout, hsum⟩ := (cycle_exact loading ⟨0, 8, {}⟩ .zero).2.2 2 _ 8 hhalt rfl
    (Nat.le_of_eq hcycle)
  rw [hcycle] at hout hsum
  exact ⟨_, rfl, hout, hsum⟩

end Core

end FiveStage
