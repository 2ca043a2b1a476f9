/-
  FiveStage.Proofs.Nesting
  ────────────────────────
  **INTERRUPTS DO NOT NEST.**

  The trap unit holds at most one trap.  In every cycle one of four things
  happens to it:

      reset    the core is reset, and any trap is forgotten
      enter    an interrupt is accepted, which finds no trap
      leave    execute meets a trap return, which finds the trap it left
      keep     nothing

  So entries and exits alternate, and the interrupts taken are the traps that
  were left, those forgotten, and the one that is active now.  A return acts
  in execute, two stages before it retires, and cannot be taken back: what
  comes next finds the trap gone, and resumes where it said.
-/
import FiveStage.Proofs.Executing

namespace FiveStage.Core

variable {p : Platform} {c c' : Core} {i : Inputs}

/-! ## §1. One cycle of the trap unit. -/

/-- The trap returns that are executed in a cycle. -/
def mretsOf (c : Core) (i : Inputs) : List IdEx :=
  (c.executing i).filter (·.inst = Encode.mret)

/-- Those of them that leave a handler. -/
def returnsOf (c : Core) (i : Inputs) : List IdEx :=
  if c.traps.active.isSome then c.mretsOf i else []

theorem mretsOf_of_executing (he : c.executing i = []) : c.mretsOf i = [] := by
  rw [mretsOf, he]
  rfl

/-- A cycle that executes no trap return leaves no handler. -/
theorem returnsOf_of_mretsOf (hm : c.mretsOf i = []) : c.returnsOf i = [] := by
  rw [returnsOf, hm]
  exact ite_self []

/-- What a cycle from `c` to `c'` does to the trap unit. -/
inductive TrapStep (p : Platform) (c c' : Core) (i : Inputs) : Prop where
  /-- The core is reset. -/
  | reset (level : i.reset = true) (returns : c.returnsOf i = [])
      (traps : c'.traps = .atReset p.interrupts)
      (interrupts : c'.counters.interrupts = c.counters.interrupts)
  /-- An interrupt is accepted. -/
  | enter (cause : InterruptCause) (accepts : c.Accepts i cause) (returns : c.returnsOf i = [])
      (traps : c'.traps = ⟨false, some ⟨c.epc, cause⟩⟩)
      (interrupts : c'.counters.interrupts = c.counters.interrupts + 1)
  /-- A trap return is executed, with a trap to return from. -/
  | leave (e : IdEx) (trap : Trap) (running : i.reset = false)
      (active : c.traps.active = some trap) (mrets : c.mretsOf i = [e])
      (traps : c'.traps = ⟨true, none⟩)
      (interrupts : c'.counters.interrupts = c.counters.interrupts)
  /-- Nothing happens to it. -/
  | keep (running : i.reset = false) (returns : c.returnsOf i = [])
      (traps : c'.traps = c.traps)
      (interrupts : c'.counters.interrupts = c.counters.interrupts)

theorem Coherent.cls_mret_iff (hc : Coherent p c) {e : IdEx} (he : c.latches.idEx = some e) :
    e.control.cls = .mret ↔ e.inst = Encode.mret := by
  rw [hc.idEx_control he, Control.cls_ofWord_mret]

/-- Executing a trap return leaves the handler, and nothing else does. -/
theorem Coherent.traps_of_executed (hc : Coherent p c) (ho : c.Ordinary i) {e : IdEx}
    (he : c.latches.idEx = some e) :
    (c.tick p i).traps = if e.inst = Encode.mret then c.traps.leave else c.traps := by
  rw [(tick_ordinary p ho).traps, Latches.returning, he, Option.any_some]
  simp only [hc.cls_mret_iff he, decide_eq_true_eq]

/-- An ordinary cycle leaves the handler if it executes a trap return. -/
theorem Coherent.trapStep_ordinary (hc : Coherent p c) (ho : c.Ordinary i) :
    TrapStep p c (c.tick p i) i := by
  have hinterrupts := (fetchFaults_ordinary p ho).2
  have hexecuting := executing_of_ordinary ho
  cases he : c.latches.idEx with
  | none =>
      rw [he] at hexecuting
      refine .keep ho.1 (returnsOf_of_mretsOf (mretsOf_of_executing hexecuting)) ?_ hinterrupts
      rw [(tick_ordinary p ho).traps, Latches.returning, he]
      rfl
  | some e =>
      rw [he] at hexecuting
      have htraps := hc.traps_of_executed ho he
      by_cases hm : e.inst = Encode.mret
      · have hmrets : c.mretsOf i = [e] := by
          rw [mretsOf, hexecuting]
          simp [hm]
        rw [if_pos hm, TrapUnit.leave] at htraps
        cases hactive : c.traps.active with
        | none =>
            -- a stray one has nothing to leave
            rw [hactive] at htraps
            refine .keep ho.1 ?_ htraps hinterrupts
            rw [returnsOf, hactive]
            rfl
        | some trap =>
            rw [hactive] at htraps
            exact .leave e trap ho.1 hactive hmrets htraps hinterrupts
      · have hmrets : c.mretsOf i = [] := by
          rw [mretsOf, hexecuting]
          simp [hm]
        rw [if_neg hm] at htraps
        exact .keep ho.1 (returnsOf_of_mretsOf hmrets) htraps hinterrupts

/-- **Every cycle is one of the four.** -/
theorem Coherent.trapStep (hc : Coherent p c) (i : Inputs) : TrapStep p c (c.tick p i) i := by
  rcases cycle_cases c i with hr | ⟨cause, hi⟩ | ho
  · refine .reset hr (returnsOf_of_mretsOf (mretsOf_of_executing (executing_of_reset hr))) ?_ ?_ <;>
      rw [tick_reset p c hr] <;> rfl
  · exact .enter cause hi (returnsOf_of_mretsOf (mretsOf_of_executing (executing_of_accepts hi)))
      (tick_accept p hi).2.2.2.2.1 (counters_accept p hi).1
  · exact hc.trapStep_ordinary ho

/-- An interrupt finds no trap. -/
theorem Coherent.idle_of_accepts (hc : Coherent p c) {cause : InterruptCause}
    (h : c.Accepts i cause) : c.traps.active = none :=
  hc.masked h.unmasked.1

/-! ## §2. What is so in every core. -/

/-- Interrupts are enabled when no trap is active, if they are used at all. -/
structure Gated (s : InterruptSettings) (traps : TrapUnit) : Prop where
  off : s.enabledAtReset = false → traps = ⟨false, none⟩
  on : s.enabledAtReset = true → (traps.enabled = true ↔ traps.active = none)

/-- At reset no trap is active, and interrupts are enabled as the settings say. -/
theorem gated_atReset (s : InterruptSettings) : Gated s (.atReset s) := by
  constructor
  · intro h
    rw [TrapUnit.atReset, h]
  · intro h
    simp [TrapUnit.atReset, h]

/-- In every reachable core interrupts are enabled exactly while no trap is active, if
they are used at all. -/
theorem Reachable.gated (hr : Reachable p c) : Gated p.interrupts c.traps := by
  refine hr.induct ?_ ?_
  · intro dmem regs
    exact gated_atReset p.interrupts
  · intro c i hr ih
    cases hr.coherent.trapStep i with
    | reset _ _ traps =>
        rw [traps]
        exact gated_atReset p.interrupts
    | enter cause accepts _ traps =>
        rw [traps]
        refine ⟨fun hoff => ?_, fun _ => by simp⟩
        -- an interrupt was accepted, so they are used
        have hen := accepts.unmasked.1
        rw [ih.off hoff] at hen
        cases hen
    | leave e trap _ active _ traps =>
        rw [traps]
        refine ⟨fun hoff => ?_, fun _ => by simp⟩
        -- there was a trap to return from, so they are used
        rw [ih.off hoff] at active
        cases active
    | keep _ _ traps =>
        rw [traps]
        exact ih

/-- A trap stays as long as no trap return is executed and the core is not reset. -/
theorem Coherent.holds (hc : Coherent p c) {trap : Trap} (ht : c.traps.active = some trap)
    (u : List Inputs) (hu : ∀ q ∈ c.course p u, q.2.reset = false ∧ q.1.mretsOf q.2 = []) :
    (c.after p u).traps.active = some trap := by
  induction u generalizing c with
  | nil => exact ht
  | cons i u ih =>
      obtain ⟨⟨hi, hm⟩, hrest⟩ := List.forall_mem_cons.mp hu
      refine ih (hc.tick i) ?_ hrest
      cases hc.trapStep i with
      | reset level =>
          rw [hi] at level
          cases level
      | enter cause accepts =>
          rw [hc.idle_of_accepts accepts] at ht
          cases ht
      | leave e _ _ _ mrets =>
          rw [hm] at mrets
          cases mrets
      | keep _ _ traps => rw [traps, ht]

/-- Without a trap there is none until an interrupt is accepted. -/
theorem Coherent.idles (hc : Coherent p c) (ht : c.traps.active = none) (u : List Inputs)
    (hu : ∀ q ∈ c.course p u, ∀ cause, ¬ q.1.Accepts q.2 cause) :
    (c.after p u).traps.active = none := by
  induction u generalizing c with
  | nil => exact ht
  | cons i u ih =>
      obtain ⟨hi, hrest⟩ := List.forall_mem_cons.mp hu
      refine ih (hc.tick i) ?_ hrest
      cases hc.trapStep i with
      | reset _ _ traps | leave _ _ _ _ _ traps => exact congrArg TrapUnit.active traps
      | enter cause accepts => exact absurd accepts (hi cause)
      | keep _ _ traps => rw [traps, ht]

/-! ## §3. The return. -/

/-- The cycle to `c'` returned from this trap by executing `e`, for good. -/
structure Returned (p : Platform) (trap : Trap) (e : IdEx) (c' : Core) : Prop where
  /-- Fetch goes on where the trap said. -/
  pc : c'.pc = trap.epc
  ifId : c'.latches.ifId = none
  idEx : c'.latches.idEx = none
  /-- Interrupts are enabled, and no trap is active. -/
  traps : c'.traps = ⟨true, none⟩
  /-- None is active again until another interrupt is accepted. -/
  left : ∀ u, (∀ q ∈ c'.course p u, ∀ cause, ¬ q.1.Accepts q.2 cause) →
    (c'.after p u).traps.active = none
  /-- One that is accepted at once resumes there, not at the return. -/
  resumes : ∀ i cause, c'.Accepts i cause →
    (c'.tick p i).traps.active = some ⟨trap.epc, cause⟩
  /-- Otherwise the return goes on to MEM/WB. -/
  advances : ∀ i, c'.Ordinary i → (c'.tick p i).latches.memWb.map (·.id) = some e.id
  /-- It is not executed again. -/
  once : ∀ u, e.id ∉ (c'.executedIn p u).map (·.id)

/-- What was executed before a moment is not executed after it. -/
theorem not_mem_executedIn (p : Platform) (dmem : Ram) (regs : Registers) {s : List Inputs}
    {e : IdEx} (he : e ∈ (fresh p dmem regs).executedIn p s) (u : List Inputs) :
    e.id ∉ (((fresh p dmem regs).after p s).executedIn p u).map (·.id) := by
  have honce := executed_once p dmem regs (s ++ u)
  rw [executedIn, along_append, List.map_append, List.pairwise_append] at honce
  intro hmem
  exact Nat.lt_irrefl e.id (honce.2.2 _ (List.mem_map_of_mem he) _ hmem)

/-- **A trap return that finds a trap returns from it, for good.** -/
theorem returned_of_mret (p : Platform) (dmem : Ram) (regs : Registers) (s : List Inputs)
    {trap : Trap} (ht : ((fresh p dmem regs).after p s).traps.active = some trap) {e : IdEx}
    (he : e ∈ ((fresh p dmem regs).after p s).mretsOf i) :
    Returned p trap e (((fresh p dmem regs).after p s).tick p i) := by
  have hc := (coherent_fresh p dmem regs).after s
  have hexecuted : e ∈ (fresh p dmem regs).executedIn p (s ++ [i]) := by
    rw [executedIn_snoc]
    exact List.mem_append_right _ (List.mem_filter.mp he).1
  have honce := not_mem_executedIn p dmem regs hexecuted
  -- the rest is about the core at hand, however it came to be
  rw [after_snoc] at honce
  generalize (fresh p dmem regs).after p s = c at *
  obtain ⟨hexec, hinst⟩ := List.mem_filter.mp he
  obtain ⟨ho, hidEx⟩ := mem_executing.mp hexec
  have hcls : e.control.cls = .mret := (hc.cls_mret_iff hidEx).mpr (of_decide_eq_true hinst)
  have ha := tick_ordinary p ho
  have htransfer : c.latches.transfer? c.traps = some (.redirect trap.epc) := by
    rw [transfer_of_mret hidEx hcls, TrapUnit.resume?, ht]
    rfl
  obtain ⟨hpc, hifId, hidEx', -⟩ := ha.front.of_redirect htransfer
  have htraps : (c.tick p i).traps = ⟨true, none⟩ := by
    rw [hc.traps_of_executed ho hidEx, if_pos (of_decide_eq_true hinst), TrapUnit.leave, ht]
    rfl
  -- the return is in EX/MEM now, and an interrupt does not restart it
  have hexMem : (c.tick p i).latches.exMem = some (executed e (c.latches.operands e)) := by
    rw [ha.exMem, Latches.executed, hidEx]
    rfl
  have hepc : (c.tick p i).epc = trap.epc := by
    rw [epc_of_mret hexMem hcls, frontPc_of_bubbles hidEx' hifId, hpc]
  refine ⟨hpc, hifId, hidEx', htraps, ?_, ?_, ?_, honce⟩
  · exact (hc.tick i).idles (by rw [htraps])
  · intro j cause hj
    rw [(tick_accept p hj).2.2.2.2.1, hepc]
    rfl
  · intro j hj
    rw [(tick_ordinary p hj).memWb, hexMem]
    exact congrArg (fun f : InFlight => some f.id) ExMem.complete_toInFlight

/-! ## §4. Along a run. -/

/-- The trap returns of a run that left a handler. -/
def returnsIn (p : Platform) (c : Core) (s : List Inputs) : List IdEx :=
  along returnsOf p c s

/-- The traps of a run that were forgotten in a reset. -/
def lostTraps (p : Platform) (c : Core) (s : List Inputs) : Nat :=
  (c.course p s).countP fun q => q.2.reset && q.1.traps.active.isSome

/-- The traps entered in a run are those left, those forgotten, and the one
that is active. -/
theorem interrupts_balance (p : Platform) (dmem : Ram) (regs : Registers) (s : List Inputs) :
    ((fresh p dmem regs).after p s).counters.interrupts
      = ((fresh p dmem regs).returnsIn p s).length + (fresh p dmem regs).lostTraps p s
        + ((fresh p dmem regs).after p s).traps.active.toList.length := by
  induction s using List.reverseRecOn with
  | nil => rfl
  | append_singleton s i ih =>
      have hc := (coherent_fresh p dmem regs).after s
      rw [returnsIn, lostTraps, along_snoc, after_snoc, course_append, List.length_append,
        List.countP_append]
      rw [returnsIn, lostTraps] at ih
      generalize (fresh p dmem regs).after p s = c at *
      have hone : (c.course p [i]).countP (fun q => q.2.reset && q.1.traps.active.isSome)
          = (i.reset && c.traps.active.isSome).toNat := by
        cases h : i.reset && c.traps.active.isSome <;> simp [course, h]
      rw [hone]
      -- a trap that goes leaves the last summand for the first or the second
      cases hc.trapStep i with
      | reset level returns traps interrupts =>
          rw [interrupts, ih, returns, traps, level]
          cases c.traps.active <;> rfl
      | enter cause accepts returns traps interrupts =>
          rw [interrupts, ih, returns, traps, accepts.1, hc.idle_of_accepts accepts]
          rfl
      | leave e trap running active mrets traps interrupts =>
          rw [interrupts, ih, returnsOf, active, mrets, traps, running]
          simp only [Option.isSome_some, if_true, List.length_singleton, Option.toList_some,
            Option.toList_none, List.length_nil, Bool.false_and, Bool.toNat_false]
          omega
      | keep running returns traps interrupts =>
          rw [interrupts, ih, returns, traps, running]
          rfl

/-- **Interrupts never nest, and every entry is matched.**  After every run,
under any inputs: a core with interrupts off at reset accepts none and has no
trap; otherwise they are enabled exactly while no trap is active.  A trap stays
as it is and shuts out every other interrupt until a trap return is executed or
the core is reset; the return goes to its address, for good.  The interrupts
taken are the traps returned from, those lost to a reset, and the active one. -/
theorem interrupts_never_nest (p : Platform) (dmem : Ram) (regs : Registers) (s : List Inputs) :
    (p.interrupts.enabledAtReset = false →
        ((fresh p dmem regs).after p s).traps = ⟨false, none⟩
          ∧ ∀ i cause, ¬ ((fresh p dmem regs).after p s).Accepts i cause)
      ∧ (p.interrupts.enabledAtReset = true →
          (((fresh p dmem regs).after p s).traps.enabled = true
            ↔ ((fresh p dmem regs).after p s).traps.active = none))
      ∧ (∀ trap, ((fresh p dmem regs).after p s).traps.active = some trap →
          ∀ u, (∀ q ∈ ((fresh p dmem regs).after p s).course p u,
                q.2.reset = false ∧ q.1.mretsOf q.2 = []) →
            ((fresh p dmem regs).after p (s ++ u)).traps.active = some trap
              ∧ ∀ i cause, ¬ ((fresh p dmem regs).after p (s ++ u)).Accepts i cause)
      ∧ (∀ trap, ((fresh p dmem regs).after p s).traps.active = some trap →
          ∀ i, ∀ e ∈ ((fresh p dmem regs).after p s).mretsOf i,
            Returned p trap e (((fresh p dmem regs).after p s).tick p i))
      ∧ ((fresh p dmem regs).after p s).counters.interrupts
          = ((fresh p dmem regs).returnsIn p s).length + (fresh p dmem regs).lostTraps p s
            + (if ((fresh p dmem regs).after p s).traps.active.isSome then 1 else 0) := by
  have hr : Reachable p ((fresh p dmem regs).after p s) := ⟨dmem, regs, s, rfl⟩
  have hgated := hr.gated
  refine ⟨?_, hgated.on, ?_, ?_, ?_⟩
  · intro hoff
    refine ⟨hgated.off hoff, fun i cause h => ?_⟩
    -- to accept, interrupts would have to be enabled
    have hen := h.unmasked.1
    rw [hgated.off hoff] at hen
    cases hen
  · intro trap ht u hu
    -- the trap is still there, and an interrupt that is accepted finds none
    have hholds := hr.coherent.holds ht u hu
    rw [after_append]
    refine ⟨hholds, fun i cause h => ?_⟩
    rw [(hr.coherent.after u).idle_of_accepts h] at hholds
    cases hholds
  · intro trap ht i e he
    exact returned_of_mret p dmem regs s ht he
  · rw [interrupts_balance]
    cases ((fresh p dmem regs).after p s).traps.active <;> rfl

/-- A program that loops, and a handler that only returns. -/
def nesting : Platform where
  program := .rom ⟨#[(Instr.opImm .add 1 1 1).encode, (Instr.jal 0 0).encode,
    Encode.mret], 12⟩
  misaligned := .fault
  resetVector := 0
  interrupts := { handlerVector := 8 }
  traceInstructions := false

/-- An interrupt, up to the cycle in which its handler returns. -/
def nestingNow : Core :=
  (fresh nesting ⟨0, 8, {}⟩ .zero).after nesting (quiet 3 ++ [{ external := true }] ++ quiet 2)

/-- The external line stays high during the return, and a reset comes upon the
second handler. -/
def knocking : List Inputs :=
  quiet 3 ++ [{ external := true }] ++ quiet 2 ++ List.replicate 2 { external := true }
    ++ [{ reset := true }] ++ quiet 2 ++ [{ software := true }]

/-- The line is served a second time only after the return, and the program is
resumed where the first handler was to resume it; of the three interrupts one
was returned from, one lost, and one is active. -/
theorem interrupts_never_nest_knocking :
    nestingNow.traps.active = some ⟨0, .external⟩
      ∧ ¬ nestingNow.Accepts { external := true } .external
      ∧ (nestingNow.mretsOf { external := true }).length = 1
      ∧ (nestingNow.tick nesting { external := true }).pc = 0
      ∧ (nestingNow.tick nesting { external := true }).Accepts { external := true } .external
      ∧ ((nestingNow.tick nesting { external := true }).tick nesting
          { external := true }).traps.active = some ⟨0, .external⟩
      ∧ ((fresh nesting ⟨0, 8, {}⟩ .zero).after nesting knocking).counters.interrupts
          = 1 + 1 + 1 := by
  have ht : nestingNow.traps.active = some ⟨0, .external⟩ := by decide +kernel
  have hone : (nestingNow.mretsOf { external := true }).length = 1 := by decide +kernel
  have haccepts : (nestingNow.tick nesting { external := true }).Accepts { external := true }
      .external := ⟨rfl, by decide +kernel⟩
  have hreturns : ((fresh nesting ⟨0, 8, {}⟩ .zero).returnsIn nesting knocking).length = 1 := by
    decide +kernel
  have hlost : (fresh nesting ⟨0, 8, {}⟩ .zero).lostTraps nesting knocking = 1 := by
    decide +kernel
  have hactive : ((fresh nesting ⟨0, 8, {}⟩ .zero).after nesting knocking).traps.active.isSome
      = true := by decide +kernel
  obtain ⟨e, he⟩ := List.length_eq_one_iff.mp hone
  obtain ⟨-, -, hholds, hleaves, -⟩ := interrupts_never_nest nesting ⟨0, 8, {}⟩ .zero
    (quiet 3 ++ [{ external := true }] ++ quiet 2)
  obtain ⟨-, -, -, -, hbalance⟩ := interrupts_never_nest nesting ⟨0, 8, {}⟩ .zero knocking
  have hmasked := (hholds _ ht [] (by intro q hq; cases hq)).2
  have hreturned := hleaves _ ht { external := true } e (he ▸ List.mem_singleton_self e)
  refine ⟨ht, hmasked _ _, hone, hreturned.pc, haccepts, hreturned.resumes _ _ haccepts, ?_⟩
  rw [hbalance, hreturns, hlost, hactive]
  rfl

end FiveStage.Core
