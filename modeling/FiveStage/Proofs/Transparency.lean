/-
  FiveStage.Proofs.Transparency
  ─────────────────────────────
  **A HANDLER THAT ONLY RETURNS IS NOT NOTICED.**

  Let the word at the handler vector be a trap return.  Then a program runs
  the same under every schedule of the interrupt lines: interrupts come in
  between, but the records, less those of trap returns, are the same, with
  the same registers, and if the core finishes it finishes the same.

  The proof follows the *interrupted program*: the committed hart, or while
  the handler runs the committed hart at the address where it will resume.
  No cycle takes it anywhere but one or two instructions further.
-/
import FiveStage.Proofs.Refinement

namespace FiveStage

/-! ## §1. Records of the program's own. -/

/-- The word at this address is a trap return. -/
def Platform.returnsAt (p : Platform) (pc : Word) : Bool :=
  match p.program.fetch pc with
  | .ok inst => inst == Encode.mret
  | .error _ => false

/-- These records without those of trap returns. -/
def Platform.own (p : Platform) (records : List (Word × Option (Nat × Word))) :
    List (Word × Option (Nat × Word)) :=
  records.filter fun r => !p.returnsAt r.1

theorem Platform.returnsAt_iff {p : Platform} {pc inst : Word}
    (hf : p.program.fetch pc = .ok inst) :
    p.returnsAt pc = true ↔ (Control.ofWord inst).cls = .mret := by
  rw [Platform.returnsAt, hf, Control.cls_ofWord_mret]
  exact beq_iff_eq

theorem Platform.own_append (p : Platform) (l m : List (Word × Option (Nat × Word))) :
    p.own (l ++ m) = p.own l ++ p.own m :=
  List.filter_append ..

/-- A list that grows by at most one element at a time comes by each list it
begins with. -/
theorem exists_eq_of_growth {α : Type} {g : Nat → List α} {l : List α} (h0 : g 0 = [])
    (hstep : ∀ n, ∃ l', g (n + 1) = g n ++ l' ∧ l'.length ≤ 1) :
    ∀ {n : Nat}, l <+: g n → ∃ m, g m = l := by
  intro n
  induction n with
  | zero =>
      intro hl
      rw [h0] at hl
      exact ⟨0, h0.trans (List.prefix_nil.mp hl).symm⟩
  | succ n ih =>
      intro hl
      obtain ⟨l', hg, hlen⟩ := hstep n
      rcases Nat.lt_or_ge (g n).length l.length with hlt | hge
      · -- longer than before, so it is all there is now
        refine ⟨n + 1, (hl.eq_of_length_le ?_).symm⟩
        rw [hg, List.length_append]
        omega
      · rw [hg] at hl
        exact ih (List.prefix_of_prefix_length_le hl (List.prefix_append _ _) hge)

namespace Core

variable {p : Platform} {c c' : Core} {h : Hart} {k : Nat}

/-! ## §2. The interrupted program. -/

/-- The program that an active handler has interrupted, or that runs. -/
def interrupted (c : Core) : Hart :=
  { c.committed with pc := (c.traps.resume?).getD c.epc }

/-- Without a handler the program is where the core has committed to. -/
theorem interrupted_of_idle (hi : c.traps.active = none) : c.interrupted = c.committed := by
  unfold interrupted TrapUnit.resume?
  rw [hi]
  rfl

/-- A trap return retires without a write. -/
theorem Coherent.write_of_returns (hc : Coherent p c) :
    ∀ r ∈ c.following p, p.returnsAt r.1 = true → r.2 = none := by
  intro r hr hret
  cases hx : c.latches.exMem with
  | none =>
      rw [following_of_bubble hx] at hr
      cases hr
  | some x =>
      rw [hc.following_of_some hx] at hr
      obtain rfl := List.mem_singleton.mp hr
      have hw := (Platform.returnsAt_iff (hc.exMem x hx).1).mp hret
      show (c.committed.effectOf p.misaligned x.inst).write? = none
      rw [Hart.effectOf_mret p.misaligned _ hw]
      rfl

/-- The program has come as far as this hart in `k` instructions, and its own
records are those of the hart. -/
structure Shadows (p : Platform) (h : Hart) (k : Nat)
    (records : List (Word × Option (Nat × Word))) (c : Core) : Prop where
  /-- The latches are filled as the program demands. -/
  coherent : Coherent p c
  /-- While the handler runs there is nothing in flight but the handler. -/
  handling : ∀ t, c.traps.active = some t →
    c.latches.exMem = none ∧ c.latches.memWb = none ∧ c.halted = false
      ∧ c.frontPc = p.interrupts.handlerVector
  /-- Where the program is. -/
  interrupted : c.interrupted = h.after p.program p.misaligned k
  /-- All `k` were performed. -/
  full : (h.history p.program p.misaligned k).length = k
  /-- What has retired, and MEM/WB, are the first `k` instructions. -/
  own : p.own (records ++ c.leaving)
    = p.own ((h.history p.program p.misaligned k).map Performed.visible)
  /-- Trap returns retire without a write. -/
  returns : ∀ r ∈ records ++ c.leaving, p.returnsAt r.1 = true → r.2 = none

theorem interrupted_of_active {t : Trap} (hi : c.traps.active = some t) :
    c.interrupted = { c.committed with pc := t.epc } := by
  unfold interrupted TrapUnit.resume?
  rw [hi]
  rfl

/-! ## §3. One cycle. -/

variable {records : List (Word × Option (Nat × Word))}

/-- The next cycle finds the record of EX/MEM in MEM/WB. -/
theorem Shadows.returns_next (hs : Shadows p h k records c) :
    ∀ r ∈ records ++ c.leaving ++ c.following p, p.returnsAt r.1 = true → r.2 = none := by
  intro r hr
  rcases List.mem_append.mp hr with hr | hr
  · exact hs.returns r hr
  · exact hs.coherent.write_of_returns r hr

/-- With no handler active the frontier is in the run too, and EX/MEM has the
record that takes it there. -/
theorem Shadows.frontier (hs : Shadows p h k records c) (hi : c.traps.active = none) :
    ∃ j, c.frontier p = h.after p.program p.misaligned j
      ∧ (h.history p.program p.misaligned j).length = j
      ∧ p.own (records ++ c.leaving ++ c.following p)
          = p.own ((h.history p.program p.misaligned j).map Performed.visible) := by
  have hc := hs.coherent
  have hcommitted : c.committed = h.after p.program p.misaligned k :=
    (interrupted_of_idle hi).symm.trans hs.interrupted
  rw [Platform.own_append, hs.own]
  cases hx : c.latches.exMem with
  | none =>
      refine ⟨k, (frontier_of_bubble hx).trans hcommitted, hs.full, ?_⟩
      rw [following_of_bubble hx]
      exact List.append_nil _
  | some x =>
      rw [hc.following_of_some hx]
      by_cases hk : x.control.cls = .mret
      · -- a trap return has a record, but not one of the program's own
        refine ⟨k, (frontier_of_mret hx hk).trans hcommitted, hs.full, ?_⟩
        have hret : p.returnsAt x.pc = true :=
          (Platform.returnsAt_iff (hc.exMem x hx).1).mpr ((hc.exMem x hx).2.control ▸ hk)
        simp [Platform.own, hret]
      · -- what is in EX/MEM is the next instruction of the program
        have hstep := hc.committed_step hx hk
        rw [hcommitted] at hstep ⊢
        obtain ⟨hafter, hhistory⟩ := Hart.run_succ_of_step k hstep
        refine ⟨k + 1, hafter.symm, ?_, ?_⟩
        · rw [hhistory, List.length_append, hs.full]
          rfl
        · rw [hhistory, List.map_append, Platform.own_append]
          rfl

/-- With no handler active, the program goes on by what EX/MEM holds, and by a
stray trap return in ID/EX. -/
theorem Shadows.advance_idle (hs : Shadows p h k records c) (hi : c.traps.active = none)
    (ha : Advance p c c') : ∃ j, Shadows p h j (records ++ c.leaving) c' := by
  have hc := hs.coherent
  have hi' := ha.idle hi
  obtain ⟨j, hfrontier, hfull, hown⟩ := hs.frontier hi
  have hreturns := hs.returns_next
  rw [← ha.leaving_eq] at hown hreturns
  have hhandling : ∀ t, c'.traps.active = some t →
      c'.latches.exMem = none ∧ c'.latches.memWb = none ∧ c'.halted = false
        ∧ c'.frontPc = p.interrupts.handlerVector := by
    intro t ht
    rw [hi'] at ht
    cases ht
  -- the frontier is all committed now, but for a trap return
  cases he : c.latches.idEx with
  | none =>
      refine ⟨j, hc.advance ha, hhandling, ?_, hfull, hown, hreturns⟩
      rw [interrupted_of_idle hi', (hc.frontier_waits ha he).2, hfrontier]
  | some e =>
      by_cases hk : e.control.cls = .mret
      · -- it counts as an instruction, but not as one of the program's own
        have hstep := hc.frontier_performs ha he fun _ => hi
        rw [hfrontier] at hstep
        obtain ⟨hafter, hhistory⟩ := Hart.run_succ_of_step j hstep
        have hret : p.returnsAt e.pc = true :=
          (Platform.returnsAt_iff (hc.idEx e he).1).mpr (hc.idEx_control he ▸ hk)
        refine ⟨j + 1, hc.advance ha, hhandling, ?_, ?_, ?_, hreturns⟩
        · rw [interrupted_of_idle hi', (hc.frontier_mret ha he hk).2, hafter]
        · rw [hhistory, List.length_append, hfull]
          rfl
        · rw [hown, hhistory, List.map_append, Platform.own_append]
          simp [Platform.own, Performed.visible, hret]
      · refine ⟨j, hc.advance ha, hhandling, ?_, hfull, hown, hreturns⟩
        rw [interrupted_of_idle hi', hc.committed_executed ha he hk, hfrontier]

/-- While the handler runs, the program stays where it is. -/
theorem Shadows.advance_handling
    (hv : p.program.fetch p.interrupts.handlerVector = .ok Encode.mret)
    (hs : Shadows p h k records c) {t : Trap} (hi : c.traps.active = some t)
    (ha : Advance p c c') : Shadows p h k (records ++ c.leaving) c' := by
  have hc := hs.coherent
  obtain ⟨hexMem, hmemWb, hrun, hpc⟩ := hs.handling t hi
  have hfollowing : c.following p = [] := following_of_bubble hexMem
  have hinterrupted : { c.frontier p with pc := t.epc } = h.after p.program p.misaligned k := by
    rw [frontier_of_bubble hexMem, ← interrupted_of_active hi, hs.interrupted]
  have hown := hs.own
  have hreturns := hs.returns
  rw [← List.append_nil (records ++ c.leaving), ← hfollowing, ← ha.leaving_eq] at hown hreturns
  cases he : c.latches.idEx with
  | none =>
      have htraps : c'.traps = c.traps := by
        rw [ha.traps, Latches.returning, he]
        rfl
      have hmemWb' : c'.latches.memWb = none := by
        rw [ha.memWb, hexMem]
        rfl
      obtain ⟨hpc', hrun'⟩ := hc.front_of_bubble ha.front he
      refine ⟨hc.advance ha, ?_, ?_, hs.full, hown, hreturns⟩
      · intro _ _
        exact ⟨ha.exMem_of_none he, hmemWb', hrun'.trans hrun, hpc'.trans hpc⟩
      · rw [interrupted_of_active (htraps ▸ hi), (hc.frontier_waits ha he).2, hinterrupted]
  | some e =>
      -- the first instruction of the handler is its last
      have hword : e.inst = Encode.mret := by
        have hfetch := (hc.idEx e he).1
        rw [← frontPc_of_idEx he, hpc, hv] at hfetch
        exact (Except.ok.inj hfetch).symm
      have hk : e.control.cls = .mret := by
        rw [hc.idEx_control he]
        exact Control.cls_ofWord_mret.mpr hword
      have hi' : c'.traps.active = none := by
        rw [ha.traps, Latches.returning, he, Option.any_some, if_pos (decide_eq_true hk),
          TrapUnit.leave, hi]
        rfl
      obtain ⟨hfrontier, hcommitted⟩ := hc.frontier_returns ha he hk hi
      refine ⟨hc.advance ha, ?_, ?_, hs.full, hown, hreturns⟩
      · intro t' ht'
        rw [hi'] at ht'
        cases ht'
      · rw [interrupted_of_idle hi', hcommitted, hfrontier, hinterrupted]

/-- An interrupt leaves the program where it was committed. -/
theorem Shadows.accept (hs : Shadows p h k records c) {i : Inputs} {cause : InterruptCause}
    (ha : c.Accepts i cause) : Shadows p h k (records ++ c.leaving) (c.tick p i) := by
  obtain ⟨hregs, hdmem, hl, hpc, htraps, hhalted, -⟩ := tick_accept p ha
  obtain ⟨hen, hrun⟩ := ha.unmasked
  have hi := hs.coherent.masked hen
  have hactive : (c.tick p i).traps.active = some ⟨c.epc, cause⟩ := by
    rw [htraps]
    rfl
  have hleaving := (pending_of_empty p hl).1
  obtain ⟨hifId, hidEx, hexMem, hmemWb⟩ := bubbles_of_empty hl
  have hsettled : (c.tick p i).settled = c.settled := by
    rw [settled, hmemWb, hregs]
    rfl
  refine ⟨hs.coherent.tick i, ?_, ?_, hs.full, ?_, ?_⟩
  · intro _ _
    -- nothing is in flight, and the front half starts over at the handler
    exact ⟨hexMem, hmemWb, hhalted.trans hrun, (frontPc_of_bubbles hidEx hifId).trans hpc⟩
  · -- the saved address is where the committed hart is
    rw [interrupted_of_active hactive, ← hs.interrupted, interrupted_of_idle hi]
    unfold committed
    rw [hsettled, hdmem, hhalted, hrun]
    rfl
  · rw [hleaving, List.append_nil]
    exact hs.own
  · rw [hleaving, List.append_nil]
    exact hs.returns

/-- **Every cycle without reset** takes the program along the run of the hart,
or leaves it where it is. -/
theorem Shadows.tick (hv : p.program.fetch p.interrupts.handlerVector = .ok Encode.mret)
    (hs : Shadows p h k records c) {i : Inputs} (hi : i.reset = false) :
    ∃ j, Shadows p h j (records ++ c.leaving) (c.tick p i) := by
  rcases cycle_cases c i with hr | ⟨cause, ha⟩ | ho
  · rw [hi] at hr
    cases hr
  · exact ⟨k, hs.accept ha⟩
  · have ha := tick_ordinary p ho
    cases hactive : c.traps.active with
    | none => exact hs.advance_idle hactive ha
    | some t => exact ⟨k, hs.advance_handling hv hactive ha⟩

/-- **Every schedule without reset** does. -/
theorem Shadows.after (hv : p.program.fetch p.interrupts.handlerVector = .ok Encode.mret)
    (schedule : List Inputs) :
    ∀ {records : List (Word × Option (Nat × Word))} {c : Core} {k : Nat},
      Shadows p h k records c → (∀ i ∈ schedule, i.reset = false) →
      ∃ j, Shadows p h j (records ++ c.seen p schedule) (c.after p schedule) := by
  induction schedule with
  | nil =>
      intro records c k hs _
      refine ⟨k, ?_⟩
      show Shadows p h k (records ++ []) c
      rw [List.append_nil]
      exact hs
  | cons i is ih =>
      intro records c k hs hreset
      have hi : i.reset = false := hreset i List.mem_cons_self
      obtain ⟨j, hj⟩ := hs.tick hv hi
      obtain ⟨j', hj'⟩ := ih hj fun i' hi' => hreset i' (List.mem_cons_of_mem i hi')
      refine ⟨j', ?_⟩
      have hseen : c.seen p (i :: is) = c.leaving ++ (c.tick p i).seen p is := by
        rw [← seen_single p c hi]
        exact seen_append p c [i] is
      rw [hseen, ← List.append_assoc]
      exact hj'

/-! ## §4. The whole run. -/

theorem shadows_fresh (p : Platform) (dmem : Ram) (regs : Registers) :
    Shadows p (p.boot dmem regs) 0 [] (fresh p dmem regs) where
  coherent := coherent_fresh p dmem regs
  handling := by
    intro t ht
    cases ht
  interrupted := (interrupted_of_idle rfl).trans (frontier_fresh p dmem regs)
  full := rfl
  own := rfl
  returns := by
    intro r hr
    cases hr

/-- Trap returns leave no trace in the registers. -/
theorem replay_own (regs : Registers) (records : List (Word × Option (Nat × Word)))
    (hr : ∀ r ∈ records, p.returnsAt r.1 = true → r.2 = none) :
    replay regs (p.own records) = replay regs records := by
  induction records generalizing regs with
  | nil => rfl
  | cons r records ih =>
      have hrest := fun r' hr' => hr r' (List.mem_cons_of_mem r hr')
      cases hret : p.returnsAt r.1 with
      | true =>
          have hown : p.own (r :: records) = p.own records := by simp [Platform.own, hret]
          have hwrite : r.2 = none := hr r List.mem_cons_self hret
          rw [hown, ih regs hrest]
          show replay regs records = replay (applyWrite regs r.2) records
          rw [hwrite]
          rfl
      | false =>
          have hown : p.own (r :: records) = r :: p.own records := by simp [Platform.own, hret]
          rw [hown]
          exact ih (applyWrite regs r.2) hrest

section

variable (hv : p.program.fetch p.interrupts.handlerVector = .ok Encode.mret) (dmem : Ram)
  (regs : Registers) {schedule : List Inputs} (hs : ∀ i ∈ schedule, i.reset = false)

include hv hs

/-- After every schedule without a reset the program has come some way in its
sequential history. -/
theorem shadows_after :
    ∃ k, Shadows p (p.boot dmem regs) k ((fresh p dmem regs).seen p schedule)
      ((fresh p dmem regs).after p schedule) :=
  (shadows_fresh p dmem regs).after hv schedule hs

/-- The registers come from the program's own records alone. -/
theorem regs_of_own :
    ((fresh p dmem regs).after p schedule).regs
      = replay regs (p.own ((fresh p dmem regs).seen p schedule)) := by
  obtain ⟨k, hk⟩ := shadows_after hv dmem regs hs
  rw [replay_own _ _ fun r hr => hk.returns r (List.mem_append_left _ hr), regs_after]
  rfl

/-- What the program has shown under interrupts it shows without them. -/
theorem own_prefix_quiet :
    ∃ m, ∀ n, m ≤ n → p.own ((fresh p dmem regs).seen p schedule)
      <+: p.own ((fresh p dmem regs).seen p (quiet n)) := by
  obtain ⟨k, hk⟩ := shadows_after hv dmem regs hs
  obtain ⟨m, hm⟩ := exists_seen_fresh p dmem regs k
  refine ⟨m, ?_⟩
  intro n hn
  have hfirst : p.own ((fresh p dmem regs).seen p schedule)
      <+: p.own ((fresh p dmem regs).seen p (quiet m)) := by
    rw [hm, ← hk.own, Platform.own_append]
    exact List.prefix_append _ _
  exact hfirst.trans ((seen_mono p _ hn).filter _)

/-- The quiet run comes by exactly these records. -/
theorem exists_own_quiet :
    ∃ m, p.own ((fresh p dmem regs).seen p (quiet m))
      = p.own ((fresh p dmem regs).seen p schedule) := by
  obtain ⟨n, hn⟩ := own_prefix_quiet hv dmem regs hs
  have hstep : ∀ m, ∃ l, p.own ((fresh p dmem regs).seen p (quiet (m + 1)))
      = p.own ((fresh p dmem regs).seen p (quiet m)) ++ l ∧ l.length ≤ 1 := by
    intro m
    refine ⟨p.own ((fresh p dmem regs).after p (quiet m)).leaving, ?_, ?_⟩
    · rw [seen_quiet_succ, Platform.own_append]
    · exact Nat.le_trans (List.length_filter_le _ _) (length_leaving_le _)
  exact exists_eq_of_growth rfl hstep (hn n (Nat.le_refl n))

/-- If the interrupted run finishes, so does the quiet one, with the same hart. -/
theorem finishes_quiet (hfin : ((fresh p dmem regs).after p schedule).finished = true) :
    ∃ m, ∀ n, m ≤ n → ((fresh p dmem regs).after p (quiet n)).finished = true
      ∧ ((fresh p dmem regs).after p (quiet n)).hart
          = ((fresh p dmem regs).after p schedule).hart := by
  obtain ⟨k, hk⟩ := shadows_after hv dmem regs hs
  have hh : ((fresh p dmem regs).after p schedule).halted = true :=
    (Bool.and_eq_true_iff.mp hfin).1
  have hl := latches_of_drained (Bool.and_eq_true_iff.mp hfin).2
  have hi : ((fresh p dmem regs).after p schedule).traps.active = none := by
    cases ht : ((fresh p dmem regs).after p schedule).traps.active with
    | none => rfl
    | some t =>
        -- a core in its handler has not halted
        have hrun := (hk.handling t ht).2.2.1
        rw [hh] at hrun
        cases hrun
  have hexMem := (bubbles_of_empty hl).2.2.1
  have hhart : (p.boot dmem regs).after p.program p.misaligned k
      = ((fresh p dmem regs).after p schedule).hart := by
    rw [← hk.interrupted, interrupted_of_idle hi, ← frontier_of_bubble hexMem,
      frontier_of_empty p hl]
  have hstuck : ((p.boot dmem regs).after p.program p.misaligned k).step? p.program p.misaligned
      = none := by
    rw [hhart]
    exact Hart.step_of_halted hh
  obtain ⟨m, hm⟩ := exists_drained_fresh p dmem regs k hstuck
  refine ⟨m, ?_⟩
  intro n hn
  obtain ⟨hd, hsame⟩ := hm n hn
  rw [hhart] at hsame
  have hhalted : ((fresh p dmem regs).after p (quiet n)).halted = true :=
    (congrArg Hart.halted hsame).trans hh
  refine ⟨?_, hsame⟩
  unfold finished
  rw [hhalted, hd]
  rfl

end

/-- **Interrupts are transparent.**  Let the handler only return.  Whatever the
interrupt lines do, the program's own records are a beginning of those of the
quiet run; where the quiet run has come by the same records it has the same
registers; and if the core finishes so does the quiet run, in the same state. -/
theorem interrupt_transparent
    (hv : p.program.fetch p.interrupts.handlerVector = .ok Encode.mret) (dmem : Ram)
    (regs : Registers) {schedule : List Inputs} (hs : ∀ i ∈ schedule, i.reset = false) :
    (∃ m, ∀ n, m ≤ n → p.own ((fresh p dmem regs).seen p schedule)
        <+: p.own ((fresh p dmem regs).seen p (quiet n)))
      ∧ (∃ m, p.own ((fresh p dmem regs).seen p (quiet m))
          = p.own ((fresh p dmem regs).seen p schedule))
      ∧ (∀ m, p.own ((fresh p dmem regs).seen p (quiet m))
            = p.own ((fresh p dmem regs).seen p schedule) →
          ((fresh p dmem regs).after p schedule).regs
            = ((fresh p dmem regs).after p (quiet m)).regs)
      ∧ (((fresh p dmem regs).after p schedule).finished = true →
          ∃ m, ∀ n, m ≤ n → ((fresh p dmem regs).after p (quiet n)).finished = true
            ∧ ((fresh p dmem regs).after p (quiet n)).hart
                = ((fresh p dmem regs).after p schedule).hart) := by
  refine ⟨own_prefix_quiet hv dmem regs hs, exists_own_quiet hv dmem regs hs, ?_,
    finishes_quiet hv dmem regs hs⟩
  intro m hm
  -- a quiet run is a schedule without resets too, so equal records replay to equal registers
  have hquiet : ∀ i ∈ quiet m, i.reset = false := by
    intro i hi
    rw [List.eq_of_mem_replicate hi]
  rw [regs_of_own hv dmem regs hs, regs_of_own hv dmem regs hquiet, hm]

/-- A program that counts in memory, with a handler that only returns. -/
def counting : Platform where
  program := .rom ⟨#[(Instr.load .lw 1 0 0).encode, (Instr.opImm .add 1 1 1).encode,
    (Instr.store .word 1 0 0).encode, Encode.halt, Encode.mret], 5⟩
  misaligned := .fault
  resetVector := 0
  interrupts := { handlerVector := 16 }
  traceInstructions := false

/-- Two interrupts, the second in the cycle after the return from the first. -/
def twice : List Inputs :=
  quiet 4 ++ [{ external := true }] ++ quiet 3 ++ [{ software := true }] ++ quiet 14

/-- Nothing of the two is left in the end. -/
theorem interrupt_transparent_twice :
    ((fresh counting ⟨0, 8, {}⟩ .zero).after counting twice).counters.interrupts = 2
      ∧ ((fresh counting ⟨0, 8, {}⟩ .zero).after counting twice).finished = true
      ∧ ∃ m, ∀ n, m ≤ n →
        ((fresh counting ⟨0, 8, {}⟩ .zero).after counting (quiet n)).finished = true
          ∧ ((fresh counting ⟨0, 8, {}⟩ .zero).after counting (quiet n)).hart
            = ((fresh counting ⟨0, 8, {}⟩ .zero).after counting twice).hart := by
  have hv : counting.program.fetch counting.interrupts.handlerVector = .ok Encode.mret := rfl
  have hs : ∀ i ∈ twice, i.reset = false := by decide
  have hfin : ((fresh counting ⟨0, 8, {}⟩ .zero).after counting twice).finished = true := by
    decide +kernel
  exact ⟨by decide +kernel, hfin,
    (interrupt_transparent hv ⟨0, 8, {}⟩ .zero hs).2.2.2 hfin⟩

end Core

end FiveStage
