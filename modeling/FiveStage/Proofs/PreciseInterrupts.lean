/-
  FiveStage.Proofs.PreciseInterrupts
  ──────────────────────────────────
  **AN INTERRUPT LOSES NOTHING AND REPEATS NOTHING.**

  Accepting an interrupt retires MEM/WB and throws the three younger latches
  away.  What is left, restarted at the recorded address, is the committed
  hart with nothing in flight.  The undisturbed core runs the same program:
  after what the interrupt let retire, and after a trap return that is
  already over, its records are those of the restarted one, and once both
  are drained they are in the same state.
-/
import FiveStage.Proofs.Quiet
import Mathlib.Data.List.Infix

namespace FiveStage.Core

variable {p : Platform} {c c₁ : Core}

/-! ## §1. What is still to come. -/

/-- Number of the next records that a restart does not repeat: MEM/WB retires
before the interrupt, and a trap return in EX/MEM has done its work. -/
def overdue (c : Core) : Nat :=
  c.latches.memWb.toList.length
    + (c.latches.exMem.toList.filter (·.control.cls = .mret)).length

/-- **The frontier is in the future of the committed hart**, by the
instruction in EX/MEM if a restart repeats it. -/
theorem Coherent.restart (hc : Coherent p c) :
    ∃ j, ∀ k,
      c.committed.after p.program p.misaligned (k + j)
          = (c.frontier p).after p.program p.misaligned k
        ∧ (c.committed.history p.program p.misaligned (k + j)).length
            = ((c.frontier p).history p.program p.misaligned k).length + j
        ∧ ((c.leaving ++ c.following p)
              ++ ((c.frontier p).history p.program p.misaligned k).map
                  Performed.visible).drop c.overdue
            = (c.committed.history p.program p.misaligned (k + j)).map Performed.visible := by
  have hleaving : c.leaving.length = c.latches.memWb.toList.length := by
    unfold leaving
    cases c.latches.memWb <;> rfl
  cases hx : c.latches.exMem with
  | none =>
      have hover : c.overdue = c.leaving.length := by
        rw [overdue, hx, hleaving]
        rfl
      refine ⟨0, ?_⟩
      intro k
      rw [frontier_of_bubble hx, following_of_bubble hx, hover, List.append_nil]
      exact ⟨rfl, rfl, List.drop_left⟩
  | some x =>
      by_cases hk : x.control.cls = .mret
      · -- its record is to come, but a restart begins behind it
        have hover : c.overdue = (c.leaving ++ c.following p).length := by
          rw [overdue, hx, List.length_append, hleaving, hc.following_of_some hx]
          simp [hk]
        refine ⟨0, ?_⟩
        intro k
        rw [frontier_of_mret hx hk, hover]
        exact ⟨rfl, rfl, List.drop_left⟩
      · -- a restart performs it again, before anything the frontier does
        have hover : c.overdue = c.leaving.length := by
          rw [overdue, hx, hleaving]
          simp [hk]
        refine ⟨1, ?_⟩
        intro k
        obtain ⟨hafter, hhistory⟩ := Hart.run_of_step (hc.committed_step hx hk) k
        refine ⟨hafter, by rw [hhistory, List.length_cons], ?_⟩
        rw [hover, hhistory, hc.following_of_some hx, List.append_assoc, List.drop_left]
        rfl

/-! ## §2. Restarted where the interrupt was taken. -/

/-- Nothing is in flight but the committed hart, under the same trap unit. -/
structure Restarted (c c₁ : Core) : Prop where
  /-- The state that was committed. -/
  hart : c₁.hart = c.committed
  /-- The latches are empty. -/
  latches : c₁.latches = .empty
  /-- The trap unit is that of the undisturbed core. -/
  traps : c₁.traps = c.traps

theorem Restarted.coherent (hr : Restarted c c₁) (hc : Coherent p c) : Coherent p c₁ :=
  coherent_of_empty p hr.latches (hr.traps ▸ hc.masked)

/-- What the restarted core has shown and what it is about to show is the
committed hart's history, up to the last instruction issued. -/
theorem Restarted.seen_quiet (hr : Restarted c c₁) (hc : Coherent p c)
    (hi : c.traps.active = none) (n : Nat) :
    c₁.seen p (quiet n)
        ++ ((c₁.after p (quiet n)).leaving ++ (c₁.after p (quiet n)).following p)
      = (c.committed.history p.program p.misaligned (c₁.issued p n)).map Performed.visible := by
  obtain ⟨hleaving, hfollowing⟩ := pending_of_empty p hr.latches
  rw [Core.seen_quiet (hr.coherent hc) (hr.traps ▸ hi), hleaving, hfollowing,
    frontier_of_empty p hr.latches, hr.hart]
  rfl

/-- What the undisturbed core shows the restarted one shows too. -/
theorem Restarted.seen_prefix_restarted (hr : Restarted c c₁) (hc : Coherent p c)
    (hi : c.traps.active = none) (n : Nat) :
    ∃ m, ∀ m', m ≤ m' → (c.seen p (quiet n)).drop c.overdue <+: c₁.seen p (quiet m') := by
  obtain ⟨j, hj⟩ := hc.restart
  have hseen := Core.seen_quiet hc hi n
  have hpre : (c.seen p (quiet n)).drop c.overdue
      <+: (c.committed.history p.program p.misaligned (c.issued p n + j)).map
          Performed.visible := by
    rw [← (hj (c.issued p n)).2.2, ← hseen]
    exact List.IsPrefix.drop (List.prefix_append _ _) _
  obtain ⟨m, hm⟩ := exists_seen (hr.coherent hc) (hr.traps ▸ hi) (c.issued p n + j)
  obtain ⟨hleaving, hfollowing⟩ := pending_of_empty p hr.latches
  rw [hleaving, hfollowing, frontier_of_empty p hr.latches, hr.hart, List.nil_append,
    List.nil_append] at hm
  refine ⟨m, ?_⟩
  intro m' hmm
  rw [← hm] at hpre
  exact hpre.trans (seen_mono p c₁ hmm)

/-- What the restarted core shows the undisturbed one shows too. -/
theorem Restarted.seen_prefix_undisturbed (hr : Restarted c c₁) (hc : Coherent p c)
    (hi : c.traps.active = none) (n : Nat) :
    ∃ m, ∀ m', m ≤ m' → c₁.seen p (quiet n) <+: (c.seen p (quiet m')).drop c.overdue := by
  obtain ⟨j, hj⟩ := hc.restart
  have hpre : c₁.seen p (quiet n)
      <+: (c.committed.history p.program p.misaligned (c₁.issued p n + j)).map
          Performed.visible := by
    have hseen := hr.seen_quiet hc hi n
    exact List.IsPrefix.trans ⟨_, hseen⟩
      ((Hart.history_mono c.committed (Nat.le_add_right _ j)).map _)
  obtain ⟨m, hm⟩ := exists_seen hc hi (c₁.issued p n)
  refine ⟨m, ?_⟩
  intro m' hmm
  rw [← (hj (c₁.issued p n)).2.2, ← hm] at hpre
  exact hpre.trans (List.IsPrefix.drop (seen_mono p c hmm) _)

/-- Drained after the same records, the two are in the same state. -/
theorem Restarted.hart_eq (hr : Restarted c c₁) (hc : Coherent p c)
    (hi : c.traps.active = none) {n m : Nat}
    (hsame : (c.seen p (quiet n)).drop c.overdue = c₁.seen p (quiet m))
    (hd : (c.after p (quiet n)).drained = true) (hd₁ : (c₁.after p (quiet m)).drained = true) :
    (c.after p (quiet n)).hart = (c₁.after p (quiet m)).hart := by
  obtain ⟨j, hj⟩ := hc.restart
  obtain ⟨hafter, hlength, hdrop⟩ := hj (c.issued p n)
  have ht := tracks_quiet hc hi n
  have ht₁ := tracks_quiet (hr.coherent hc) (hr.traps ▸ hi) m
  rw [frontier_of_empty p hr.latches, hr.hart] at ht₁
  have hl := latches_of_drained hd
  have hl₁ := latches_of_drained hd₁
  obtain ⟨hleaving, hfollowing⟩ := pending_of_empty p hl
  obtain ⟨hleaving₁, hfollowing₁⟩ := pending_of_empty p hl₁
  -- both records are full histories of the committed hart, so they end in one place
  have hseen := Core.seen_quiet hc hi n
  have hseen₁ := hr.seen_quiet hc hi m
  rw [hleaving, hfollowing, List.append_nil, List.append_nil] at hseen
  rw [hleaving₁, hfollowing₁, List.append_nil, List.append_nil] at hseen₁
  rw [hseen, hdrop, hseen₁] at hsame
  have hlen := congrArg List.length hsame
  rw [List.length_map, List.length_map, hlength, ht.full, ht₁.full] at hlen
  rw [← frontier_of_empty p hl, ← frontier_of_empty p hl₁, ht.frontier, ht₁.frontier,
    ← hafter, hlen]

/-! ## §3. The interrupt. -/

/-- **Precise interrupts.**  A reachable core that accepts an interrupt ends
the cycle with what MEM/WB writes in its registers, the same data memory,
four bubbles and the PC at the handler.  Restart it at the recorded address:
under quiet lines the restarted core and the undisturbed one retire the same
records, but for those that are overdue, each as far as the other has come,
and drained after the same records they agree in their whole state. -/
theorem interrupt_precise {i : Inputs} {cause : InterruptCause} (hr : Reachable p c)
    (ha : c.Accepts i cause) :
    ((c.tick p i).regs = applyWrite c.regs (c.latches.memWb.bind registerWrite?)
        ∧ (c.tick p i).dmem = c.dmem
        ∧ (c.tick p i).latches = .empty
        ∧ (c.tick p i).pc = p.interrupts.handlerVector)
      ∧ ∃ epc, (c.tick p i).traps.active = some ⟨epc, cause⟩
        ∧ ∀ c₁ : Core,
            c₁.hart = { pc := epc, regs := (c.tick p i).regs, dmem := (c.tick p i).dmem } →
            c₁.latches = .empty → c₁.traps = c.traps →
            (∀ n, ∃ m, ∀ m', m ≤ m' →
                (c.seen p (quiet n)).drop c.overdue <+: c₁.seen p (quiet m'))
              ∧ (∀ n, ∃ m, ∀ m', m ≤ m' →
                c₁.seen p (quiet n) <+: (c.seen p (quiet m')).drop c.overdue)
              ∧ ∀ n m, (c.seen p (quiet n)).drop c.overdue = c₁.seen p (quiet m) →
                (c.after p (quiet n)).drained = true → (c₁.after p (quiet m)).drained = true →
                (c.after p (quiet n)).hart = (c₁.after p (quiet m)).hart := by
  obtain ⟨hregs, hdmem, hlatches, hpc, htraps, -, -⟩ := tick_accept p ha
  refine ⟨⟨hregs, hdmem, hlatches, hpc⟩, c.epc, by rw [htraps]; rfl, ?_⟩
  intro c₁ hhart hl ht
  have hc := hr.coherent
  obtain ⟨hen, hrun⟩ := ha.unmasked
  have hi := hc.masked hen
  have hcommitted : c₁.hart = c.committed := by
    rw [hhart, hregs, hdmem, committed, hrun]
    rfl
  have hrestarted : Restarted c c₁ := ⟨hcommitted, hl, ht⟩
  exact ⟨hrestarted.seen_prefix_restarted hc hi, hrestarted.seen_prefix_undisturbed hc hi,
    fun n m => hrestarted.hart_eq hc hi⟩

/-- A program that stores what it has just computed. -/
def storing : Platform where
  program := .rom ⟨#[(Instr.opImm .add 1 0 5).encode, (Instr.store .word 1 0 0).encode,
    (Instr.opImm .add 2 1 1).encode, Encode.halt], 16⟩
  misaligned := .fault
  resetVector := 0
  interrupts := { handlerVector := 32 }
  traceInstructions := false

/-- The store is on its way to memory. -/
def storingNow : Core :=
  (fresh storing ⟨0, 64, {}⟩ .zero).after storing (quiet 4)

/-- The core restarted at the store. -/
def storingAgain : Core :=
  { storingNow.tick storing { external := true } with pc := 4, traps := storingNow.traps }

/-- An interrupt discards the store, and the program resumes there. -/
theorem interrupt_precise_store :
    Reachable storing storingNow ∧ storingNow.Accepts { external := true } .external
      ∧ (storingNow.tick storing { external := true }).latches = .empty
      ∧ (storingNow.tick storing { external := true }).traps.active = some ⟨4, .external⟩
      ∧ (∀ n, ∃ m, ∀ m', m ≤ m' → (storingNow.seen storing (quiet n)).drop 1
          <+: storingAgain.seen storing (quiet m'))
      ∧ ∀ n m, (storingNow.seen storing (quiet n)).drop 1 = storingAgain.seen storing (quiet m) →
          (storingNow.after storing (quiet n)).drained = true →
          (storingAgain.after storing (quiet m)).drained = true →
          (storingNow.after storing (quiet n)).hart
            = (storingAgain.after storing (quiet m)).hart := by
  have hr : Reachable storing storingNow := ⟨⟨0, 64, {}⟩, .zero, quiet 4, rfl⟩
  have ha : storingNow.Accepts { external := true } .external :=
    ⟨rfl, by decide +kernel⟩
  have hepc : (storingNow.tick storing { external := true }).traps.active
      = some ⟨4, .external⟩ := by decide +kernel
  have hrun : (storingNow.tick storing { external := true }).halted = false := by
    decide +kernel
  have hover : storingNow.overdue = 1 := by decide +kernel
  obtain ⟨⟨-, -, hl, -⟩, epc, hactive, hrestart⟩ := interrupt_precise hr ha
  have hat : epc = 4 := by
    rw [hepc] at hactive
    exact congrArg Trap.epc (Option.some.inj hactive).symm
  subst hat
  have hhart : storingAgain.hart
      = { pc := 4
          regs := (storingNow.tick storing { external := true }).regs
          dmem := (storingNow.tick storing { external := true }).dmem } := by
    unfold storingAgain hart
    rw [hrun]
  obtain ⟨hfirst, -, hstate⟩ := hrestart storingAgain hhart hl rfl
  rw [hover] at hfirst hstate
  exact ⟨hr, ha, hl, hepc, hfirst, hstate⟩

end FiveStage.Core
