/-
  FiveStage.Proofs.Frontier
  ─────────────────────────
  **WHAT A CYCLE DOES TO THE FRONTIER.**

  An ordinary cycle of a coherent core does one of three things to the
  program, and which one is up to ID/EX alone:

      a bubble            the frontier waits                frontier_waits
      an instruction      the frontier performs it          frontier_performs
      the handler's       the frontier goes where the
      trap return         interrupted program resumes       frontier_returns

  Stalls, redirects, wrong-path fetches and refused fetches are all gone from
  this list.  With it coherence goes through every cycle there is.
-/
import FiveStage.Proofs.Coherence

namespace FiveStage.Core

variable {p : Platform} {c c' : Core} {e : IdEx}

/-! ## §1. The back half. -/

/-- What EX/MEM was about to do is settled in the next cycle. -/
theorem Advance.settled_eq (ha : Advance p c c') (hc : Coherent p c) :
    c'.settled = (c.frontier p).regs := by
  have hw : c'.latches.memWb.bind registerWrite?
      = c.latches.exMem.bind fun x => registerWrite? (x.complete p.misaligned c.dmem).1 := by
    rw [ha.memWb]
    cases c.latches.exMem <;> rfl
  unfold settled
  rw [ha.regs, hw, hc.frontier_state.1]

/-- Data memory after a cycle is that of the frontier before it. -/
theorem Advance.dmem_eq (ha : Advance p c c') (hc : Coherent p c) :
    c'.dmem = (c.frontier p).dmem :=
  ha.dmem.trans hc.frontier_state.2.symm

theorem Advance.exMem_of_none (ha : Advance p c c') (he : c.latches.idEx = none) :
    c'.latches.exMem = none := by
  rw [ha.exMem, Latches.executed, he]
  rfl

theorem Advance.exMem_of_some (ha : Advance p c c') (he : c.latches.idEx = some e) :
    c'.latches.exMem = some (executed e (c.latches.operands e)) := by
  rw [ha.exMem, Latches.executed, he]
  rfl

/-! ## §2. Execute. -/

/-- What is in ID/EX has the signals of its word. -/
theorem Coherent.idEx_control (hc : Coherent p c) (he : c.latches.idEx = some e) :
    e.control = Control.ofWord e.inst := by
  have hdec : e = e.toInFlight.decode c.regs := (hc.idEx e he).2
  rw [hdec]
  rfl

/-- A core with an instruction in ID/EX has not halted, and its frontier is
at that instruction. -/
theorem Coherent.at_idEx (hc : Coherent p c) (he : c.latches.idEx = some e) :
    c.halted = false ∧ (c.frontier p).halted = false ∧ (c.frontier p).pc = e.pc := by
  have hrun : c.halted = false := by
    cases hh : c.halted with
    | false => rfl
    | true =>
        have hnone := (hc.halted hh).2
        rw [he] at hnone
        cases hnone
  refine ⟨hrun, ?_, ?_⟩
  · rw [hc.front.2, hrun]
  · rw [hc.front.1, frontPc_of_idEx he]

/-- Execute works with the registers of the frontier. -/
theorem Coherent.executed_idEx (hc : Coherent p c) (he : c.latches.idEx = some e) :
    (executed e (c.latches.operands e)).Executed (c.frontier p).regs := by
  have hagree := hc.operands_agree he
  constructor
  · exact hc.idEx_control he
  · exact Control.result_congr hagree e.control e.pc
  · show (if e.control.isStore then (c.latches.operands e).rs2 else 0) = _
    rw [hagree.2]
    rfl

theorem transfer_of_none (he : c.latches.idEx = none) :
    c.latches.transfer? c.traps = none := by
  rw [Latches.transfer?, he]
  rfl

/-- A halted core has nothing in ID/EX that could ask for a transfer. -/
theorem Coherent.running_of_transfer (hc : Coherent p c) {t : Transfer}
    (ht : c.latches.transfer? c.traps = some t) : c.halted = false := by
  cases he : c.latches.idEx with
  | none =>
      rw [transfer_of_none he] at ht
      cases ht
  | some e => exact (hc.at_idEx he).1

/-- Only a halt asks fetch to stop, with the PC just past itself. -/
theorem Coherent.halt_of_transfer (hc : Coherent p c) {resume : Word}
    (ht : c.latches.transfer? c.traps = some (.halt resume)) :
    ∃ e, c.latches.idEx = some e ∧ e.inst = Encode.halt ∧ resume = e.pc + instructionBytes := by
  cases he : c.latches.idEx with
  | none =>
      rw [transfer_of_none he] at ht
      cases ht
  | some e =>
      rw [Latches.transfer?, he] at ht
      obtain ⟨hcls, hresume⟩ := Control.halt_of_transfer? ht
      refine ⟨e, rfl, ?_, hresume⟩
      rw [← Control.cls_ofWord_halt, ← hc.idEx_control he]
      exact hcls

/-- A trap return leads to where the handler was entered from. -/
theorem transfer_of_mret (he : c.latches.idEx = some e) (hk : e.control.cls = .mret) :
    c.latches.transfer? c.traps = c.traps.resume?.map .redirect := by
  rw [Latches.transfer?, he]
  show e.control.transfer? e.pc _ _ = _
  unfold Control.transfer?
  rw [hk]

/-- Execute asks for what the frontier does next. -/
theorem Coherent.transfer_of_some (hc : Coherent p c) (he : c.latches.idEx = some e)
    (hk : e.control.cls ≠ .mret) :
    c.latches.transfer? c.traps
      = ((c.frontier p).effectOf p.misaligned e.inst).transfer? (c.frontier p).pc := by
  have hword := hc.idEx_control he
  have hpc := (hc.at_idEx he).2.2
  -- the bypass network delivers the registers that the effect is computed from
  rw [← transfer_effect p.misaligned (c.frontier p) (hword ▸ hk) c.traps, ← hword, hpc,
    Latches.transfer?, he]
  exact Control.transfer?_congr (hc.operands_agree he) e.control e.pc c.traps

/-- The committed hart performs the instruction in EX/MEM next, unless it is a
trap return, which is over. -/
theorem Coherent.committed_step (hc : Coherent p c) {x : ExMem} (hx : c.latches.exMem = some x)
    (hk : x.control.cls ≠ .mret) :
    c.committed.step? p.program p.misaligned
      = some (⟨x.pc, x.inst, c.committed.effectOf p.misaligned x.inst⟩, c.frontier p) := by
  have hpc : c.committed.pc = x.pc := epc_of_some hx hk
  have hrun : c.committed.halted = false := by
    unfold committed
    rw [hx]
    exact Bool.and_false _
  rw [frontier_of_some hx hk, ← hpc]
  exact Hart.step_of_fetch hrun (hpc ▸ (hc.exMem x hx).1)

/-! ## §3. The front half. -/

/-- Only an instruction in ID/EX is waited for. -/
theorem waits_of_bubble (he : c.latches.idEx = none) : c.latches.waits = false := by
  rw [Latches.waits, he]
  cases c.latches.ifId <;> rfl

/-- While nothing is executed, the front half stays where it is. -/
theorem Coherent.front_of_bubble (hc : Coherent p c) (hf : Front p c c')
    (he : c.latches.idEx = none) : c'.frontPc = c.frontPc ∧ c'.halted = c.halted := by
  have ht := transfer_of_none he
  cases hf with
  | redirect target transfer | halt resume transfer => rw [ht] at transfer; cases transfer
  | stopped _ stop ifId idEx pc halted =>
      -- behind a halt there is nothing left to decode
      have hi : c.latches.ifId = none := (hc.halted stop).1
      have hd : c'.latches.idEx = none := by
        rw [idEx, Latches.decoded, hi]
        split <;> rfl
      rw [frontPc_of_bubbles he hi, frontPc_of_bubbles hd ifId]
      exact ⟨pc, halted⟩
  | stall _ _ waits =>
      rw [waits_of_bubble he] at waits
      cases waits
  | fetched inst _ _ _ _ ifId idEx _ halted =>
      -- what was in IF/ID moves on, or else what is fetched now is the oldest
      refine ⟨?_, halted⟩
      cases hi : c.latches.ifId with
      | none =>
          rw [hi] at idEx
          rw [frontPc_of_bubbles he hi, frontPc_of_ifId idEx ifId]
      | some f =>
          rw [hi] at idEx
          rw [frontPc_of_ifId he hi, frontPc_of_idEx idEx]
          rfl
  | starved fault _ _ _ _ ifId idEx pc halted =>
      refine ⟨?_, halted⟩
      cases hi : c.latches.ifId with
      | none =>
          rw [hi] at idEx
          rw [frontPc_of_bubbles he hi, frontPc_of_bubbles idEx ifId, pc]
      | some f =>
          rw [hi] at idEx
          rw [frontPc_of_ifId he hi, frontPc_of_idEx idEx]
          rfl

/-- An instruction that asks for no transfer is followed by the next one. -/
theorem Coherent.front_of_next (hc : Coherent p c) (hf : Front p c c')
    (he : c.latches.idEx = some e) (ht : c.latches.transfer? c.traps = none) :
    c'.frontPc = e.pc + instructionBytes ∧ c'.halted = false := by
  have hrun := (hc.at_idEx he).1
  obtain ⟨hnext, hgap⟩ := hc.next e he
  cases hf with
  | redirect target transfer | halt resume transfer => rw [ht] at transfer; cases transfer
  | stopped _ stop => rw [hrun] at stop; cases stop
  | stall _ _ waits ifId idEx _ halted =>
      refine ⟨?_, halted.trans hrun⟩
      cases hi : c.latches.ifId with
      | none => rw [Latches.waits, hi] at waits; cases waits
      | some f =>
          rw [hi] at ifId
          rw [frontPc_of_ifId idEx ifId, hnext f hi]
  | fetched inst _ _ _ fetch ifId idEx _ halted =>
      refine ⟨?_, halted.trans hrun⟩
      cases hi : c.latches.ifId with
      | none =>
          -- a gap is left by a refused fetch only, which would be refused again
          exact absurd fetch ((hgap hi).2 inst)
      | some f =>
          rw [hi] at idEx
          rw [frontPc_of_idEx idEx, ← hnext f hi]
          rfl
  | starved fault _ _ _ _ ifId idEx pc halted =>
      refine ⟨?_, halted.trans hrun⟩
      cases hi : c.latches.ifId with
      | none =>
          rw [hi] at idEx
          rw [frontPc_of_bubbles idEx ifId, pc, (hgap hi).1]
      | some f =>
          rw [hi] at idEx
          rw [frontPc_of_idEx idEx, ← hnext f hi]
          rfl

/-- A redirect sends fetch to its target, and discards what is younger. -/
theorem Front.of_redirect (hf : Front p c c') {target : Word}
    (ht : c.latches.transfer? c.traps = some (.redirect target)) :
    c'.pc = target ∧ c'.latches.ifId = none ∧ c'.latches.idEx = none
      ∧ c'.halted = c.halted := by
  cases hf with
  | redirect target' transfer ifId idEx pc halted =>
      rw [ht] at transfer
      cases transfer
      exact ⟨pc, ifId, idEx, halted⟩
  | halt _ transfer | stopped transfer | stall transfer | fetched _ transfer
  | starved _ transfer =>
      rw [ht] at transfer
      cases transfer

/-- After a redirect the front half begins at the target. -/
theorem Coherent.front_of_redirect (hc : Coherent p c) (hf : Front p c c')
    (he : c.latches.idEx = some e) {target : Word}
    (ht : c.latches.transfer? c.traps = some (.redirect target)) :
    c'.frontPc = target ∧ c'.halted = false := by
  obtain ⟨hpc, hifId, hidEx, hhalted⟩ := hf.of_redirect ht
  exact ⟨(frontPc_of_bubbles hidEx hifId).trans hpc, hhalted.trans (hc.at_idEx he).1⟩

/-- After a halt the front half begins behind the halt, and the core is halted. -/
theorem front_of_halt (hf : Front p c c') {resume : Word}
    (ht : c.latches.transfer? c.traps = some (.halt resume)) :
    c'.frontPc = resume ∧ c'.halted = true := by
  cases hf with
  | halt resume' transfer ifId idEx pc halted =>
      rw [ht] at transfer
      cases transfer
      exact ⟨(frontPc_of_bubbles idEx ifId).trans pc, halted⟩
  | _ => simp_all

/-- The front half goes where this effect sends it. -/
theorem Coherent.front_of_effect (hc : Coherent p c) (hf : Front p c c')
    (he : c.latches.idEx = some e) (hk : e.control.cls ≠ .mret) :
    c'.frontPc = ((c.frontier p).apply ((c.frontier p).effectOf p.misaligned e.inst)).pc
      ∧ c'.halted
          = ((c.frontier p).apply ((c.frontier p).effectOf p.misaligned e.inst)).halted := by
  have ht := hc.transfer_of_some he hk
  have hpc := (hc.at_idEx he).2.2
  -- of the effect only these two matter: where it goes and whether it halts
  show _ = ((c.frontier p).effectOf p.misaligned e.inst).target.getD
      ((c.frontier p).pc + instructionBytes)
    ∧ _ = ((c.frontier p).effectOf p.misaligned e.inst).halts
  unfold Effect.transfer? at ht
  cases hh : ((c.frontier p).effectOf p.misaligned e.inst).halts with
  | true =>
      rw [if_pos hh] at ht
      rw [Hart.target_of_halts hh]
      exact front_of_halt hf ht
  | false =>
      rw [if_neg (by rw [hh]; exact Bool.false_ne_true)] at ht
      cases htarget : ((c.frontier p).effectOf p.misaligned e.inst).target with
      | none =>
          rw [htarget] at ht
          rw [hpc]
          exact hc.front_of_next hf he ht
      | some target =>
          rw [htarget] at ht
          exact hc.front_of_redirect hf he ht

/-! ## §4. The frontier moves. -/

/-- What a cycle commits is what was at the frontier before it. -/
theorem Advance.committed_eq (ha : Advance p c c') (hc : Coherent p c) :
    c'.committed
      = ⟨c'.epc, (c.frontier p).regs, (c.frontier p).dmem,
          c'.halted && c'.latches.exMem.isNone⟩ := by
  unfold committed
  rw [ha.settled_eq hc, ha.dmem_eq hc]

/-- **Behind a bubble in ID/EX the frontier waits**, and all it did is
committed. -/
theorem Coherent.frontier_waits (hc : Coherent p c) (ha : Advance p c c')
    (he : c.latches.idEx = none) :
    c'.frontier p = c.frontier p ∧ c'.committed = c.frontier p := by
  have hx := ha.exMem_of_none he
  obtain ⟨hpc, hh⟩ := hc.front_of_bubble ha.front he
  have hcommitted : c'.committed = c.frontier p := by
    rw [ha.committed_eq hc, epc_of_bubble hx, hpc, hh, hx, ← hc.front.1, ← hc.front.2]
    show (⟨_, _, _, (c.frontier p).halted && true⟩ : Hart) = _
    rw [Bool.and_true]
  exact ⟨(frontier_of_bubble hx).trans hcommitted, hcommitted⟩

/-- What is executed, unless it is a trap return, has all before it committed. -/
theorem Coherent.committed_executed (hc : Coherent p c) (ha : Advance p c c')
    (he : c.latches.idEx = some e) (hk : e.control.cls ≠ .mret) :
    c'.committed = c.frontier p := by
  have hx := ha.exMem_of_some he
  obtain ⟨-, hrun, hpc⟩ := hc.at_idEx he
  have hepc : c'.epc = (c.frontier p).pc := (epc_of_some hx hk).trans hpc.symm
  rw [ha.committed_eq hc, hepc, hx]
  show (⟨_, _, _, c'.halted && false⟩ : Hart) = _
  rw [Bool.and_false, ← hrun]

/-- A trap return is over once it is executed. -/
theorem Coherent.frontier_mret (hc : Coherent p c) (ha : Advance p c c')
    (he : c.latches.idEx = some e) (hk : e.control.cls = .mret) :
    c'.frontier p = { c.frontier p with pc := c'.frontPc } ∧ c'.committed = c'.frontier p := by
  have hx := ha.exMem_of_some he
  have hrun := (hc.at_idEx he).2.1
  -- being over it is no place to restart from, so all is committed
  have hcommitted : c'.frontier p = c'.committed := frontier_of_mret hx hk
  refine ⟨?_, hcommitted.symm⟩
  rw [hcommitted, ha.committed_eq hc, epc_of_mret hx hk, hx]
  show (⟨_, _, _, c'.halted && false⟩ : Hart) = ⟨_, _, _, (c.frontier p).halted⟩
  rw [Bool.and_false, hrun]

/-- **The frontier performs the instruction in ID/EX**, a trap return only if
there is no handler to return from. -/
theorem Coherent.frontier_performs (hc : Coherent p c) (ha : Advance p c c')
    (he : c.latches.idEx = some e) (hk : e.control.cls = .mret → c.traps.active = none) :
    (c.frontier p).step? p.program p.misaligned
      = some (⟨e.pc, e.inst, (c.frontier p).effectOf p.misaligned e.inst⟩, c'.frontier p) := by
  obtain ⟨-, hrun, hpc⟩ := hc.at_idEx he
  have hfetch : p.program.fetch (c.frontier p).pc = .ok e.inst := by
    rw [hpc]
    exact (hc.idEx e he).1
  have hnext : c'.frontier p
      = (c.frontier p).apply ((c.frontier p).effectOf p.misaligned e.inst) := by
    by_cases hm : e.control.cls = .mret
    · -- a stray return goes on to the next instruction, as the hart does
      have ht : c.latches.transfer? c.traps = none := by
        rw [transfer_of_mret he hm, TrapUnit.resume?, hk hm]
        rfl
      have hfront := (hc.front_of_next ha.front he ht).1
      rw [(hc.frontier_mret ha he hm).1, hfront, ← hpc,
        Hart.effectOf_mret p.misaligned _ (hc.idEx_control he ▸ hm)]
      show (⟨_, _, _, (c.frontier p).halted⟩ : Hart) = ⟨_, _, _, false⟩
      rw [hrun]
      rfl
    · rw [frontier_of_some (ha.exMem_of_some he) hm, hc.committed_executed ha he hm]
      rfl
  rw [Hart.step_of_fetch hrun hfetch, hpc, hnext]

/-- **A trap return takes the frontier back to the interrupted program.** -/
theorem Coherent.frontier_returns (hc : Coherent p c) (ha : Advance p c c')
    (he : c.latches.idEx = some e) (hk : e.control.cls = .mret) {t : Trap}
    (hactive : c.traps.active = some t) :
    c'.frontier p = { c.frontier p with pc := t.epc } ∧ c'.committed = c'.frontier p := by
  have ht : c.latches.transfer? c.traps = some (.redirect t.epc) := by
    rw [transfer_of_mret he hk, TrapUnit.resume?, hactive]
    rfl
  obtain ⟨hfrontier, hcommitted⟩ := hc.frontier_mret ha he hk
  rw [(hc.front_of_redirect ha.front he ht).1] at hfrontier
  exact ⟨hfrontier, hcommitted⟩

/-! ## §5. Every cycle is coherent. -/

/-- An ordinary cycle does not accept interrupts while a handler is active. -/
theorem Coherent.masked_advance (hc : Coherent p c) (ha : Advance p c c')
    (hen : c'.traps.enabled = true) : c'.traps.active = none := by
  rw [ha.traps] at hen ⊢
  split at hen
  · rename_i hret
    rw [if_pos hret]
    unfold TrapUnit.leave at hen ⊢
    split at hen
    · rename_i hsome
      rw [if_pos hsome]
    · rename_i hsome
      rw [if_neg hsome]
      exact hc.masked hen
  · rename_i hret
    rw [if_neg hret]
    exact hc.masked hen

/-- What the front half holds was fetched, and is in its place. -/
theorem Coherent.ifId_advance (hc : Coherent p c) (ha : Advance p c c') (f : InFlight)
    (hf : c'.latches.ifId = some f) :
    p.program.fetch f.pc = .ok f.inst ∧ c'.pc = f.pc + instructionBytes := by
  cases ha.front with
  | redirect _ _ ifId | halt _ _ ifId | stopped _ _ ifId | starved _ _ _ _ _ ifId =>
      rw [ifId] at hf
      cases hf
  | stall _ _ _ ifId _ pc =>
      rw [pc]
      exact hc.ifId f (ifId ▸ hf)
  | fetched inst _ _ _ fetch ifId _ pc =>
      rw [ifId] at hf
      cases hf
      exact ⟨fetch, pc⟩

/-- ID/EX comes out of IF/ID, decoded with the registers of this cycle. -/
theorem Front.idEx_of_some (hf : Front p c c') (he : c'.latches.idEx = some e) :
    ∃ f, c.latches.ifId = some f ∧ c.latches.waits = false ∧ e = f.decode c.settled := by
  cases hf with
  | redirect _ _ _ idEx | halt _ _ _ idEx | stall _ _ _ _ idEx =>
      rw [idEx] at he
      cases he
  | stopped _ _ _ idEx =>
      rw [idEx, Latches.decoded] at he
      split at he
      · cases he
      · rename_i hw
        obtain ⟨f, hi, hd⟩ := Option.map_eq_some_iff.mp he
        exact ⟨f, hi, Bool.eq_false_iff.mpr hw, hd.symm⟩
  | fetched _ _ _ waits _ _ idEx | starved _ _ _ waits _ _ idEx =>
      rw [idEx] at he
      obtain ⟨f, hi, hd⟩ := Option.map_eq_some_iff.mp he
      exact ⟨f, hi, waits, hd.symm⟩

/-- Behind what comes to ID/EX is the instruction that follows it, or a word
that cannot be read. -/
theorem Coherent.next_advance (hc : Coherent p c) (ha : Advance p c c')
    (he : c'.latches.idEx = some e) :
    (∀ f, c'.latches.ifId = some f → f.pc = e.pc + instructionBytes)
      ∧ (c'.latches.ifId = none →
          c'.pc = e.pc + instructionBytes ∧ ∀ inst, p.program.fetch c'.pc ≠ .ok inst) := by
  obtain ⟨f, hi, -, rfl⟩ := ha.front.idEx_of_some he
  have hpc : c.pc = f.pc + instructionBytes := (hc.ifId f hi).2
  cases ha.front with
  | redirect _ _ _ idEx | halt _ _ _ idEx | stall _ _ _ _ idEx =>
      -- each of these leaves a bubble in ID/EX
      rw [idEx] at he
      cases he
  | stopped _ stop =>
      -- a halted core has nothing in IF/ID to decode
      rw [(hc.halted stop).1] at hi
      cases hi
  | fetched inst _ _ _ _ ifId =>
      rw [ifId]
      refine ⟨?_, fun h => by cases h⟩
      intro f' hf'
      cases hf'
      exact hpc
  | starved fault _ _ _ fetch ifId _ pc =>
      rw [ifId, pc, fetch]
      constructor
      · intro f' hf'
        cases hf'
      · intro _
        refine ⟨hpc, ?_⟩
        intro inst h
        cases h

/-- What waits in IF/ID is not let past a load that it needs. -/
theorem Advance.waited (ha : Advance p c c') {x : ExMem}
    (hx : c'.latches.exMem = some x) (he : c'.latches.idEx = some e) :
    (x.control.isLoad && x.control.rdValid && e.control.reads x.control.rd) = false := by
  obtain ⟨f, hi, hw, rfl⟩ := ha.front.idEx_of_some he
  rw [ha.exMem] at hx
  obtain ⟨e₀, he₀, rfl⟩ := Option.map_eq_some_iff.mp hx
  rw [Latches.waits, hi, he₀] at hw
  exact hw

/-- A halted core keeps the front half empty. -/
theorem Coherent.halted_advance (hc : Coherent p c) (ha : Advance p c c')
    (hh : c'.halted = true) : c'.latches.ifId = none ∧ c'.latches.idEx = none := by
  cases ha.front with
  | redirect _ _ ifId idEx | halt _ _ ifId idEx => exact ⟨ifId, idEx⟩
  | stopped _ stop ifId idEx =>
      refine ⟨ifId, ?_⟩
      rw [idEx, Latches.decoded, (hc.halted stop).1]
      split <;> rfl
  | stall _ running _ _ _ _ halted | fetched _ _ running _ _ _ _ _ halted
  | starved _ _ running _ _ _ _ _ halted =>
      rw [halted, running] at hh
      cases hh

/-- Where the frontier arrives, the front half does too. -/
theorem Coherent.front_advance (hc : Coherent p c) (ha : Advance p c c') :
    (c'.frontier p).pc = c'.frontPc ∧ (c'.frontier p).halted = c'.halted := by
  cases he : c.latches.idEx with
  | none =>
      obtain ⟨hpc, hh⟩ := hc.front_of_bubble ha.front he
      rw [(hc.frontier_waits ha he).1, hpc, hh]
      exact hc.front
  | some e =>
      by_cases hk : e.control.cls = .mret
      · have hhalt : c'.halted = false := by
          have ht := transfer_of_mret he hk
          cases hr : c.traps.resume? with
          | none => exact (hc.front_of_next ha.front he (by rw [ht, hr]; rfl)).2
          | some epc => exact (hc.front_of_redirect ha.front he (by rw [ht, hr]; rfl)).2
        rw [(hc.frontier_mret ha he hk).1, hhalt]
        exact ⟨rfl, (hc.at_idEx he).2.1⟩
      · obtain ⟨hpc, hh⟩ := hc.front_of_effect ha.front he hk
        rw [frontier_of_some (ha.exMem_of_some he) hk, hc.committed_executed ha he hk]
        exact ⟨hpc.symm, hh.symm⟩

/-- **An ordinary cycle keeps the core coherent.** -/
theorem Coherent.advance (hc : Coherent p c) (ha : Advance p c c') : Coherent p c' where
  masked := hc.masked_advance ha
  ifId := hc.ifId_advance ha
  idEx := by
    intro e he
    obtain ⟨f, hi, -, rfl⟩ := ha.front.idEx_of_some he
    rw [ha.regs]
    exact ⟨(hc.ifId f hi).1, rfl⟩
  next := fun e he => hc.next_advance ha he
  exMem := by
    intro x hx
    rw [ha.exMem] at hx
    obtain ⟨e, he, rfl⟩ := Option.map_eq_some_iff.mp hx
    rw [ha.settled_eq hc]
    exact ⟨(hc.idEx e he).1, hc.executed_idEx he⟩
  waited := fun x e hx he => ha.waited hx he
  memWb := by
    intro w hw
    rw [ha.memWb] at hw
    obtain ⟨x, hx, rfl⟩ := Option.map_eq_some_iff.mp hw
    rw [ExMem.complete_rd, (hc.exMem x hx).2.control]
    exact Control.rd_ofWord_lt _
  halted := hc.halted_advance ha
  front := hc.front_advance ha

/-- **Every cycle keeps the core coherent**, whatever the inputs. -/
theorem Coherent.tick (hc : Coherent p c) (i : Inputs) : Coherent p (c.tick p i) := by
  -- reset and interrupts leave nothing in flight
  rcases cycle_cases c i with hr | ⟨cause, hi⟩ | ho
  · rw [tick_reset p c hr]
    exact coherent_of_empty p rfl fun _ => rfl
  · obtain ⟨-, -, hl, -, ht, -, -⟩ := tick_accept p hi
    refine coherent_of_empty p hl ?_
    rw [ht]
    exact fun h => by cases h
  · exact hc.advance (tick_ordinary p ho)

/-- **Every schedule keeps the core coherent.** -/
theorem Coherent.after (hc : Coherent p c) (schedule : List Inputs) :
    Coherent p (c.after p schedule) := by
  induction schedule generalizing c with
  | nil => exact hc
  | cons i is ih => exact ih (hc.tick i)

/-- A core before its first cycle, with these registers and this memory. -/
def fresh (p : Platform) (dmem : Ram) (regs : Registers) : Core :=
  { Core.initial p dmem with regs }

theorem coherent_fresh (p : Platform) (dmem : Ram) (regs : Registers) :
    Coherent p (fresh p dmem regs) :=
  coherent_of_empty p rfl fun _ => rfl

/-- Every reachable core is coherent. -/
theorem Reachable.coherent (hr : Reachable p c) : Coherent p c := by
  obtain ⟨dmem, regs, schedule, rfl⟩ := hr
  exact (coherent_fresh p dmem regs).after schedule

end FiveStage.Core
