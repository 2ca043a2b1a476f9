/-
  FiveStage.Proofs.FetchChain
  ───────────────────────────
  **WHERE THE INSTRUCTIONS IN FLIGHT WERE FETCHED.**

  Every instruction in flight was read from the ROM, at an instruction
  address, and carries the signals of its word; those in the front half of the
  pipeline were fetched one after the other:

      Reachable.even       fetch stays on even addresses, and a return from
                           the handler will lead to one
      Completed.signals    only a load that was refused has lost a signal
      ifId_behind_load     a load leaves no gap behind it, stalled or not

  Fetch alone says little of this.  A jump may lead to an address that is no
  multiple of four, and what keeps such an address out of the latches is that
  the ROM refuses it.
-/
import FiveStage.Proofs.Provenance
import FiveStage.Proofs.Validation

namespace FiveStage

/-! ## §1. Even addresses. -/

namespace Width

variable {a b : Word}

theorem half_of_word (h : word.isAligned a = true) : half.isAligned a = true := by
  have hmod : a.toNat % 4 = 0 := isAligned_iff.mp h
  refine isAligned_iff.mpr ?_
  show a.toNat % 2 = 0
  omega

/-- The sum of two even addresses is even. -/
theorem half_add (ha : half.isAligned a = true) (hb : half.isAligned b = true) :
    half.isAligned (a + b) = true := by
  have ha2 : a.toNat % 2 = 0 := isAligned_iff.mp ha
  have hb2 : b.toNat % 2 = 0 := isAligned_iff.mp hb
  refine isAligned_iff.mpr ?_
  show (a + b).toNat % 2 = 0
  rw [BitVec.toNat_add]
  omega

/-- An address is even if its lowest bit is clear. -/
theorem half_of_bit (h : a.getLsbD 0 = false) : half.isAligned a = true := by
  rw [BitVec.getLsbD, Nat.testBit_zero, decide_eq_false_iff_not] at h
  refine isAligned_iff.mpr ?_
  show a.toNat % 2 = 0
  omega

/-- Offsets that count halfwords are even. -/
theorem half_offset {n : Nat} (offset : BitVec n) :
    half.isAligned ((offset ++ 0#1).signExtend 32) = true := by
  apply half_of_bit
  rw [BitVec.getLsbD_signExtend, BitVec.getLsbD_append]
  simp

theorem half_clear (a : Word) : half.isAligned (a &&& ~~~1) = true := by
  apply half_of_bit
  rw [BitVec.getLsbD_and, BitVec.getLsbD_not]
  simp

end Width

/-- A ROM is read at multiples of four only. -/
theorem Rom.isAligned_of_fetch {rom : Rom} {pc inst : Word} (h : rom.fetch pc = .ok inst) :
    Width.word.isAligned pc = true := by
  unfold fetch at h
  split at h
  · assumption
  · cases h

/-- The vectors of valid settings are instruction addresses. -/
theorem Settings.vectors_of_valid {s : Settings} (h : s.flaw? = .value none) :
    Width.word.isAligned s.general.resetVector = true
      ∧ Width.word.isAligned s.interrupts.handlerVector = true := by
  obtain ⟨-, -, -, hreset, hhandler⟩ := flaw_eq_none_iff.mp h
  exact ⟨Width.isAligned_iff.mpr (Nat.mod_eq_zero_of_dvd hreset),
    Width.isAligned_iff.mpr (Nat.mod_eq_zero_of_dvd hhandler)⟩

namespace TrapUnit

/-- A return from the handler leads to an even address. -/
def Even (t : TrapUnit) : Prop :=
  ∀ trap, t.active = some trap → Width.half.isAligned trap.epc = true

/-- Trap state holds an even address at reset. -/
theorem even_atReset (s : InterruptSettings) : (atReset s).Even := by
  intro trap h
  cases h

theorem even_enter (t : TrapUnit) (cause : InterruptCause) {epc : Word}
    (h : Width.half.isAligned epc = true) : (t.enter cause epc).Even := by
  intro trap ht
  cases ht
  exact h

theorem Even.leave {t : TrapUnit} (h : t.Even) : t.leave.Even := by
  unfold TrapUnit.leave
  split
  · intro trap ht
    cases ht
  · exact h

end TrapUnit

/-- Execute sends fetch from an even address to an even address. -/
theorem Control.even_of_transfer? {w pc target : Word} {o : Operands} {traps : TrapUnit}
    (hpc : Width.half.isAligned pc = true) (htraps : traps.Even)
    (h : (ofWord w).transfer? pc o traps = some (.redirect target)) :
    Width.half.isAligned target = true := by
  rcases ofWord_eq w with hk | ⟨i, -, hk⟩ <;> rw [hk] at h
  · cases h
  · cases i with
    | branch c rs1 rs2 offset =>
        obtain ⟨-, h⟩ := Option.ite_none_right_eq_some.mp h
        cases h
        -- offsets are even
        exact Width.half_add hpc (Width.half_offset offset)
    | jal rd offset =>
        cases h
        exact Width.half_add hpc (Width.half_offset offset)
    | jalr rd rs1 offset =>
        cases h
        -- the sum may be odd, and its bit 0 is cleared
        exact Width.half_clear _
    | mret =>
        -- the target is the saved address
        obtain ⟨epc, hepc, heq⟩ := Option.map_eq_some_iff.mp h
        obtain ⟨trap, htrap, rfl⟩ := Option.map_eq_some_iff.mp hepc
        cases heq
        exact htraps trap htrap
    | _ => cases h

namespace Core

variable {p : Platform} {c : Core} {i : Inputs} {rom : Rom}

/-- Fetch stays on even addresses. -/
structure Even (c : Core) : Prop where
  /-- It is about to read at one. -/
  pc : Width.half.isAligned c.pc = true
  /-- It will go on at one after the handler. -/
  traps : c.traps.Even

section

variable (hrom : p.program = .rom rom)
  (hreset : Width.half.isAligned p.resetVector = true)
  (hhandler : Width.half.isAligned p.interrupts.handlerVector = true)

include hrom

/-- Only word-aligned addresses fetch. -/
theorem isAligned_of_fetch {pc inst : Word} (h : p.program.fetch pc = .ok inst) :
    Width.word.isAligned pc = true := by
  rw [hrom] at h
  exact Rom.isAligned_of_fetch h

/-- What an interrupt discards resumes at an even address. -/
theorem Coherent.even_epc (hc : Coherent p c) (hpc : Width.half.isAligned c.pc = true) :
    Width.half.isAligned c.epc = true := by
  -- the front half begins where a word was fetched, or at the PC
  have hfront : Width.half.isAligned c.frontPc = true := by
    cases he : c.latches.idEx with
    | some e =>
        rw [frontPc_of_idEx he]
        exact Width.half_of_word (isAligned_of_fetch hrom (hc.idEx e he).1)
    | none =>
        cases hf : c.latches.ifId with
        | some f =>
            rw [frontPc_of_ifId he hf]
            exact Width.half_of_word (isAligned_of_fetch hrom (hc.ifId f hf).1)
        | none =>
            rw [frontPc_of_bubbles he hf]
            exact hpc
  -- an instruction in EX/MEM is executed again, unless it is a trap return
  cases hx : c.latches.exMem with
  | none =>
      rw [epc_of_bubble hx]
      exact hfront
  | some x =>
      by_cases hk : x.control.cls = .mret
      · rw [epc_of_mret hx hk]
        exact hfront
      · rw [epc_of_some hx hk]
        exact Width.half_of_word (isAligned_of_fetch hrom (hc.exMem x hx).1)

/-- An ordinary cycle stays on even addresses: the next instruction is four
bytes on, and so is the one after a halt. -/
theorem Coherent.even_ordinary (hc : Coherent p c) (he : c.Even) (h : c.Ordinary i) :
    (c.tick p i).Even := by
  have ha := tick_ordinary p h
  constructor
  · cases ha.front with
    | redirect target transfer _ _ pc _ _ =>
        rw [pc]
        obtain ⟨e, hex, ht⟩ := Option.bind_eq_some_iff.mp transfer
        obtain ⟨hread, hdec⟩ := hc.idEx e hex
        have hk : e.control = Control.ofWord e.inst := by rw [hdec]; rfl
        rw [hk] at ht
        exact Control.even_of_transfer? (Width.half_of_word (isAligned_of_fetch hrom hread))
          he.traps ht
    | halt resume transfer _ _ pc _ _ =>
        rw [pc]
        obtain ⟨e, hex, ht⟩ := Option.bind_eq_some_iff.mp transfer
        rw [(Control.halt_of_transfer? ht).2]
        exact Width.half_add
          (Width.half_of_word (isAligned_of_fetch hrom (hc.idEx e hex).1)) (by decide)
    | stopped _ _ _ _ pc _ _ | stall _ _ _ _ _ pc _ _ | starved _ _ _ _ _ _ _ pc _ _ =>
        rw [pc]
        exact he.pc
    | fetched _ _ _ _ _ _ _ pc _ _ =>
        rw [pc]
        exact Width.half_add he.pc (by decide)
  · rw [ha.traps]
    split
    · exact he.traps.leave
    · exact he.traps

include hreset hhandler

/-- **Fetch never leaves the even addresses**, if both vectors are even. -/
theorem Reachable.even (hr : Reachable p c) : c.Even := by
  refine hr.induct ?_ ?_
  · intro dmem regs
    exact ⟨hreset, TrapUnit.even_atReset _⟩
  · intro c i hr he
    rcases cycle_cases c i with hi | ⟨cause, hi⟩ | ho
    · rw [tick_reset p c hi]
      exact ⟨hreset, TrapUnit.even_atReset _⟩
    · obtain ⟨-, -, -, hpc, htraps, -⟩ := tick_accept p hi
      refine ⟨hpc ▸ hhandler, htraps ▸ TrapUnit.even_enter _ _ ?_⟩
      exact hr.coherent.even_epc hrom he.pc
    · exact hr.coherent.even_ordinary hrom he ho

end

end Core

/-! ## §2. Signals. -/

/-- A word stores exactly if its class is `store`. -/
theorem Control.isStore_ofWord (w : Word) :
    (ofWord w).isStore = ((ofWord w).cls == .store) := by
  rcases ofWord_eq w with h | ⟨i, -, h⟩ <;> rw [h]
  · rfl
  · cases i <;> rfl

namespace MemWb

variable {policy : AlignmentPolicy} {w : MemWb}

/-- The memory stage refuses loads and stores, and takes a signal from a load
that it refuses only. -/
theorem Completed.signals (h : w.Completed policy) :
    (w.control = if (Control.ofWord w.inst).isLoad && w.fault.isSome then
        { Control.ofWord w.inst with rdValid := false } else Control.ofWord w.inst)
      ∧ (w.fault ≠ none →
          (Control.ofWord w.inst).isLoad = true ∨ (Control.ofWord w.inst).isStore = true) := by
  obtain ⟨x, dmem, hx, rfl⟩ := h
  rw [show (x.complete policy dmem).1.inst = x.inst from
    congrArg InFlight.inst ExMem.complete_toInFlight, Control.isLoad_ofWord,
    Control.isStore_ofWord, ← hx]
  unfold ExMem.complete
  cases hk : x.control.cls with
  | load =>
      dsimp only
      split <;> exact ⟨rfl, fun _ => Or.inl rfl⟩
  | store =>
      dsimp only
      split <;> exact ⟨rfl, fun _ => Or.inr rfl⟩
  | regReg | regImm | lui | auipc | jal | jalr | branch | halt | mret | illegal =>
      exact ⟨rfl, fun hf => absurd rfl hf⟩

end MemWb

namespace Core

variable {p : Platform} {c : Core} {i : Inputs}

/-- What MEM/WB holds is what the program holds at its address. -/
theorem Reachable.fetched_memWb (hr : Reachable p c) :
    ∀ w, c.latches.memWb = some w → p.program.fetch w.pc = .ok w.inst := by
  refine hr.induct ?_ ?_
  · intro dmem regs w hw
    cases hw
  · intro c i hr _ w hw
    obtain ⟨x, hx, rfl⟩ := memWb_tick hw
    have hsame : (x.complete p.misaligned c.dmem).1.toInFlight = x.toInFlight :=
      ExMem.complete_toInFlight
    rw [congrArg InFlight.pc hsame, congrArg InFlight.inst hsame]
    exact (hr.coherent.exMem x hx).1

/-! ## §3. One after the other. -/

/-- A load leaves no gap behind it.  If ID/EX is a bubble, the instruction
in IF/ID has waited for the load: it was not fetched behind a bubble, because
fetch goes on failing where it failed. -/
theorem Coherent.ifId_behind_load (hc : Coherent p c) {x : ExMem} {f : InFlight}
    (hx : (c.tick p i).latches.exMem = some x) (hl : x.control.isLoad = true)
    (he : (c.tick p i).latches.idEx = none) (hf : (c.tick p i).latches.ifId = some f) :
    f.pc = x.pc + instructionBytes := by
  rcases cycle_cases c i with hr | ⟨cause, hi⟩ | ho
  · rw [tick_reset p c hr] at hx
    cases hx
  · rw [(tick_accept p hi).2.2.1] at hx
    cases hx
  · have ha := tick_ordinary p ho
    rw [ha.exMem] at hx
    obtain ⟨e, hex, rfl⟩ := Option.map_eq_some_iff.mp hx
    cases ha.front with
    | redirect _ _ ifId _ _ _ _ | halt _ _ ifId _ _ _ _ | stopped _ _ ifId _ _ _ _
    | starved _ _ _ _ _ ifId _ _ _ _ =>
        rw [ifId] at hf
        cases hf
    | stall _ _ _ ifId _ _ _ _ =>
        -- the instruction in IF/ID waits for the load
        rw [ifId] at hf
        exact (hc.next e hex).1 f hf
    | fetched inst _ _ _ fetch _ idEx _ _ _ =>
        -- nothing was behind the load, so the word after it cannot be read
        rw [idEx] at he
        exact absurd fetch (((hc.next e hex).2 (Option.map_eq_none_iff.mp he)).2 inst)

/-- With a bubble between them, what stands in IF/ID behind a load in EX/MEM is
the instruction after it. -/
theorem Reachable.ifId_behind_load (hr : Reachable p c) :
    ∀ x f, c.latches.exMem = some x → x.control.isLoad = true → c.latches.idEx = none →
      c.latches.ifId = some f → f.pc = x.pc + instructionBytes := by
  refine hr.induct ?_ ?_
  · intro dmem regs x f hx
    cases hx
  · intro c i hr _ x f hx hl he hf
    exact hr.coherent.ifId_behind_load hx hl he hf

end Core

/-! ## §4. All of it. -/

/-- The instructions in flight, the oldest first. -/
def Latches.inFlight (l : Latches) : List InFlight :=
  (l.memWb.map (·.toInFlight)).toList ++ (l.exMem.map (·.toInFlight)).toList
    ++ (l.idEx.map (·.toInFlight)).toList ++ l.ifId.toList

/-- An instruction is in flight if one of the four latches holds it. -/
theorem Latches.mem_inFlight {l : Latches} {f : InFlight} :
    f ∈ l.inFlight ↔ (∃ w, l.memWb = some w ∧ w.toInFlight = f)
      ∨ (∃ x, l.exMem = some x ∧ x.toInFlight = f)
      ∨ (∃ e, l.idEx = some e ∧ e.toInFlight = f) ∨ l.ifId = some f := by
  simp only [inFlight, List.mem_append, Option.mem_toList, Option.map_eq_some_iff, or_assoc]

/-- What is read from a ROM is the word at that address. -/
theorem Rom.word?_of_fetch {rom : Rom} {pc inst : Word} (h : rom.fetch pc = .ok inst) :
    rom.word? (pc.toNat / 4) = some inst := by
  unfold fetch at h
  rw [if_pos (isAligned_of_fetch h)] at h
  cases hw : rom.word? (pc.toNat / 4) with
  | none =>
      rw [hw] at h
      cases h
  | some w =>
      rw [hw] at h
      exact congrArg some (Except.ok.inj h)

namespace Core

variable {p : Platform} {c : Core}

/-- Everything in flight was read from program memory. -/
theorem Reachable.fetched (hr : Reachable p c) {f : InFlight} (hf : f ∈ c.latches.inFlight) :
    p.program.fetch f.pc = .ok f.inst := by
  rcases Latches.mem_inFlight.mp hf with ⟨w, hw, rfl⟩ | ⟨x, hx, rfl⟩ | ⟨e, he, rfl⟩ | hf
  · exact hr.fetched_memWb w hw
  · exact (hr.coherent.exMem x hx).1
  · exact (hr.coherent.idEx e he).1
  · exact (hr.coherent.ifId f hf).1

/-- **Where the instructions in flight come from.**  Let the settings be valid,
and a core run from a ROM under any inputs.

  * The PC is even.
  * Every instruction in flight has a word-aligned address, at which its word
    stands in the ROM.
  * It has the signals of its word from ID/EX on; in MEM/WB a load that was
    refused no longer writes its destination, and only loads and stores carry
    a fault.
  * Nothing but a store carries data to be stored.
  * The PC is just past IF/ID, and IF/ID is just past ID/EX, or past a load in
    EX/MEM with a bubble behind it. -/
theorem latch_provenance {s : Settings} (valid : s.flaw? = .value none) (rom : Rom)
    (hr : Reachable (.ofSettings s (.rom rom)) c) :
    2 ∣ c.pc.toNat
      ∧ (∀ f ∈ c.latches.inFlight,
          4 ∣ f.pc.toNat ∧ rom.word? (f.pc.toNat / 4) = some f.inst)
      ∧ (∀ e, c.latches.idEx = some e → e.control = Control.ofWord e.inst)
      ∧ (∀ x, c.latches.exMem = some x → x.control = Control.ofWord x.inst
          ∧ (x.control.isStore = false → x.storeData = 0))
      ∧ (∀ w, c.latches.memWb = some w →
          (w.control = if (Control.ofWord w.inst).isLoad && w.fault.isSome then
              { Control.ofWord w.inst with rdValid := false } else Control.ofWord w.inst)
            ∧ (w.fault ≠ none → w.control.isLoad = true ∨ w.control.isStore = true))
      ∧ ∀ f, c.latches.ifId = some f →
          c.pc = f.pc + instructionBytes
            ∧ (∀ e, c.latches.idEx = some e → f.pc = e.pc + instructionBytes)
            ∧ ∀ x, c.latches.exMem = some x → x.control.isLoad = true →
                c.latches.idEx = none → f.pc = x.pc + instructionBytes := by
  have hc := hr.coherent
  obtain ⟨hreset, hhandler⟩ := Settings.vectors_of_valid valid
  have heven := hr.even rfl (Width.half_of_word hreset) (Width.half_of_word hhandler)
  refine ⟨Nat.dvd_of_mod_eq_zero (Width.isAligned_iff.mp heven.pc), ?_, ?_, ?_, ?_, ?_⟩
  · intro f hf
    have hread : rom.fetch f.pc = .ok f.inst := hr.fetched hf
    exact ⟨Nat.dvd_of_mod_eq_zero (Width.isAligned_iff.mp (Rom.isAligned_of_fetch hread)),
      Rom.word?_of_fetch hread⟩
  · intro e he
    rw [(hc.idEx e he).2]
    rfl
  · intro x hx
    have hexec := (hc.exMem x hx).2
    refine ⟨hexec.control, fun hs => ?_⟩
    rw [hexec.storeData, hs]
    rfl
  · intro w hw
    obtain ⟨hsignals, hfault⟩ := (hr.completed w hw).signals
    refine ⟨hsignals, fun hf => ?_⟩
    -- the signal that a load may have lost is another one
    rw [hsignals]
    split <;> exact hfault hf
  · intro f hf
    exact ⟨(hc.ifId f hf).2, fun e he => (hc.next e he).1 f hf,
      fun x hx hl he => hr.ifId_behind_load x f hx hl he hf⟩

/-- A load and an instruction that waits for it. -/
def waiting : Rom :=
  ⟨#[(Instr.load .lw 1 0 0).encode, (Instr.op .add 2 1 1).encode], 2⟩

/-- The core while it waits. -/
def waitingNow : Core :=
  (fresh (.ofSettings {} (.rom waiting)) ⟨0, 8, {}⟩ .zero).after
    (.ofSettings {} (.rom waiting)) (quiet 3)

/-- The load is in EX/MEM with a bubble behind it, and the sum is still just
past it. -/
theorem latch_provenance_waiting :
    ({} : Settings).flaw? = .value none
      ∧ Reachable (.ofSettings {} (.rom waiting)) waitingNow
      ∧ ∃ x f, waitingNow.latches.exMem = some x ∧ x.control.isLoad = true
        ∧ waitingNow.latches.idEx = none ∧ waitingNow.latches.ifId = some f
        ∧ f.pc = x.pc + instructionBytes := by
  have hvalid : ({} : Settings).flaw? = .value none := by decide
  have hr : Reachable (.ofSettings {} (.rom waiting)) waitingNow :=
    ⟨⟨0, 8, {}⟩, .zero, quiet 3, rfl⟩
  refine ⟨hvalid, hr, ?_⟩
  have hx : waitingNow.latches.exMem.isSome = true := by decide +kernel
  have hf : waitingNow.latches.ifId.isSome = true := by decide +kernel
  have hl : (waitingNow.latches.exMem.any (·.control.isLoad)) = true := by decide +kernel
  have he : waitingNow.latches.idEx = none := by decide +kernel
  obtain ⟨x, hx⟩ := Option.isSome_iff_exists.mp hx
  obtain ⟨f, hf⟩ := Option.isSome_iff_exists.mp hf
  rw [hx] at hl
  obtain ⟨-, -, -, -, -, hchain⟩ := latch_provenance hvalid waiting hr
  exact ⟨x, f, hx, hl, he, hf, (hchain f hf).2.2 x hx hl he⟩

end Core

end FiveStage
