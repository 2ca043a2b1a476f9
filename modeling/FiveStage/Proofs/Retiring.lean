/-
  FiveStage.Proofs.Retiring
  ─────────────────────────
  **WHAT RETIRES, AND WHEN.**

  A run is seen through the records of what it retires.  Two instructions at
  any time are sure to retire next: the one in MEM/WB in the coming cycle,
  and the one in EX/MEM in the cycle after that.

      leaving      the record of MEM/WB
      following    the record EX/MEM will have

  An ordinary cycle turns `following` into `leaving`, and makes of ID/EX what
  follows: the record of the instruction that the frontier performs.
-/
import FiveStage.Proofs.Frontier

namespace FiveStage

namespace Core

variable {p : Platform} {c c' : Core}

/-! ## §1. Schedules. -/

/-- A run in two parts is a run of each. -/
theorem after_append (p : Platform) (c : Core) (s t : List Inputs) :
    c.after p (s ++ t) = (c.after p s).after p t :=
  List.foldl_append

/-- What a run in two parts retires, the parts retire. -/
theorem retirements_append (p : Platform) (c : Core) (s t : List Inputs) :
    c.retirements p (s ++ t) = c.retirements p s ++ (c.after p s).retirements p t := by
  induction s generalizing c with
  | nil => rfl
  | cons i is ih =>
      show (c.tick p i).lastRetired.toList ++ (c.tick p i).retirements p (is ++ t) = _
      rw [ih, ← List.append_assoc]
      rfl

theorem quiet_succ (n : Nat) : quiet (n + 1) = quiet n ++ [({} : Inputs)] :=
  List.replicate_succ'

/-- Quiet runs put one behind the other are a quiet run. -/
theorem quiet_add (m n : Nat) : quiet (m + n) = quiet m ++ quiet n :=
  List.replicate_append_replicate.symm

theorem after_quiet_succ (p : Platform) (c : Core) (n : Nat) :
    c.after p (quiet (n + 1)) = (c.after p (quiet n)).tick p {} := by
  rw [quiet_succ, after_append]
  rfl

theorem after_quiet_add (p : Platform) (c : Core) (m n : Nat) :
    c.after p (quiet (m + n)) = (c.after p (quiet m)).after p (quiet n) := by
  rw [quiet_add, after_append]

/-! ## §2. Records. -/

/-- What is seen of the instructions retired in the cycles of a schedule. -/
def seen (p : Platform) (c : Core) (schedule : List Inputs) :
    List (Word × Option (Nat × Word)) :=
  (c.retirements p schedule).map Retirement.visible

/-- What is seen of the instruction in MEM/WB when it retires. -/
def leaving (c : Core) : List (Word × Option (Nat × Word)) :=
  (c.latches.memWb.map fun w => w.retirement.visible).toList

/-- What is seen of the instruction in EX/MEM when it retires. -/
def following (p : Platform) (c : Core) : List (Word × Option (Nat × Word)) :=
  (c.latches.exMem.map fun x =>
    (x.complete p.misaligned c.dmem).1.retirement.visible).toList

/-- What is seen of a run in two parts is seen of each. -/
theorem seen_append (p : Platform) (c : Core) (s t : List Inputs) :
    c.seen p (s ++ t) = c.seen p s ++ (c.after p s).seen p t := by
  unfold seen
  rw [retirements_append, List.map_append]

/-- Unless it is reset, the core retires in a cycle what MEM/WB holds. -/
theorem lastRetired_tick (p : Platform) (c : Core) {i : Inputs} (hi : i.reset = false) :
    (c.tick p i).lastRetired = c.latches.memWb.map MemWb.retirement := by
  rcases cycle_cases c i with hr | ⟨cause, ha⟩ | ho
  · rw [hi] at hr
    cases hr
  · exact (tick_accept p ha).2.2.2.2.2.2
  · exact (tick_ordinary p ho).lastRetired

theorem seen_single (p : Platform) (c : Core) {i : Inputs} (hi : i.reset = false) :
    c.seen p [i] = c.leaving := by
  show ((c.tick p i).lastRetired.toList ++ []).map Retirement.visible = _
  rw [lastRetired_tick p c hi, leaving]
  cases c.latches.memWb <;> rfl

/-- The last cycle of a run shows what leaves in it. -/
theorem seen_snoc (p : Platform) (c : Core) (schedule : List Inputs) {i : Inputs}
    (hi : i.reset = false) :
    c.seen p (schedule ++ [i]) = c.seen p schedule ++ (c.after p schedule).leaving := by
  rw [seen_append, seen_single p _ hi]

theorem seen_quiet_succ (p : Platform) (c : Core) (n : Nat) :
    c.seen p (quiet (n + 1)) = c.seen p (quiet n) ++ (c.after p (quiet n)).leaving := by
  rw [quiet_succ, seen_snoc p c _ rfl]

theorem length_leaving_le (c : Core) : c.leaving.length ≤ 1 := by
  unfold leaving
  cases c.latches.memWb <;> simp

/-- From a bubble in EX/MEM nothing follows. -/
theorem following_of_bubble (hx : c.latches.exMem = none) : c.following p = [] := by
  unfold following
  rw [hx]
  rfl

/-- From a bubble in MEM/WB nothing leaves. -/
theorem leaving_of_bubble (hw : c.latches.memWb = none) : c.leaving = [] := by
  unfold leaving
  rw [hw]
  rfl

/-! ## §3. An ordinary cycle. -/

/-- What follows leaves in the cycle after. -/
theorem Advance.leaving_eq (ha : Advance p c c') : c'.leaving = c.following p := by
  unfold leaving following
  rw [ha.memWb, Option.map_map]
  rfl

/-- What is not in ID/EX does not follow in the cycle after. -/
theorem Advance.following_of_none (ha : Advance p c c') (he : c.latches.idEx = none) :
    c'.following p = [] :=
  following_of_bubble (ha.exMem_of_none he)

/-- The record of what EX/MEM holds is that of its effect in the committed hart. -/
theorem Coherent.following_of_some (hc : Coherent p c) {x : ExMem}
    (hx : c.latches.exMem = some x) :
    c.following p = [(x.pc, (c.committed.effectOf p.misaligned x.inst).write?)] := by
  unfold following
  rw [hx, ← (hc.completes hx).write]
  show [((x.complete p.misaligned c.dmem).1.pc, _)] = _
  rw [ExMem.complete_pc]
  rfl

/-- What was executed has the effect in the committed hart that it had on the
frontier. -/
theorem Coherent.effect_executed (hc : Coherent p c) (ha : Advance p c c') {e : IdEx}
    (he : c.latches.idEx = some e) :
    c'.committed.effectOf p.misaligned e.inst = (c.frontier p).effectOf p.misaligned e.inst := by
  by_cases hk : e.control.cls = .mret
  · -- the committed hart has gone on already, but the effect is none anywhere
    have hw : (Control.ofWord e.inst).cls = .mret := hc.idEx_control he ▸ hk
    rw [Hart.effectOf_mret p.misaligned _ hw, Hart.effectOf_mret p.misaligned _ hw]
  · rw [hc.committed_executed ha he hk]

/-- What was executed follows, with the effect it has on the frontier. -/
theorem Coherent.following_executed (hc : Coherent p c) (ha : Advance p c c') {e : IdEx}
    (he : c.latches.idEx = some e) :
    c'.following p
      = [(e.pc, ((c.frontier p).effectOf p.misaligned e.inst).write?)] := by
  rw [(hc.advance ha).following_of_some (ha.exMem_of_some he), ← hc.effect_executed ha he]
  rfl

/-! ## §4. The register file is what the records make of it. -/

/-- The registers after the writes of these records. -/
def replay (regs : Registers) (records : List (Word × Option (Nat × Word))) : Registers :=
  records.foldl (fun regs r => applyWrite regs r.2) regs

/-- Records in two parts are replayed part by part. -/
theorem replay_append (regs : Registers) (l m : List (Word × Option (Nat × Word))) :
    replay regs (l ++ m) = replay (replay regs l) m :=
  List.foldl_append

/-- The registers after a cycle are those before, with what was seen written. -/
theorem regs_tick (p : Platform) (c : Core) (i : Inputs) :
    (c.tick p i).regs = replay c.regs (c.seen p [i]) := by
  rcases cycle_cases c i with hr | ⟨cause, ha⟩ | ho
  · -- a reset retires nothing and keeps the registers
    show _ = replay c.regs (((c.tick p i).lastRetired.toList ++ []).map Retirement.visible)
    rw [tick_reset p c hr]
    rfl
  · rw [(tick_accept p ha).1, seen_single p c ha.1, settled, leaving]
    cases c.latches.memWb <;> rfl
  · rw [(tick_ordinary p ho).regs, seen_single p c ho.1, settled, leaving]
    cases c.latches.memWb <;> rfl

/-- **The registers hold what the retired instructions wrote**, under any
schedule: nothing else ever writes them. -/
theorem regs_after (p : Platform) (c : Core) (schedule : List Inputs) :
    (c.after p schedule).regs = replay c.regs (c.seen p schedule) := by
  induction schedule generalizing c with
  | nil => rfl
  | cons i is ih =>
      show ((c.tick p i).after p is).regs = _
      have hseen : c.seen p (i :: is) = c.seen p [i] ++ (c.tick p i).seen p is :=
        seen_append p c [i] is
      rw [ih, regs_tick, hseen, replay_append]

end Core

end FiveStage
