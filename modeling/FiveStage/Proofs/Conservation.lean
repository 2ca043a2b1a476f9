/-
  FiveStage.Proofs.Conservation
  ─────────────────────────────
  **EVERY INSTRUCTION IS ACCOUNTED FOR, AND NONE OVERTAKES ANOTHER.**

  Instructions are numbered as they are fetched.  One leaves the pipeline in
  one of three ways: it retires, it is discarded because something older
  sends fetch elsewhere, or a reset drops it.  Each cycle cuts the numbers in
  flight accordingly, and what is fetched joins at the young end:

      before    retiring ++ kept ++ discarded ++ dropped
      after     kept ++ fetched

  Along a run the pieces add up to all the numbers there are.  The counters
  keep the same accounts: `flushed` is what was discarded, and `retired` is
  what retired, class by class, words that are no instruction left out.
-/
import FiveStage.Proofs.Counting
import FiveStage.Proofs.Course

namespace FiveStage

/-! ## §1. Numbers in flight. -/

/-- What comes after all of these numbers keeps them in order. -/
theorem pairwise_append_range' {l : List Nat} {k : Nat} (h : l.Pairwise (· < ·))
    (hle : ∀ a ∈ l, a ≤ k) (n : Nat) : (l ++ List.range' (k + 1) n).Pairwise (· < ·) := by
  refine List.pairwise_append.mpr ⟨h, List.pairwise_lt_range', ?_⟩
  intro a ha b hb
  have hak := hle a ha
  rw [List.mem_range'_1] at hb
  omega

namespace Latches

/-- The numbers of the instructions in flight, the oldest first. -/
def ids (l : Latches) : List Nat :=
  (l.memWb.map (·.id)).toList ++ (l.exMem.map (·.id)).toList ++ (l.idEx.map (·.id)).toList
    ++ (l.ifId.map (·.id)).toList

/-- There are as many numbers in flight as latches are occupied. -/
theorem length_ids (l : Latches) : l.ids.length = l.occupancy := by
  obtain ⟨ifId, idEx, exMem, memWb⟩ := l
  cases ifId <;> cases idEx <;> cases exMem <;> cases memWb <;> rfl

theorem executed_ids (l : Latches) : l.executed.map (·.id) = l.idEx.map (·.id) := by
  unfold executed
  cases l.idEx <;> rfl

end Latches

theorem ExMem.complete_ids (policy : AlignmentPolicy) (dmem : Ram) (latch : Option ExMem) :
    (latch.map fun x => (x.complete policy dmem).1).map (·.id) = latch.map (·.id) := by
  cases latch with
  | none => rfl
  | some x => exact congrArg (fun e : InFlight => some e.id) ExMem.complete_toInFlight

namespace Core

variable {p : Platform} {c c' : Core} {i : Inputs}

/-! ## §2. How a cycle cuts them. -/

/-- The numbers of the instructions that a cycle discards: for an interrupt
all that is younger than MEM/WB, for a transfer what is in IF/ID. -/
def discarded (c : Core) (i : Inputs) : List Nat :=
  if i.reset then []
  else if (c.traps.arbitrate i c.halted).isSome then { c.latches with memWb := none }.ids
  else if (c.latches.transfer? c.traps).isSome then (c.latches.ifId.map (·.id)).toList
  else []

/-- The numbers of the instructions that a reset drops. -/
def dropped (c : Core) (i : Inputs) : List Nat :=
  if i.reset then c.latches.ids else []

/-- An interrupt discards all that is not in MEM/WB. -/
theorem discarded_of_accepts {cause : InterruptCause} (h : c.Accepts i cause) :
    c.discarded i = { c.latches with memWb := none }.ids := by
  simp [discarded, h.1, h.2]

/-- An ordinary cycle discards what is in IF/ID, if there is a transfer of
control. -/
theorem discarded_of_ordinary (h : c.Ordinary i) :
    c.discarded i
      = if (c.latches.transfer? c.traps).isSome then (c.latches.ifId.map (·.id)).toList
        else [] := by
  simp [discarded, h.1, h.2]

/-- A cycle cuts the numbers in flight into those that leave and those it
keeps, and puts what is fetched behind. -/
structure Moves (c c' : Core) (i : Inputs) (kept : List Nat) (n : Nat) : Prop where
  /-- What was in flight. -/
  before : c.latches.ids
    = (c.retiring i).map (·.id) ++ kept ++ c.discarded i ++ c.dropped i
  /-- What is. -/
  after : c'.latches.ids = kept ++ List.range' (c.lastId + 1) n
  /-- What is fetched gets the next numbers. -/
  lastId : c'.lastId = c.lastId + n

/-- A reset keeps nothing that is in flight and gives out no number. -/
theorem moves_reset (p : Platform) (c : Core) (hi : i.reset = true) :
    Moves c (c.tick p i) i [] 0 := by
  rw [tick_reset p c hi]
  constructor
  · simp [retiring, discarded, dropped, hi]
  · rfl
  · rfl

/-- A cycle that accepts an interrupt fetches nothing. -/
theorem lastId_accept (p : Platform) {cause : InterruptCause} (h : c.Accepts i cause) :
    (c.tick p i).lastId = c.lastId := by
  unfold tick cycle
  rw [if_neg (by simp [h.1])]
  simp only [h.2, endCycle, countCycle, enterHandler, writeback_frame]

/-- An interrupt keeps nothing that is in flight and gives out no number. -/
theorem moves_accept (p : Platform) {cause : InterruptCause} (h : c.Accepts i cause) :
    Moves c (c.tick p i) i [] 0 := by
  constructor
  · rw [discarded_of_accepts h, retiring_of_running h.1]
    simp only [dropped, h.1, Latches.ids]
    cases c.latches.memWb <;> simp
  · rw [(tick_accept p h).2.2.1]
    rfl
  · exact lastId_accept p h

/-- The front half goes on with what is in IF/ID, unless there is a transfer. -/
theorem Coherent.front_ids (hc : Coherent p c) (hf : Front p c c') :
    ∃ n, (c'.latches.idEx.map (·.id)).toList ++ (c'.latches.ifId.map (·.id)).toList
        = (if (c.latches.transfer? c.traps).isSome then []
            else (c.latches.ifId.map (·.id)).toList) ++ List.range' (c.lastId + 1) n
      ∧ c'.lastId = c.lastId + n := by
  cases hf with
  | redirect _ transfer ifId idEx _ _ lastId | halt _ transfer ifId idEx _ _ lastId =>
      refine ⟨0, ?_, lastId⟩
      rw [transfer, ifId, idEx]
      rfl
  | stopped transfer stop ifId idEx _ _ lastId =>
      -- nothing was in IF/ID, so nothing is lost with it
      refine ⟨0, ?_, lastId⟩
      rw [transfer, ifId, idEx, Latches.decoded, (hc.halted stop).1]
      split <;> rfl
  | stall transfer _ _ ifId idEx _ _ lastId =>
      refine ⟨0, ?_, lastId⟩
      rw [transfer, ifId, idEx]
      simp
  | fetched inst transfer _ _ _ ifId idEx _ _ lastId =>
      refine ⟨1, ?_, lastId⟩
      rw [transfer, ifId, idEx]
      cases c.latches.ifId <;> rfl
  | starved _ transfer _ _ _ ifId idEx _ _ lastId =>
      refine ⟨0, ?_, lastId⟩
      rw [transfer, ifId, idEx]
      cases c.latches.ifId <;> rfl

/-- An ordinary cycle keeps what is neither retired nor discarded, and may fetch
one more. -/
theorem Coherent.moves_ordinary (hc : Coherent p c) (h : c.Ordinary i) :
    ∃ kept n, Moves c (c.tick p i) i kept n := by
  have ha := tick_ordinary p h
  obtain ⟨n, hfront, hlast⟩ := hc.front_ids ha.front
  -- EX/MEM and ID/EX go one latch on
  have hmemWb : (c.tick p i).latches.memWb.map (·.id) = c.latches.exMem.map (·.id) := by
    rw [ha.memWb]
    exact ExMem.complete_ids _ _ _
  have hexMem : (c.tick p i).latches.exMem.map (·.id) = c.latches.idEx.map (·.id) := by
    rw [ha.exMem]
    exact Latches.executed_ids _
  refine ⟨(c.latches.exMem.map (·.id)).toList ++ (c.latches.idEx.map (·.id)).toList
    ++ (if (c.latches.transfer? c.traps).isSome then []
        else (c.latches.ifId.map (·.id)).toList), n, ?_, ?_, hlast⟩
  · rw [discarded_of_ordinary h, retiring_of_running h.1]
    simp only [dropped, h.1, Latches.ids]
    cases c.latches.memWb <;> split <;> simp
  · unfold Latches.ids
    rw [hmemWb, hexMem, List.append_assoc, hfront]
    simp only [List.append_assoc]

/-- **Every cycle moves the numbers on.** -/
theorem Coherent.moves (hc : Coherent p c) (i : Inputs) :
    ∃ kept n, Moves c (c.tick p i) i kept n := by
  rcases cycle_cases c i with hr | ⟨cause, hi⟩ | ho
  · exact ⟨[], 0, moves_reset p c hr⟩
  · exact ⟨[], 0, moves_accept p hi⟩
  · exact hc.moves_ordinary ho

/-! ## §3. Along a run. -/

/-- The numbers of the instructions that retire in a run. -/
def retiredIds (p : Platform) (c : Core) (s : List Inputs) : List Nat :=
  (c.retiredIn p s).map (·.id)

/-- The accounts of a run: what retired, what was discarded, what a reset
dropped and what is in flight, out of all the numbers given so far. -/
structure Accounts (retired discarded dropped inFlight : List Nat) (lastId : Nat) : Prop where
  /-- Those that retired, then those in flight, in the order of fetch. -/
  ordered : (retired ++ inFlight).Pairwise (· < ·)
  /-- No number is lost, and none is there twice. -/
  complete : (retired ++ discarded ++ dropped ++ inFlight).Perm (List.range' 1 lastId)

theorem accounts_fresh : Accounts [] [] [] [] 0 :=
  ⟨List.Pairwise.nil, List.Perm.refl []⟩

/-- Every number in the accounts was given to an instruction. -/
theorem Accounts.le_lastId {r d x l : List Nat} {n k : Nat} (h : Accounts r d x l n)
    (hk : k ∈ r ++ d ++ x ++ l) : 1 ≤ k ∧ k ≤ n := by
  have hmem : k ∈ List.range' 1 n := h.complete.mem_iff.mp hk
  rw [List.mem_range'_1] at hmem
  omega

/-- A cycle carries the accounts on. -/
theorem Accounts.step {r d x : List Nat} {kept : List Nat} {n : Nat}
    (h : Accounts r d x c.latches.ids c.lastId) (hm : Moves c c' i kept n) :
    Accounts (r ++ (c.retiring i).map (·.id)) (d ++ c.discarded i) (x ++ c.dropped i)
      c'.latches.ids c'.lastId := by
  have hbefore := hm.before
  generalize (c.retiring i).map (·.id) = r₁, c.discarded i = d₁, c.dropped i = x₁ at hbefore ⊢
  rw [hm.after, hm.lastId]
  constructor
  · -- what is fetched is younger than all there was
    have hold : (r ++ r₁ ++ kept).Pairwise (· < ·) := by
      have hsub : (r ++ r₁ ++ kept).Sublist (r ++ c.latches.ids) := by
        rw [hbefore]
        simp only [List.append_assoc]
        exact ((List.sublist_append_left _ _).append_left _).append_left _
      exact h.ordered.sublist hsub
    rw [← List.append_assoc]
    refine pairwise_append_range' hold (fun a ha => (h.le_lastId ?_).2) n
    rw [hbefore]
    simp only [List.mem_append] at ha ⊢
    tauto
  · -- each number that was given is in one of the four lists, before the cycle and after it
    have hrange : List.range' 1 (c.lastId + n)
        = List.range' 1 c.lastId ++ List.range' (c.lastId + 1) n := by
      rw [Nat.add_comm c.lastId 1, List.range'_append_1]
    rw [hrange]
    refine List.Perm.trans ?_ (h.complete.append_right _)
    rw [hbefore]
    refine List.perm_iff_count.mpr fun a => ?_
    simp only [List.count_append]
    omega

/-- **The accounts of every run.** -/
theorem accounts (p : Platform) (dmem : Ram) (regs : Registers) (s : List Inputs) :
    Accounts ((fresh p dmem regs).retiredIds p s) (along discarded p (fresh p dmem regs) s)
      (along dropped p (fresh p dmem regs) s) ((fresh p dmem regs).after p s).latches.ids
      ((fresh p dmem regs).after p s).lastId := by
  -- a run grows at its end, where the core it has led to is coherent
  induction s using List.reverseRecOn with
  | nil => exact accounts_fresh
  | append_singleton s i ih =>
      obtain ⟨kept, n, hm⟩ := ((coherent_fresh p dmem regs).after s).moves i
      have hstep := ih.step hm
      unfold retiredIds
      rw [retiredIn_snoc, along_snoc, along_snoc, after_snoc, List.map_append]
      exact hstep

end Core

/-! ## §4. What the counters say of it. -/

/-- The counters of what became of instructions. -/
structure Ledger where
  /-- Instructions retired. -/
  retired : Nat
  /-- The same, added up over the classes. -/
  classified : Nat
  /-- Instructions discarded. -/
  flushed : Nat

/-- These of the counters. -/
def Counters.ledger (k : Counters) : Ledger :=
  ⟨k.retired, k.alu + k.loads + k.stores + k.branches + k.system, k.flushed⟩

/-- The ledger once this many instructions more have retired. -/
def Ledger.retire (l : Ledger) (n : Nat) : Ledger :=
  { l with retired := l.retired + n, classified := l.classified + n }

/-- The ledger once this many instructions more are discarded. -/
def Ledger.flush (l : Ledger) (n : Nat) : Ledger :=
  { l with flushed := l.flushed + n }

/-- Retiring enters a legal instruction in the ledger. -/
theorem Counters.ledger_retire (k : Counters) (cls : InstrClass) :
    (k.retire cls).ledger = k.ledger.retire (cls != .illegal).toNat := by
  have hone : (cls != .illegal).toNat = if cls = .illegal then 0 else 1 := by
    cases cls <;> rfl
  rw [hone]
  unfold ledger Ledger.retire
  cases cls <;> simp [Counters.retire] <;> omega

namespace Core

variable {p : Platform} {c : Core} {i : Inputs}

/-- Writeback enters what was in MEM/WB, if it is legal. -/
theorem ledger_retired (c : Core) :
    c.retired.counters.ledger
      = c.counters.ledger.retire (c.latches.memWb.toList.countP (·.control.legal)) := by
  show c.writeback.core.counters.ledger = _
  unfold writeback
  cases c.latches.memWb with
  | none => rfl
  | some w =>
      have hone : ([w].countP (·.control.legal)) = (w.control.legal).toNat := by
        cases hw : w.control.legal <;> simp [hw]
      show (c.counters.retire w.control.cls).ledger = c.counters.ledger.retire ([w].countP _)
      rw [Counters.ledger_retire, hone]
      rfl

/-- The memory stage enters nothing; nor do execute, decode and fetch. -/
theorem ledger_access (p : Platform) (c : Core) :
    (c.access p).core.counters.ledger = c.counters.ledger := by
  obtain ⟨n, h⟩ := counters_access p c
  rw [h]
  rfl

theorem ledger_execute (c : Core) : c.execute.core.counters.ledger = c.counters.ledger := by
  obtain ⟨x, m, b, h⟩ := counters_execute c
  rw [h]
  rfl

theorem ledger_decode (c : Core) : c.decode.core.counters.ledger = c.counters.ledger := by
  obtain ⟨n, a, h⟩ := counters_decode c
  rw [h]
  rfl

theorem ledger_fetchNext (p : Platform) (c : Core) (stall : Bool) :
    (c.fetchNext p stall).core.counters.ledger = c.counters.ledger := by
  obtain ⟨n, f, h⟩ := counters_fetchNext p c stall
  rw [h]
  rfl

/-- A transfer of control enters what it flushes from IF/ID. -/
theorem ledger_applyTransfer (c : Core) (t : Transfer) :
    (c.applyTransfer t).counters.ledger
      = c.counters.ledger.flush (c.latches.ifId.map (·.id)).toList.length := by
  cases t <;> cases h : c.latches.ifId <;> simp [applyTransfer, Counters.ledger, Ledger.flush, h]

/-- In the flow of a cycle only a transfer of control enters anything. -/
theorem ledger_flow (p : Platform) (c : Core) :
    (c.flow p).core.counters.ledger
      = if (c.latches.transfer? c.traps).isSome then
          c.counters.ledger.flush (c.latches.ifId.map (·.id)).toList.length
        else c.counters.ledger := by
  have hex : (c.access p).core.execute.core.counters.ledger = c.counters.ledger :=
    (ledger_execute _).trans (ledger_access p c)
  cases ht : c.latches.transfer? c.traps with
  | some t =>
      rw [flow_transfer p ht]
      show ((c.access p).core.execute.core.applyTransfer t).counters.ledger = _
      rw [ledger_applyTransfer, hex]
      simp
  | none =>
      rw [flow_next p ht]
      exact (ledger_fetchNext p _ _).trans ((ledger_decode _).trans hex)

/-- An interrupt enters all that it discards. -/
theorem ledger_accept (p : Platform) {cause : InterruptCause} (h : c.Accepts i cause) :
    (c.tick p i).counters.ledger
      = c.retired.counters.ledger.flush { c.latches with memWb := none }.occupancy := by
  unfold tick cycle
  rw [if_neg (by simp [h.1])]
  simp only [h.2, endCycle, countCycle, enterHandler, writeback_frame]
  rfl

/-- **What a cycle counts.** -/
theorem ledger_tick (p : Platform) (c : Core) (i : Inputs) :
    (c.tick p i).counters.ledger
      = (c.counters.ledger.retire ((c.retiring i).countP (·.control.legal))).flush
          (c.discarded i).length := by
  rcases cycle_cases c i with hr | ⟨cause, hi⟩ | ho
  · rw [tick_reset p c hr, retiring_of_reset hr, discarded, if_pos hr]
    rfl
  · rw [ledger_accept p hi, ledger_retired, retiring_of_running hi.1, discarded_of_accepts hi,
      Latches.length_ids]
  · have hflow : (c.tick p i).counters.ledger = (c.retired.flow p).core.counters.ledger := by
      rw [tick_flow p ho]
      rfl
    rw [hflow, ledger_flow, ledger_retired, retiring_of_running ho.1, discarded_of_ordinary ho]
    simp only [retired_frame]
    split <;> rfl

/-- **What a run counts.** -/
theorem ledger_after (p : Platform) (dmem : Ram) (regs : Registers) (s : List Inputs) :
    ((fresh p dmem regs).after p s).counters.ledger
      = (Ledger.retire ⟨0, 0, 0⟩ (((fresh p dmem regs).retiredIn p s).countP
          (·.control.legal))).flush (along discarded p (fresh p dmem regs) s).length := by
  induction s using List.reverseRecOn with
  | nil => rfl
  | append_singleton s i ih =>
      rw [after_snoc, ledger_tick, ih, retiredIn_snoc, along_snoc, List.countP_append,
        List.length_append]
      simp only [Ledger.retire, Ledger.flush, Ledger.mk.injEq]
      omega

/-! ## §5. Conservation. -/

/-- The records of a run bear the numbers of what retired in it. -/
theorem retiredIds_eq (p : Platform) (c : Core) (s : List Inputs) :
    (c.retirements p s).map (·.id) = c.retiredIds p s := by
  rw [retirements_eq, List.map_map]
  rfl

/-- The instructions in flight at the resets of a run, added up. -/
def lostToResets (p : Platform) (c : Core) : List Inputs → Nat
  | [] => 0
  | i :: is => (if i.reset then c.latches.occupancy else 0) + lostToResets p (c.tick p i) is

/-- Resets drop as many numbers as they lose instructions. -/
theorem length_dropped (p : Platform) (c : Core) (s : List Inputs) :
    (along dropped p c s).length = c.lostToResets p s := by
  induction s generalizing c with
  | nil => rfl
  | cons i is ih =>
      have hone : (c.dropped i).length = if i.reset then c.latches.occupancy else 0 := by
        unfold dropped
        split
        · exact Latches.length_ids _
        · rfl
      show (c.dropped i ++ along dropped p (c.tick p i) is).length
        = (if i.reset then _ else 0) + (c.tick p i).lostToResets p is
      rw [List.length_append, hone, ih]

/-- What retires has the signals of an instruction exactly if its word is one. -/
theorem Reachable.legal_of_retired (hr : Reachable p c) {s : List Inputs} {w : MemWb}
    (hw : w ∈ c.retiredIn p s) : w.control.legal = (Control.decode w.inst).isOk := by
  obtain ⟨q, hq, hmem⟩ := List.mem_flatMap.mp hw
  have hlatch : q.1.latches.memWb = some w := by
    unfold retiring at hmem
    split at hmem
    · cases hmem
    · exact Option.mem_toList.mp hmem
  have hcls := ((hr.of_mem_course hq).completed w hlatch).cls_eq
  rw [← Control.legal_ofWord, Control.legal, Control.legal, hcls]

/-- **In-order flow and conservation.**  After every run, under any inputs,
the numbers that retired and those in flight stand in the order of fetch;
every number given belongs to an instruction that retired, was discarded, is
in flight, or was in flight at a reset; and the instructions retired are those
of the five classes, with the words that are no instruction missing. -/
theorem conservation (p : Platform) (dmem : Ram) (regs : Registers) (s : List Inputs) :
    (((fresh p dmem regs).retirements p s).map (·.id)
          ++ ((fresh p dmem regs).after p s).latches.ids).Pairwise (· < ·)
      ∧ (∀ n ∈ ((fresh p dmem regs).after p s).latches.ids,
          n ≤ ((fresh p dmem regs).after p s).lastId)
      ∧ ((fresh p dmem regs).after p s).lastId
          = ((fresh p dmem regs).retirements p s).length
            + ((fresh p dmem regs).after p s).counters.flushed
            + ((fresh p dmem regs).after p s).latches.occupancy
            + (fresh p dmem regs).lostToResets p s
      ∧ ((fresh p dmem regs).after p s).counters.retired
          = ((fresh p dmem regs).after p s).counters.alu
            + ((fresh p dmem regs).after p s).counters.loads
            + ((fresh p dmem regs).after p s).counters.stores
            + ((fresh p dmem regs).after p s).counters.branches
            + ((fresh p dmem regs).after p s).counters.system
      ∧ (fresh p dmem regs).retirements p s
          = ((fresh p dmem regs).retiredIn p s).map MemWb.retirement
      ∧ ((fresh p dmem regs).retirements p s).length
          = ((fresh p dmem regs).after p s).counters.retired
            + ((fresh p dmem regs).retiredIn p s).countP
                fun w => !(Control.decode w.inst).isOk := by
  -- order and numbers come from the accounts of numbers, the sums from the ledger of counters
  have hacc := accounts p dmem regs s
  have hledger := ledger_after p dmem regs s
  simp only [Counters.ledger, Ledger.retire, Ledger.flush, Nat.zero_add, Ledger.mk.injEq]
    at hledger
  obtain ⟨hretired, hclasses, hflushed⟩ := hledger
  have hlength : ((fresh p dmem regs).retirements p s).length
      = ((fresh p dmem regs).retiredIn p s).length := by
    rw [retirements_eq, List.length_map]
  refine ⟨?_, ?_, ?_, ?_, retirements_eq p _ s, ?_⟩
  · rw [retiredIds_eq]
    exact hacc.ordered
  · intro n hn
    exact (hacc.le_lastId (List.mem_append_right _ hn)).2
  · have htotal := hacc.complete.length_eq
    simp only [List.length_append, List.length_range', retiredIds, List.length_map,
      Latches.length_ids, length_dropped] at htotal
    rw [hlength, hflushed]
    omega
  · rw [hretired, hclasses]
  · -- what retires is legal and counted, or its word is no instruction
    have hillegal : ((fresh p dmem regs).retiredIn p s).countP (fun w => !w.control.legal)
        = ((fresh p dmem regs).retiredIn p s).countP fun w => !(Control.decode w.inst).isOk := by
      refine List.countP_congr fun w hw => ?_
      rw [(Reachable.start p dmem regs).legal_of_retired hw]
    rw [hlength, hretired, ← hillegal]
    simpa using List.length_eq_countP_add_countP (fun w : MemWb => w.control.legal)

/-- A program with a word that is no instruction, and a handler that only
returns. -/
def unruly : Platform where
  program := .rom ⟨#[(Instr.opImm .add 1 1 5).encode, 0, (Instr.jal 0 0).encode,
    Encode.mret], 16⟩
  misaligned := .fault
  resetVector := 0
  interrupts := { handlerVector := 12 }
  traceInstructions := false

/-- An interrupt, and later a reset. -/
def disturbed : List Inputs :=
  quiet 7 ++ [{ external := true }] ++ quiet 3 ++ [{ reset := true }] ++ quiet 6

/-- The core after both, and a few redirects. -/
def unrulyNow : Core :=
  (fresh unruly ⟨0, 8, {}⟩ .zero).after unruly disturbed

/-- Of thirteen instructions five have retired, two of them undecodable, five
were discarded, one was lost to the reset, and two are in flight. -/
theorem conservation_unruly :
    11 ∈ unrulyNow.latches.ids ∧ 11 ≤ unrulyNow.lastId
      ∧ unrulyNow.lastId = 5 + unrulyNow.counters.flushed + unrulyNow.latches.occupancy + 1
      ∧ unrulyNow.counters.flushed = 5 ∧ unrulyNow.latches.occupancy = 2
      ∧ 5 = unrulyNow.counters.retired + 2 := by
  have hmem : 11 ∈ unrulyNow.latches.ids := by decide +kernel
  have hlength : ((fresh unruly ⟨0, 8, {}⟩ .zero).retirements unruly disturbed).length = 5 := by
    decide +kernel
  have hlost : (fresh unruly ⟨0, 8, {}⟩ .zero).lostToResets unruly disturbed = 1 := by
    decide +kernel
  have hwords : ((fresh unruly ⟨0, 8, {}⟩ .zero).retiredIn unruly disturbed).countP
      (fun w => !(Control.decode w.inst).isOk) = 2 := by decide +kernel
  obtain ⟨-, hle, hall, -, -, hrecords⟩ := conservation unruly ⟨0, 8, {}⟩ .zero disturbed
  rw [hlength, hlost] at hall
  rw [hlength, hwords] at hrecords
  exact ⟨hmem, hle 11 hmem, hall, by decide +kernel, by decide +kernel, hrecords⟩

end Core

end FiveStage
