/-
  FiveStage.Proofs.Diagnostics
  ────────────────────────────
  **DIAGNOSTICS TELL WHAT THE PROGRAM DID.**

  Anomalies are found in decode and refused accesses in the memory stage,
  before the instruction has retired.  Still, while a core is left alone, what
  is found is found of instructions that will retire:

      a word is decoded     once, and then it is in ID/EX
      an access is made     once, and then it is in MEM/WB

  and whatever has come as far as that goes on to retire, in the order in
  which the sequential machine performs it (`told_quiet`).  So the logs of a
  run that has finished are those of the machine's history.
-/
import FiveStage.Proofs.Logs
import FiveStage.Proofs.Refinement
import FiveStage.Proofs.Running

namespace FiveStage

/-! ## §1. What a record is of. -/

/-- Why a word is no instruction, if it is none. -/
def Anomaly.of? (inst : Word) : Option Anomaly :=
  (⟨0, inst, {}⟩ : Performed).anomaly?

/-- What is found of an instruction, with its number and address. -/
def InFlight.report {α : Type} (f : InFlight) (finding : Option α) : Option (Nat × Word × α) :=
  finding.map fun x => (f.id, f.pc, x)

/-- What there is to report of its word. -/
def InFlight.unknown? (f : InFlight) : Option (Nat × Word × Anomaly) :=
  f.report (Anomaly.of? f.inst)

/-- What there is to report of its access. -/
def MemWb.refused? (w : MemWb) : Option (Nat × Word × Fault) :=
  w.toInFlight.report w.fault

/-- The record without the time. -/
def AnomalyRecord.report (r : AnomalyRecord) : Nat × Word × Anomaly :=
  (r.id, r.pc, r.anomaly)

/-- The record without the time. -/
def FaultRecord.report (r : FaultRecord) : Nat × Word × Fault :=
  (r.id, r.pc, r.fault)

/-- The instructions that have been decoded, the oldest first. -/
def Latches.pastDecode (l : Latches) : List InFlight :=
  (l.memWb.map (·.toInFlight)).toList ++ (l.exMem.map (·.toInFlight)).toList
    ++ (l.idEx.map (·.toInFlight)).toList

theorem Latches.pastDecode_empty : Latches.empty.pastDecode = [] := rfl

namespace Core

variable {p : Platform} {c c' : Core} {i : Inputs}

theorem along_quiet_succ {α : Type} (f : Core → Inputs → List α) (p : Platform) (c : Core)
    (n : Nat) :
    along f p c (quiet (n + 1)) = along f p c (quiet n) ++ f (c.after p (quiet n)) {} := by
  rw [quiet_succ, along_snoc]

/-- The last of `n + 1` quiet cycles retires what stands in MEM/WB when it
starts. -/
theorem retiredIn_quiet_succ (p : Platform) (c : Core) (n : Nat) :
    c.retiredIn p (quiet (n + 1))
      = c.retiredIn p (quiet n) ++ (c.after p (quiet n)).latches.memWb.toList :=
  along_quiet_succ retiring p c n

/-! ## §2. Anomalies. -/

theorem unknown_of_ok {f : InFlight} {control : Control}
    (h : Control.decode f.inst = .ok control) : f.unknown? = none := by
  unfold Control.decode at h
  unfold InFlight.unknown? Anomaly.of? Performed.anomaly?
  cases hd : Instr.decode f.inst with
  | ok instr => rfl
  | error anomaly =>
      rw [hd] at h
      cases h

/-- What there is to report of a word is why it is not decoded. -/
theorem unknown_of_error {f : InFlight} {anomaly : Anomaly}
    (h : Control.decode f.inst = .error anomaly) : f.unknown? = some (f.id, f.pc, anomaly) := by
  unfold Control.decode at h
  unfold InFlight.unknown? Anomaly.of? Performed.anomaly?
  cases hd : Instr.decode f.inst with
  | ok instr =>
      rw [hd] at h
      cases h
  | error reason =>
      rw [hd] at h
      cases h
      rfl

/-- What decode reports in a cycle is what the instruction it decodes reports by
itself, at no cycle. -/
theorem unknownWord_report (c : Core) (regs : Registers) :
    c.unknownWord.map AnomalyRecord.report
      = ((c.latches.decoded regs).map (·.toInFlight)).toList.filterMap InFlight.unknown? := by
  unfold unknownWord Latches.decoded
  cases c.latches.ifId with
  | none => cases c.latches.waits <;> rfl
  | some f =>
      cases c.latches.waits with
      | true => rfl
      | false =>
          -- the word goes on to ID/EX, whether it is an instruction or not
          simp only [Bool.false_eq_true, if_false]
          show _ = [f].filterMap InFlight.unknown?
          split
          · rename_i hdecode
            rw [List.filterMap_cons_none (unknown_of_ok hdecode)]
            rfl
          · rename_i hdecode
            rw [List.filterMap_cons_some (unknown_of_error hdecode)]
            rfl

/-- Unless there is a transfer, decode delivers what it makes of IF/ID. -/
theorem Front.idEx_of_next (hf : Front p c c') (ht : c.latches.transfer? c.traps = none) :
    c'.latches.idEx = c.latches.decoded c.settled := by
  cases hf with
  | redirect _ transfer | halt _ transfer =>
      rw [ht] at transfer
      cases transfer
  | stopped _ _ _ idEx => exact idEx
  | stall _ _ waits _ idEx => rw [idEx, Latches.decoded, if_pos waits]
  | fetched _ _ _ waits _ _ idEx | starved _ _ _ waits _ _ idEx =>
      rw [idEx, Latches.decoded, if_neg (by rw [waits]; exact Bool.false_ne_true)]

theorem Front.idEx_of_transfer (hf : Front p c c') {t : Transfer}
    (ht : c.latches.transfer? c.traps = some t) : c'.latches.idEx = none := by
  cases hf with
  | redirect _ _ _ idEx | halt _ _ _ idEx => exact idEx
  | stopped transfer | stall transfer | fetched _ transfer | starved _ transfer =>
      rw [ht] at transfer
      cases transfer

/-- **An anomaly is one of what decode delivers.** -/
theorem anomaliesIn_report (p : Platform) (ho : c.Ordinary i) :
    (c.anomaliesIn i).map AnomalyRecord.report
      = ((c.tick p i).latches.idEx.map (·.toInFlight)).toList.filterMap InFlight.unknown? := by
  have hf := (tick_ordinary p ho).front
  cases ht : c.latches.transfer? c.traps with
  | none => rw [anomaliesIn_of_ordinary ho ht, hf.idEx_of_next ht, unknownWord_report]
  | some t =>
      rw [anomaliesIn_of_transfer ht, hf.idEx_of_transfer ht]
      rfl

/-- What has been decoded stays in order, until it retires. -/
theorem Advance.pastDecode_eq (ha : Advance p c c') :
    c.latches.memWb.toList.map (·.toInFlight) ++ c'.latches.pastDecode
      = c.latches.pastDecode ++ (c'.latches.idEx.map (·.toInFlight)).toList := by
  have hmemWb : c'.latches.memWb.map (·.toInFlight) = c.latches.exMem.map (·.toInFlight) := by
    rw [ha.memWb]
    cases c.latches.exMem with
    | none => rfl
    | some x => exact congrArg some ExMem.complete_toInFlight
  have hexMem : c'.latches.exMem.map (·.toInFlight) = c.latches.idEx.map (·.toInFlight) := by
    rw [ha.exMem, Latches.executed]
    cases c.latches.idEx <;> rfl
  unfold Latches.pastDecode
  rw [hmemWb, hexMem]
  cases c.latches.memWb <;> simp

/-- **The anomalies of a quiet run** are those of what has retired and what is
past decode. -/
theorem anomalies_quiet (p : Platform) (c : Core) (n : Nat) :
    c.latches.pastDecode.filterMap InFlight.unknown?
        ++ (c.anomaliesAlong p (quiet n)).map AnomalyRecord.report
      = ((c.retiredIn p (quiet n)).map (·.toInFlight)
          ++ (c.after p (quiet n)).latches.pastDecode).filterMap InFlight.unknown? := by
  induction n with
  | zero => exact List.append_nil _
  | succ n ih =>
      have ho := ordinary_quiet (c.after p (quiet n))
      have hstep := (tick_ordinary p ho).pastDecode_eq
      rw [anomaliesAlong, along_quiet_succ, List.map_append, anomaliesIn_report p ho,
        ← List.append_assoc]
      rw [anomaliesAlong] at ih
      rw [ih, retiredIn_quiet_succ, after_quiet_succ, List.map_append, List.append_assoc, hstep]
      simp only [List.filterMap_append, List.append_assoc]

/-! ## §3. Refused accesses. -/

/-- **A refused access is one of what the memory stage delivers.** -/
theorem accessFaultsIn_report (ho : c.Ordinary i) :
    (c.accessFaultsIn p i).map FaultRecord.report
      = (c.tick p i).latches.memWb.toList.filterMap MemWb.refused? := by
  rw [accessFaultsIn_of_ordinary ho, (tick_ordinary p ho).memWb, refusedAccess]
  cases c.latches.exMem with
  | none => rfl
  | some x =>
      have hsame : (x.complete p.misaligned c.dmem).1.toInFlight = x.toInFlight :=
        ExMem.complete_toInFlight
      show List.map _ ((x.complete p.misaligned c.dmem).1.fault.map _).toList
        = [(x.complete p.misaligned c.dmem).1].filterMap MemWb.refused?
      unfold MemWb.refused?
      rw [List.filterMap_cons, List.filterMap_nil, hsame]
      cases (x.complete p.misaligned c.dmem).1.fault <;> rfl

/-- **The refused accesses of a quiet run** are those of what has retired and
what is past the memory stage. -/
theorem accessFaults_quiet (p : Platform) (c : Core) (n : Nat) :
    c.latches.memWb.toList.filterMap MemWb.refused?
        ++ (along (accessFaultsIn p) p c (quiet n)).map FaultRecord.report
      = (c.retiredIn p (quiet n)
          ++ (c.after p (quiet n)).latches.memWb.toList).filterMap MemWb.refused? := by
  induction n with
  | zero => exact List.append_nil _
  | succ n ih =>
      rw [along_quiet_succ, List.map_append, accessFaultsIn_report (ordinary_quiet _),
        ← List.append_assoc, ih, retiredIn_quiet_succ, after_quiet_succ]
      simp only [List.filterMap_append, List.append_assoc]

end Core

/-! ## §4. What retires is the history. -/

/-- What diagnostics rest on: address, word and refused access. -/
def MemWb.told (w : MemWb) : Word × Word × Option Fault :=
  (w.pc, w.inst, w.fault)

/-- What diagnostics rest on: address, word and refused access. -/
def Performed.told (s : Performed) : Word × Word × Option Fault :=
  (s.pc, s.inst, s.effect.fault)

namespace Core

variable {p : Platform} {c c' : Core}

/-- The next two to retire, as they will. -/
def upcoming (p : Platform) (c : Core) : List MemWb :=
  c.latches.memWb.toList
    ++ (c.latches.exMem.map fun x => (x.complete p.misaligned c.dmem).1).toList

/-- What an instruction in EX/MEM comes to is what the frontier performed. -/
theorem Coherent.told_executed (hc : Coherent p c) (ha : Advance p c c') {e : IdEx}
    (he : c.latches.idEx = some e) :
    ((executed e (c.latches.operands e)).complete p.misaligned c'.dmem).1.told
      = (e.pc, e.inst, ((c.frontier p).effectOf p.misaligned e.inst).fault) := by
  have hx := ha.exMem_of_some he
  have hfault := ((hc.advance ha).completes hx).fault
  have hsame : ((executed e (c.latches.operands e)).complete p.misaligned c'.dmem).1.toInFlight
      = e.toInFlight := ExMem.complete_toInFlight
  unfold MemWb.told
  rw [hfault, ← hc.effect_executed ha he, hsame]
  rfl

/-- One cycle on, the first of the upcoming has retired, and what was executed
has joined them. -/
theorem Coherent.upcoming_tick (hc : Coherent p c) (ha : Advance p c c') :
    (c.latches.memWb.toList ++ c'.upcoming p).map MemWb.told
      = (c.upcoming p).map MemWb.told ++ (c.issuing p).map Performed.told := by
  have hx : (c'.latches.exMem.map fun x => (x.complete p.misaligned c'.dmem).1).toList.map
      MemWb.told = (c.issuing p).map Performed.told := by
    cases he : c.latches.idEx with
    | none =>
        rw [ha.exMem_of_none he, issuing_of_none he]
        rfl
    | some e =>
        rw [ha.exMem_of_some he, issuing_of_some he]
        exact congrArg (fun t => [t]) (hc.told_executed ha he)
  unfold upcoming
  rw [← List.append_assoc, List.map_append, hx, ha.memWb]

/-- **What retires in a quiet run, and will**, is the history of the
frontier. -/
theorem told_quiet (hc : Coherent p c) (hi : c.traps.active = none) (n : Nat) :
    (c.retiredIn p (quiet n) ++ (c.after p (quiet n)).upcoming p).map MemWb.told
      = (c.upcoming p).map MemWb.told
          ++ ((c.frontier p).history p.program p.misaligned (c.issued p n)).map
              Performed.told := by
  induction n with
  | zero => exact (List.append_nil _).symm
  | succ n ih =>
      have ht := tracks_quiet hc hi n
      have hstep := ht.coherent.upcoming_tick (tick_ordinary p (ordinary_quiet _))
      -- what was issued in this cycle is what the history has more
      rw [retiredIn_quiet_succ, after_quiet_succ, List.append_assoc, List.map_append, hstep,
        ← List.append_assoc, ← List.map_append, ih, issued, ht.tick.2.1, List.map_append,
        List.append_assoc]

end Core

/-! ## §5. A run that has finished. -/

/-- What `find` finds of the instructions of a history, with the numbers with
which these retire, and their addresses. -/
def diagnosed {α : Type} (find : Performed → Option α) (records : List Retirement)
    (history : List Performed) : List (Nat × Word × α) :=
  (records.zip history).filterMap fun q => (find q.2).map fun x => (q.1.id, q.2.pc, x)

/-- What can be told of a history can be told of what has retired. -/
theorem diagnosed_of_told {α : Type} (find : Performed → Option α)
    (tell : Word × Word × Option Fault → Option α) (hfind : ∀ s, find s = tell s.told)
    {retired : List MemWb} {history : List Performed}
    (h : retired.map MemWb.told = history.map Performed.told) :
    diagnosed find (retired.map MemWb.retirement) history
      = retired.filterMap fun w => w.toInFlight.report (tell w.told) := by
  induction retired generalizing history with
  | nil => rfl
  | cons w retired ih =>
      cases history with
      | nil => cases h
      | cons s history =>
          obtain ⟨hhead, htail⟩ := List.cons.inj h
          -- what retires and what is performed tell the same, so the same is found in them
          have hpc : w.pc = s.pc := congrArg Prod.fst hhead
          have hone : ((find s).map fun x => (w.retirement.id, s.pc, x))
              = w.toInFlight.report (tell w.told) := by
            rw [hfind, ← hhead, ← hpc]
            rfl
          unfold diagnosed at ih ⊢
          rw [List.map_cons, List.zip_cons_cons, List.filterMap_cons, List.filterMap_cons, hone,
            ih htail]

/-- It is found as often as there are instructions to find it of. -/
theorem length_diagnosed {α : Type} (find : Performed → Option α) {records : List Retirement}
    {history : List Performed} (h : records.length = history.length) :
    (diagnosed find records history).length = history.countP fun s => (find s).isSome := by
  have hsnd : (records.zip history).map Prod.snd = history :=
    List.map_snd_zip (Nat.le_of_eq h.symm)
  calc (diagnosed find records history).length
      = (records.zip history).countP fun q => (find q.2).isSome := by
        unfold diagnosed
        rw [List.length_filterMap_eq_countP]
        simp only [Option.isSome_map]
    _ = ((records.zip history).map Prod.snd).countP fun s => (find s).isSome := by
        rw [List.countP_map]
        rfl
    _ = history.countP fun s => (find s).isSome := by rw [hsnd]

namespace Core

section Drained

variable {p : Platform} {dmem : Ram} {regs : Registers} {n : Nat}

/-- When the pipeline is drained, the whole history has retired. -/
theorem told_drained (hd : ((fresh p dmem regs).after p (quiet n)).drained = true) :
    ((fresh p dmem regs).retiredIn p (quiet n)).map MemWb.told
      = ((p.boot dmem regs).history p.program p.misaligned
          ((fresh p dmem regs).issued p n)).map Performed.told := by
  have htold := told_quiet (coherent_fresh p dmem regs) rfl n
  have hnone : ((fresh p dmem regs).after p (quiet n)).upcoming p = [] := by
    rw [upcoming, latches_of_drained hd]
    rfl
  rw [hnone, List.append_nil, frontier_fresh] at htold
  exact htold

/-- The anomalies are those of the history. -/
theorem anomalies_drained (hd : ((fresh p dmem regs).after p (quiet n)).drained = true) :
    ((fresh p dmem regs).anomaliesAlong p (quiet n)).map AnomalyRecord.report
      = diagnosed Performed.anomaly? ((fresh p dmem regs).retirements p (quiet n))
          ((p.boot dmem regs).history p.program p.misaligned
            ((fresh p dmem regs).issued p n)) := by
  have hfound := anomalies_quiet p (fresh p dmem regs) n
  rw [latches_of_drained hd, Latches.pastDecode_empty, List.append_nil, List.filterMap_map]
    at hfound
  rw [retirements_eq, diagnosed_of_told Performed.anomaly? (fun t => Anomaly.of? t.2.1)
    (fun _ => rfl) (told_drained hd)]
  exact hfound

/-- The refused accesses are those of the history. -/
theorem accessFaults_drained (hd : ((fresh p dmem regs).after p (quiet n)).drained = true) :
    (((fresh p dmem regs).faultsAlong p (quiet n)).filter (!·.ofFetch)).map FaultRecord.report
      = diagnosed (·.effect.fault) ((fresh p dmem regs).retirements p (quiet n))
          ((p.boot dmem regs).history p.program p.misaligned
            ((fresh p dmem regs).issued p n)) := by
  have hfound := accessFaults_quiet p (fresh p dmem regs) n
  rw [latches_of_drained hd, show Latches.empty.memWb.toList = [] from rfl, List.append_nil]
    at hfound
  rw [faultsAlong_ofAccess, retirements_eq, diagnosed_of_told (·.effect.fault) (fun t => t.2.2)
    (fun _ => rfl) (told_drained hd)]
  exact hfound

/-- A simulator that has run to the halt has made so many quiet cycles. -/
theorem core_of_halted {limit : Nat}
    (h : (Simulator.run { platform := p, core := fresh p dmem regs, maxCycles := limit }).outcome
      = .halted n) :
    (Simulator.run { platform := p, core := fresh p dmem regs, maxCycles := limit }).core
        = (fresh p dmem regs).after p (quiet n)
      ∧ ((fresh p dmem regs).after p (quiet n)).finished = true := by
  obtain ⟨seen, last, hruns⟩ := Simulator.exists_runs
    { platform := p, core := fresh p dmem regs, maxCycles := limit }
  rw [hruns.run] at h ⊢
  obtain ⟨hfinished, hcycles⟩ := Simulator.finished_of_outcome h
  have hlength : seen.length = n :=
    (Nat.zero_add _).symm.trans (hruns.cycles.symm.trans hcycles)
  have hcore : last.core = (fresh p dmem regs).after p (quiet n) := by
    rw [hruns.last_eq, hlength]
    rfl
  exact ⟨hcore, hcore ▸ hfinished⟩

/-- The records are those of the history. -/
theorem records_drained (hd : ((fresh p dmem regs).after p (quiet n)).drained = true) :
    ((fresh p dmem regs).retirements p (quiet n)).map Retirement.visible
      = ((p.boot dmem regs).history p.program p.misaligned
          ((fresh p dmem regs).issued p n)).map Performed.visible := by
  have hseen := seen_fresh p dmem regs n
  obtain ⟨hleaving, hfollowing⟩ := pending_of_empty p (latches_of_drained hd)
  rw [hleaving, hfollowing, List.append_nil, List.append_nil] at hseen
  exact hseen

end Drained

/-- **Diagnostics tell what the program did.**  When the simulator has run a
program to its halt, with all lines low, then with the instructions of the
sequential machine up to that halt, which retire in this order,

  * the anomalies counted are the words among these that are no instructions,
    and the log holds the first of them, in order, with address and number;
  * the faults logged are the first of all that were counted, and those of
    these that are not of fetches are, in order, the loads and stores that
    are refused.

And at any time under any schedule, a log holds the first records of all that
were counted, grows at its end only, and is in the order of time. -/
theorem diagnostics_exact (p : Platform) (dmem : Ram) (regs : Registers) :
    (∀ limit n,
        let sim : Simulator :=
          Simulator.run { platform := p, core := fresh p dmem regs, maxCycles := limit }
        sim.outcome = .halted n →
        ∃ k,
          let history := (p.boot dmem regs).history p.program p.misaligned k
          let records := (fresh p dmem regs).retirements p (quiet n)
          let faults := (fresh p dmem regs).faultsAlong p (quiet n)
          sim.core = (fresh p dmem regs).after p (quiet n)
            ∧ history.length = k
            ∧ ((p.boot dmem regs).after p.program p.misaligned k).halted = true
            ∧ records.map Retirement.visible = history.map Performed.visible
            ∧ sim.core.counters.anomalies = history.countP (·.anomaly?.isSome)
            ∧ sim.core.anomalies.map AnomalyRecord.report
                = (diagnosed Performed.anomaly? records history).take recordLimit
            ∧ sim.core.faultLog = .ofRecords faults
            ∧ (faults.filter (!·.ofFetch)).map FaultRecord.report
                = diagnosed (·.effect.fault) records history)
      ∧ ∀ s t,
          Kept AnomalyRecord.cycle ((fresh p dmem regs).after p s).anomalyLog
              ((fresh p dmem regs).after p (s ++ t)).anomalyLog
            ∧ Kept FaultRecord.cycle ((fresh p dmem regs).after p s).faultLog
              ((fresh p dmem regs).after p (s ++ t)).faultLog := by
  refine ⟨?_, logs_kept p dmem regs⟩
  intro limit n sim houtcome
  obtain ⟨hcore, hfinished⟩ := core_of_halted houtcome
  obtain ⟨hhalted, hdrained⟩ := Bool.and_eq_true_iff.mp hfinished
  have ht := tracks_fresh p dmem regs n
  obtain ⟨hanomalies, hfaults⟩ := logs_fresh p dmem regs (quiet n)
  have hvisible := records_drained hdrained
  have hfound := anomalies_drained hdrained
  -- every record has an instruction of the history to it
  have hlength := congrArg List.length hvisible
  rw [List.length_map, List.length_map] at hlength
  refine ⟨_, hcore, ht.full, ?_, hvisible, ?_, ?_, hcore ▸ hfaults, accessFaults_drained hdrained⟩
  · rw [← ht.frontier, ht.coherent.front.2]
    exact hhalted
  · have hcount : sim.core.counters.anomalies
        = ((fresh p dmem regs).anomaliesAlong p (quiet n)).length :=
      hcore ▸ congrArg Log.count hanomalies
    rw [hcount, ← length_diagnosed Performed.anomaly? hlength, ← hfound, List.length_map]
  · have hkept : sim.core.anomalies
        = ((fresh p dmem regs).anomaliesAlong p (quiet n)).take recordLimit :=
      hcore ▸ congrArg Log.kept hanomalies
    rw [hkept, ← hfound, List.map_take]

/-- A program with a word that is no instruction and a load that is refused,
which jumps over another such word to its halt. -/
def faulty : Platform where
  program := .rom ⟨#[0, (Instr.load .lw 1 0 100).encode, (Instr.jal 0 4).encode, 0,
    Encode.halt], 5⟩
  misaligned := .fault
  resetVector := 0
  interrupts := {}
  traceInstructions := false

/-- Only the word on the way is reported. -/
theorem diagnostics_exact_faulty :
    ∃ sim : Simulator,
      sim = Simulator.run
        { platform := faulty, core := fresh faulty ⟨0, 8, {}⟩ .zero, maxCycles := 20 }
      ∧ sim.outcome = .halted 10
      ∧ sim.core.counters.anomalies = 1
      ∧ ∃ k, sim.core.counters.anomalies
            = ((faulty.boot ⟨0, 8, {}⟩ .zero).history faulty.program faulty.misaligned
                k).countP (·.anomaly?.isSome)
          ∧ sim.core.faultLog
            = .ofRecords ((fresh faulty ⟨0, 8, {}⟩ .zero).faultsAlong faulty (quiet 10)) := by
  have houtcome : (Simulator.run
      { platform := faulty, core := fresh faulty ⟨0, 8, {}⟩ .zero, maxCycles := 20 }).outcome
      = .halted 10 := by decide +kernel
  obtain ⟨k, -, -, -, -, hcount, -, hfaults, -⟩ :=
    (diagnostics_exact faulty ⟨0, 8, {}⟩ .zero).1 20 10 houtcome
  exact ⟨_, rfl, houtcome, by decide +kernel, k, hcount, hfaults⟩

end Core

end FiveStage
