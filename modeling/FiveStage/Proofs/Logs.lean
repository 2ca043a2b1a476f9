/-
  FiveStage.Proofs.Logs
  ─────────────────────
  **WHAT THE CORE WRITES INTO ITS LOGS.**

  The core has a log of anomalies and one of faults.  Each counts all that
  happens and keeps the first records only.  Beside it stands the log without
  a limit, gathered along the course of a run:

      anomaliesIn    the word that decode finds to be no instruction
      faultsIn       the access that is refused in the memory stage, and the
                     refused fetch, unless it was reported before

  A cycle notes these and nothing else, so a log is at any time the first
  records of all there were, in the order of time, and its counter their
  number.
-/
import FiveStage.Core.Elapsed
import FiveStage.Proofs.ByteAccess
import FiveStage.Proofs.Counting
import FiveStage.Proofs.Course

namespace FiveStage

/-! ## §1. Bounded logs. -/

/-- A log that keeps its first records and counts them all. -/
structure Log (α : Type) where
  /-- The first records, the oldest first. -/
  kept : List α
  /-- Number of all records. -/
  count : Nat

namespace Log

variable {α : Type}

/-- The log once these records are noted. -/
def note (l : Log α) (records : List α) : Log α :=
  ⟨records.foldl keepRecord l.kept, l.count + records.length⟩

/-- The log of these records, and no others. -/
def ofRecords (records : List α) : Log α :=
  ⟨records.take recordLimit, records.length⟩

@[simp] theorem note_nil (l : Log α) : l.note [] = l := rfl

/-- Noting two lists in turn is noting them together. -/
theorem note_append (l : Log α) (a b : List α) : l.note (a ++ b) = (l.note a).note b := by
  unfold note
  rw [List.foldl_append, List.length_append, Nat.add_assoc]

/-- What is kept of a longer log is what was kept, and the next record while
there is room. -/
theorem keepRecord_take (l : List α) (r : α) :
    keepRecord (l.take recordLimit) r = (l ++ [r]).take recordLimit := by
  unfold keepRecord
  rw [List.length_take]
  rcases Nat.lt_or_ge l.length recordLimit with hlt | hge
  · rw [if_pos (by omega), List.take_of_length_le (Nat.le_of_lt hlt), List.take_of_length_le]
    rw [List.length_append]
    exact hlt
  · rw [if_neg (by omega), List.take_append_of_le_length hge]

theorem note_ofRecords (a b : List α) : (ofRecords a).note b = ofRecords (a ++ b) := by
  induction b generalizing a with
  | nil => rw [note_nil, List.append_nil]
  | cons r b ih =>
      have hone : (ofRecords a).note [r] = ofRecords (a ++ [r]) := by
        unfold note ofRecords
        rw [List.length_append]
        exact congrArg (Log.mk · _) (keepRecord_take a r)
      rw [show r :: b = [r] ++ b from rfl, note_append, hone, ih, List.append_assoc]

end Log

/-! ## §2. What a cycle finds. -/

namespace Core

variable {p : Platform} {c : Core} {i : Inputs}

/-- The log of anomalies. -/
def anomalyLog (c : Core) : Log AnomalyRecord :=
  ⟨c.anomalies, c.counters.anomalies⟩

/-- The log of faults. -/
def faultLog (c : Core) : Log FaultRecord :=
  ⟨c.faults, c.counters.faults⟩

/-- The access of the instruction in EX/MEM, if it is refused. -/
def refusedAccess (p : Platform) (c : Core) : List FaultRecord :=
  (c.latches.exMem.bind fun x =>
    (x.complete p.misaligned c.dmem).1.fault.map fun fault =>
      ⟨c.counters.cycles, x.id, x.pc, fault⟩).toList

/-- The fetch at the PC, if it is refused and that was not reported before. -/
def refusedFetch (p : Platform) (c : Core) : List FaultRecord :=
  match p.program.fetch c.pc with
  | .ok _ => []
  | .error fault =>
      if c.reportedFetch = some c.pc then [] else [⟨c.counters.cycles, 0, c.pc, fault⟩]

/-- The word in IF/ID, if it is no instruction and does not wait. -/
def unknownWord (c : Core) : List AnomalyRecord :=
  match c.latches.ifId with
  | none => []
  | some f =>
      if c.latches.waits then []
      else match Control.decode f.inst with
        | .ok _ => []
        | .error anomaly => [⟨c.counters.cycles, f.id, f.pc, anomaly⟩]

/-- Fetch is at work in this cycle, if it is an ordinary one. -/
def fetching (c : Core) : Bool :=
  (c.latches.transfer? c.traps).isNone && !c.halted && !c.latches.waits

instance : Decidable (c.Ordinary i) :=
  inferInstanceAs (Decidable (_ ∧ _))

/-- A reset cycle is not an ordinary one. -/
theorem not_ordinary_of_reset (hr : i.reset = true) : ¬ c.Ordinary i := by
  intro h
  rw [h.1] at hr
  cases hr

/-- The cycle that accepts an interrupt is not an ordinary one. -/
theorem not_ordinary_of_accepts {cause : InterruptCause} (hi : c.Accepts i cause) :
    ¬ c.Ordinary i := by
  intro h
  have hnone := h.2
  rw [hi.2] at hnone
  cases hnone

/-- The anomalies that a cycle finds: decode stands still for a transfer. -/
def anomaliesIn (c : Core) (i : Inputs) : List AnomalyRecord :=
  if c.Ordinary i ∧ (c.latches.transfer? c.traps).isNone then c.unknownWord else []

/-- The refused access that a cycle finds. -/
def accessFaultsIn (p : Platform) (c : Core) (i : Inputs) : List FaultRecord :=
  if c.Ordinary i then c.refusedAccess p else []

/-- The refused fetch that a cycle finds. -/
def fetchFaultsIn (p : Platform) (c : Core) (i : Inputs) : List FaultRecord :=
  if c.Ordinary i ∧ c.fetching then c.refusedFetch p else []

/-- The faults that a cycle finds, in the order of the stages. -/
def faultsIn (p : Platform) (c : Core) (i : Inputs) : List FaultRecord :=
  c.accessFaultsIn p i ++ c.fetchFaultsIn p i

theorem accessFaultsIn_of_ordinary (h : c.Ordinary i) :
    c.accessFaultsIn p i = c.refusedAccess p :=
  if_pos h

theorem fetchFaultsIn_of_ordinary (h : c.Ordinary i) :
    c.fetchFaultsIn p i = if c.fetching then c.refusedFetch p else [] := by
  unfold fetchFaultsIn
  simp only [h, true_and]

/-- A reset or an interrupt logs no fault. -/
theorem faultsIn_of_not (h : ¬ c.Ordinary i) : c.faultsIn p i = [] := by
  unfold faultsIn accessFaultsIn fetchFaultsIn
  rw [if_neg h, if_neg fun hboth => h hboth.1]
  rfl

theorem anomaliesIn_of_not (h : ¬ c.Ordinary i) : c.anomaliesIn i = [] :=
  if_neg fun hboth => h hboth.1

/-- A taken transfer logs no anomaly: what stood in IF/ID is squashed, not
decoded. -/
theorem anomaliesIn_of_transfer {t : Transfer} (ht : c.latches.transfer? c.traps = some t) :
    c.anomaliesIn i = [] := by
  unfold anomaliesIn
  rw [ht]
  exact if_neg fun h => by cases h.2

/-- An ordinary cycle without a transfer logs the word that decode does not
know, if there is one. -/
theorem anomaliesIn_of_ordinary (h : c.Ordinary i)
    (ht : c.latches.transfer? c.traps = none) : c.anomaliesIn i = c.unknownWord :=
  if_pos ⟨h, by rw [ht]; rfl⟩

/-- What an anomaly record says: the cycle, and the instruction in IF/ID that
does not decode. -/
theorem eq_of_mem_anomaliesIn {r : AnomalyRecord} (hr : r ∈ c.anomaliesIn i) :
    ∃ f anomaly, r = ⟨c.counters.cycles, f.id, f.pc, anomaly⟩
      ∧ c.latches.ifId = some f ∧ Control.decode f.inst = .error anomaly := by
  unfold anomaliesIn unknownWord at hr
  split at hr
  · split at hr
    · cases hr
    · rename_i f hf
      split at hr
      · cases hr
      · split at hr
        · cases hr
        · rename_i anomaly hdecode
          exact ⟨f, anomaly, List.mem_singleton.mp hr, hf, hdecode⟩
  · cases hr

/-- What a data fault record says: the cycle, and the instruction in EX/MEM
whose access faults. -/
theorem eq_of_mem_accessFaultsIn {r : FaultRecord} (hr : r ∈ c.accessFaultsIn p i) :
    ∃ x fault, r = ⟨c.counters.cycles, x.id, x.pc, fault⟩
      ∧ c.latches.exMem = some x ∧ (x.complete p.misaligned c.dmem).1.fault = some fault := by
  unfold accessFaultsIn refusedAccess at hr
  split at hr
  · obtain ⟨x, hx, hrecord⟩ := Option.bind_eq_some_iff.mp (Option.mem_toList.mp hr)
    obtain ⟨fault, hfault, rfl⟩ := Option.map_eq_some_iff.mp hrecord
    exact ⟨x, fault, rfl, hx, hfault⟩
  · cases hr

/-- What a fetch fault record says: the cycle and the address; it names no
instruction. -/
theorem eq_of_mem_fetchFaultsIn {r : FaultRecord} (hr : r ∈ c.fetchFaultsIn p i) :
    ∃ fault, r = ⟨c.counters.cycles, 0, c.pc, fault⟩ ∧ p.program.fetch c.pc = .error fault := by
  unfold fetchFaultsIn refusedFetch at hr
  split at hr
  · split at hr
    · cases hr
    · rename_i fault hfault
      split at hr
      · cases hr
      · exact ⟨fault, List.mem_singleton.mp hr, hfault⟩
  · cases hr

/-! ## §3. Stage by stage. -/

/-- Retiring logs nothing. -/
theorem logs_retired (c : Core) :
    c.retired.anomalyLog = c.anomalyLog ∧ c.retired.faultLog = c.faultLog := by
  unfold retired writeback
  cases c.latches.memWb with
  | none => exact ⟨rfl, rfl⟩
  | some w =>
      unfold anomalyLog faultLog
      show (⟨_, (c.counters.retire w.control.cls).anomalies⟩ : Log _) = _
        ∧ (⟨_, (c.counters.retire w.control.cls).faults⟩ : Log _) = _
      cases w.control.cls <;> exact ⟨rfl, rfl⟩

/-- The memory stage notes the access that it refuses. -/
theorem logs_access (p : Platform) (c : Core) :
    (c.access p).core.anomalyLog = c.anomalyLog
      ∧ (c.access p).core.faultLog = c.faultLog.note (c.refusedAccess p) := by
  unfold access refusedAccess
  cases hx : c.latches.exMem with
  | none => exact ⟨rfl, rfl⟩
  | some x =>
      unfold ExMem.complete
      cases hk : x.control.cls with
      | load =>
          simp only [hk, Option.bind_some]
          rcases (LoadStore.load p.misaligned x.result x.control.width x.control.signedLoad :
            Transaction Ram Word).perform c.dmem with ⟨fault | v, dmem⟩ <;> exact ⟨rfl, rfl⟩
      | store =>
          simp only [hk, Option.bind_some]
          rcases (LoadStore.store p.misaligned x.result x.control.width x.storeData :
            Transaction Ram Unit).perform c.dmem with ⟨fault | v, dmem⟩ <;> exact ⟨rfl, rfl⟩
      | regReg | regImm | lui | auipc | branch | jal | jalr | halt | mret | illegal =>
          simp only [hk, Option.bind_some]
          exact ⟨trivial, rfl⟩

theorem logs_execute (c : Core) :
    c.execute.core.anomalyLog = c.anomalyLog ∧ c.execute.core.faultLog = c.faultLog := by
  unfold execute
  cases c.latches.idEx <;> exact ⟨rfl, rfl⟩

/-- Decode notes the word that is no instruction. -/
theorem logs_decode (c : Core) :
    c.decode.core.anomalyLog = c.anomalyLog.note c.unknownWord
      ∧ c.decode.core.faultLog = c.faultLog := by
  unfold decode unknownWord Latches.waits
  cases c.latches.ifId with
  | none => exact ⟨rfl, rfl⟩
  | some f =>
      cases hw : loadUse c.latches.idEx (Control.ofWord f.inst) with
      | true => simp only [Option.any_some, hw, if_true]; exact ⟨rfl, rfl⟩
      | false =>
          simp only [Option.any_some, hw, Bool.false_eq_true, if_false]
          cases Control.decode f.inst <;> exact ⟨rfl, rfl⟩

/-- Fetch notes the refused fetch that was not reported before. -/
theorem logs_fetchNext (p : Platform) (c : Core) (stall : Bool) :
    (c.fetchNext p stall).core.anomalyLog = c.anomalyLog
      ∧ (c.fetchNext p stall).core.faultLog
          = c.faultLog.note (if !c.halted && !stall then c.refusedFetch p else []) := by
  unfold fetchNext
  cases c.halted <;> cases stall <;> try exact ⟨rfl, rfl⟩
  -- what is left is a core that fetches
  show (c.fetch p).core.anomalyLog = _
    ∧ (c.fetch p).core.faultLog = c.faultLog.note (c.refusedFetch p)
  unfold fetch refusedFetch
  cases p.program.fetch c.pc with
  | ok inst => exact ⟨rfl, rfl⟩
  | error fault =>
      dsimp only
      by_cases hr : c.reportedFetch = some c.pc
      · rw [if_pos hr, if_pos hr]
        exact ⟨rfl, rfl⟩
      · rw [if_neg hr, if_neg hr]
        exact ⟨rfl, rfl⟩

/-! ## §4. The cycle. -/

/-- What the stages look at is the same wherever these are. -/
theorem refusedFetch_congr {d : Core} (hcycles : d.counters.cycles = c.counters.cycles)
    (hpc : d.pc = c.pc) (hreported : d.reportedFetch = c.reportedFetch) :
    d.refusedFetch p = c.refusedFetch p := by
  unfold refusedFetch
  rw [hcycles, hpc, hreported]

theorem unknownWord_congr {d : Core} (hcycles : d.counters.cycles = c.counters.cycles)
    (hlatches : d.latches = c.latches) : d.unknownWord = c.unknownWord := by
  unfold unknownWord
  rw [hcycles, hlatches]

/-- With a taken transfer only the access in EX/MEM can be logged. -/
theorem logs_flow_transfer (p : Platform) {t : Transfer}
    (ht : c.latches.transfer? c.traps = some t) :
    (c.flow p).core.anomalyLog = c.anomalyLog
      ∧ (c.flow p).core.faultLog = c.faultLog.note (c.refusedAccess p) := by
  obtain ⟨ha, hf⟩ := logs_access p c
  obtain ⟨hxa, hxf⟩ := logs_execute (c.access p).core
  rw [flow_transfer p ht, ← hf, ← ha, ← hxf, ← hxa]
  cases t <;> exact ⟨rfl, rfl⟩

/-- Without a transfer the logs grow by the unknown word, the refused access and
the refused fetch. -/
theorem logs_flow_next (p : Platform) (ht : c.latches.transfer? c.traps = none) :
    (c.flow p).core.anomalyLog = c.anomalyLog.note c.unknownWord
      ∧ (c.flow p).core.faultLog
          = c.faultLog.note (c.refusedAccess p ++ if c.fetching then c.refusedFetch p else []) := by
  obtain ⟨ha, hf⟩ := logs_access p c
  obtain ⟨hxa, hxf⟩ := logs_execute (c.access p).core
  obtain ⟨hda, hdf⟩ := logs_decode (c.access p).core.execute.core
  have hword : (c.access p).core.execute.core.unknownWord = c.unknownWord :=
    unknownWord_congr ((cycles_execute _).trans (cycles_access p c)) (by simp)
  rw [flow_next p ht]
  -- the core as fetch finds it
  generalize hd : (c.access p).core.execute.core.decode.core = d at hda hdf
  have hfetch : d.refusedFetch p = c.refusedFetch p := by
    refine refusedFetch_congr ?_ (by simp [← hd]) (by simp [← hd])
    rw [← hd]
    exact (cycles_decode _).trans ((cycles_execute _).trans (cycles_access p c))
  have hhalted : d.halted = c.halted := by simp [← hd]
  obtain ⟨hna, hnf⟩ := logs_fetchNext p d c.latches.waits
  have hfetching : c.fetching = (!c.halted && !c.latches.waits) := by
    unfold fetching
    rw [ht]
    rfl
  rw [hda, hxa, ha, hword] at hna
  rw [hdf, hxf, hf, hfetch, hhalted, ← hfetching] at hnf
  exact ⟨hna, hnf.trans (Log.note_append _ _ _).symm⟩

/-- **A cycle notes what it finds**, and nothing else. -/
theorem logs_tick (p : Platform) (c : Core) (i : Inputs) :
    (c.tick p i).anomalyLog = c.anomalyLog.note (c.anomaliesIn i)
      ∧ (c.tick p i).faultLog = c.faultLog.note (c.faultsIn p i) := by
  rcases cycle_cases c i with hr | ⟨cause, hi⟩ | ho
  · -- under reset nothing is found
    have hno : ¬ c.Ordinary i := not_ordinary_of_reset hr
    rw [tick_reset p c hr, anomaliesIn_of_not hno, faultsIn_of_not hno]
    exact ⟨rfl, rfl⟩
  · -- a cycle that accepts an interrupt only retires
    have hno : ¬ c.Ordinary i := not_ordinary_of_accepts hi
    obtain ⟨ha, hf⟩ := logs_retired c
    rw [anomaliesIn_of_not hno, faultsIn_of_not hno, Log.note_nil, Log.note_nil, ← ha, ← hf]
    unfold tick cycle
    rw [if_neg (by simp [hi.1])]
    simp only [hi.2]
    exact ⟨rfl, rfl⟩
  · -- writeback goes first, and what is found does not depend on it
    obtain ⟨ha, hf⟩ := logs_retired c
    have hcycles : c.retired.counters.cycles = c.counters.cycles := cycles_writeback c
    have haccess : c.retired.refusedAccess p = c.refusedAccess p := by
      unfold refusedAccess
      simp only [retired_frame, hcycles]
    have hfetch : c.retired.refusedFetch p = c.refusedFetch p :=
      refusedFetch_congr hcycles (by simp) (by simp)
    have hword : c.retired.unknownWord = c.unknownWord := unknownWord_congr hcycles (by simp)
    have hfetching : c.retired.fetching = c.fetching := by
      unfold fetching
      simp only [retired_frame]
    rw [tick_flow p ho, faultsIn, accessFaultsIn_of_ordinary ho, fetchFaultsIn_of_ordinary ho]
    cases ht : c.latches.transfer? c.traps with
    | some t =>
        -- decode and fetch are idle behind a taken transfer
        have hno : c.fetching = false := by
          unfold fetching
          rw [ht]
          rfl
        obtain ⟨hfa, hff⟩ := logs_flow_transfer p (c := c.retired) (t := t) (by simpa using ht)
        rw [anomaliesIn_of_transfer ht, hno, ← ha, ← hf, ← haccess]
        exact ⟨hfa, by rw [if_neg Bool.false_ne_true, List.append_nil]; exact hff⟩
    | none =>
        obtain ⟨hfa, hff⟩ := logs_flow_next p (c := c.retired) (by simpa using ht)
        rw [anomaliesIn_of_ordinary ho ht, ← ha, ← hf, ← hword, ← haccess, ← hfetch, ← hfetching]
        exact ⟨hfa, hff⟩

/-! ## §5. Along a run. -/

/-- All anomalies of a run. -/
def anomaliesAlong (p : Platform) (c : Core) (s : List Inputs) : List AnomalyRecord :=
  along anomaliesIn p c s

/-- All faults of a run. -/
def faultsAlong (p : Platform) (c : Core) (s : List Inputs) : List FaultRecord :=
  along (faultsIn p) p c s

/-- **A run notes what its cycles find.** -/
theorem logs_after (p : Platform) (c : Core) (s : List Inputs) :
    (c.after p s).anomalyLog = c.anomalyLog.note (c.anomaliesAlong p s)
      ∧ (c.after p s).faultLog = c.faultLog.note (c.faultsAlong p s) := by
  induction s using List.reverseRecOn with
  | nil => exact ⟨rfl, rfl⟩
  | append_singleton s i ih =>
      obtain ⟨ha, hf⟩ := logs_tick p (c.after p s) i
      rw [after_snoc, ha, hf, ih.1, ih.2, ← Log.note_append, ← Log.note_append]
      unfold anomaliesAlong faultsAlong
      rw [along_snoc, along_snoc]
      exact ⟨rfl, rfl⟩

/-- The logs of a run from the first cycle on: the first records of all there
were, and their number. -/
theorem logs_fresh (p : Platform) (dmem : Ram) (regs : Registers) (s : List Inputs) :
    ((fresh p dmem regs).after p s).anomalyLog
        = .ofRecords ((fresh p dmem regs).anomaliesAlong p s)
      ∧ ((fresh p dmem regs).after p s).faultLog
        = .ofRecords ((fresh p dmem regs).faultsAlong p s) := by
  obtain ⟨ha, hf⟩ := logs_after p (fresh p dmem regs) s
  exact ⟨ha.trans (Log.note_ofRecords [] _), hf.trans (Log.note_ofRecords [] _)⟩

end Core

/-! ## §6. The logs at any time. -/

theorem prefix_keepRecord {α : Type} (l : List α) (r : α) : l <+: keepRecord l r := by
  unfold keepRecord
  split
  · exact List.prefix_append l [r]
  · exact List.prefix_refl l

/-- A log grows at its end only. -/
theorem Log.prefix_note {α : Type} (l : Log α) (records : List α) :
    l.kept <+: (l.note records).kept := by
  induction records generalizing l with
  | nil => exact List.prefix_refl _
  | cons r records ih =>
      exact (prefix_keepRecord l.kept r).trans (ih ⟨keepRecord l.kept r, l.count⟩)

namespace Core

variable {p : Platform}

/-- Records that are stamped with the time are found in the order of their
stamps. -/
theorem stamps_along {α : Type} {f : Core → Inputs → List α} {stamp : α → Nat}
    (hf : ∀ c i, ∀ r ∈ f c i, stamp r = c.counters.cycles) (p : Platform) (c : Core)
    (s : List Inputs) :
    (along f p c s).Pairwise (stamp · ≤ stamp ·)
      ∧ ∀ r ∈ along f p c s, stamp r ≤ (c.after p s).counters.cycles := by
  induction s using List.reverseRecOn with
  | nil => exact ⟨.nil, fun r hr => by cases hr⟩
  | append_singleton s i ih =>
      obtain ⟨hordered, hle⟩ := ih
      -- the last cycle stamps its own number, which no earlier stamp exceeds
      have hlast := hf (c.after p s) i
      rw [along_snoc, after_snoc, cycles_tick]
      constructor
      · refine List.pairwise_append.mpr ⟨hordered, ?_, ?_⟩
        · refine List.pairwise_of_forall_mem_list fun a ha b hb => ?_
          exact Nat.le_of_eq ((hlast a ha).trans (hlast b hb).symm)
        · intro a ha b hb
          rw [hlast b hb]
          exact hle a ha
      · intro r hr
        rcases List.mem_append.mp hr with hr | hr
        · exact Nat.le_succ_of_le (hle r hr)
        · rw [hlast r hr]
          exact Nat.le_succ _

/-- An anomaly is stamped with the cycle it is found in. -/
theorem cycle_of_anomaly (c : Core) (i : Inputs) :
    ∀ r ∈ c.anomaliesIn i, r.cycle = c.counters.cycles := by
  intro r hr
  obtain ⟨f, anomaly, rfl, -⟩ := eq_of_mem_anomaliesIn hr
  rfl

theorem cycle_of_fault (p : Platform) (c : Core) (i : Inputs) :
    ∀ r ∈ c.faultsIn p i, r.cycle = c.counters.cycles := by
  intro r hr
  rcases List.mem_append.mp hr with hr | hr
  · obtain ⟨x, fault, rfl, -⟩ := eq_of_mem_accessFaultsIn hr
    rfl
  · obtain ⟨fault, rfl, -⟩ := eq_of_mem_fetchFaultsIn hr
    rfl

/-- A log holds the first records there were, and grows at its end, and its
stamps are in order. -/
structure Kept {α : Type} (stamp : α → Nat) (before now : Log α) : Prop where
  /-- All there were, or as many as there is room for. -/
  length : now.kept.length = min recordLimit now.count
  /-- What was there before is at the beginning. -/
  grows : before.kept <+: now.kept
  /-- Nothing has an earlier stamp than what stands before it. -/
  ordered : now.kept.Pairwise (stamp · ≤ stamp ·)

theorem kept_ofRecords {α : Type} {stamp : α → Nat} {before : Log α} {records : List α}
    (hgrows : before.kept <+: (Log.ofRecords records).kept)
    (hordered : records.Pairwise (stamp · ≤ stamp ·)) :
    Kept stamp before (.ofRecords records) :=
  ⟨List.length_take, hgrows, hordered.sublist (List.take_sublist _ _)⟩

/-- **The logs are kept in order**, under any schedule. -/
theorem logs_kept (p : Platform) (dmem : Ram) (regs : Registers) (s t : List Inputs) :
    Kept AnomalyRecord.cycle ((fresh p dmem regs).after p s).anomalyLog
        ((fresh p dmem regs).after p (s ++ t)).anomalyLog
      ∧ Kept FaultRecord.cycle ((fresh p dmem regs).after p s).faultLog
        ((fresh p dmem regs).after p (s ++ t)).faultLog := by
  obtain ⟨ha, hf⟩ := logs_after p ((fresh p dmem regs).after p s) t
  obtain ⟨hall, hallf⟩ := logs_fresh p dmem regs (s ++ t)
  have hgrows := ha ▸ Log.prefix_note _ _
  have hgrowsf := hf ▸ Log.prefix_note _ _
  rw [← after_append] at hgrows hgrowsf
  rw [hall] at hgrows ⊢
  rw [hallf] at hgrowsf ⊢
  exact ⟨kept_ofRecords hgrows (stamps_along cycle_of_anomaly p _ _).1,
    kept_ofRecords hgrowsf (stamps_along (cycle_of_fault p) p _ _).1⟩

end Core

/-! ## §7. Which faults are whose. -/

namespace Transaction

variable {σ α β : Type} {kind : AccessKind}

/-- What the transaction may be refused with is the fault of an access of this
kind. -/
def RefusedAs (kind : AccessKind) (t : Transaction σ α) : Prop :=
  ∀ m fault, (t.perform m).1 = .error fault → fault.access.kind = kind

theorem refusedAs_pure (a : α) : RefusedAs kind (pure a : Transaction σ α) := by
  intro m fault h
  cases h

theorem refusedAs_throw {fault : Fault} (h : fault.access.kind = kind) :
    RefusedAs kind (throw fault : Transaction σ α) := by
  intro m fault' h'
  cases h'
  exact h

/-- A sequence of accesses of one kind is refused as that kind. -/
theorem refusedAs_bind {t : Transaction σ α} {f : α → Transaction σ β}
    (ht : RefusedAs kind t) (hf : ∀ a, RefusedAs kind (f a)) : RefusedAs kind (t >>= f) := by
  intro m fault h
  rw [perform_bind] at h
  rcases hm : t.perform m with ⟨refusal | a, m'⟩
  · rw [hm] at h
    cases h
    exact ht m fault (congrArg Prod.fst hm)
  · rw [hm] at h
    exact hf a m' fault h

theorem refusedAs_foldlM (f : β → α → Transaction σ β) (hf : ∀ b a, RefusedAs kind (f b a)) :
    ∀ (l : List α) (b : β), RefusedAs kind (l.foldlM f b)
  | [], b => refusedAs_pure b
  | a :: l, b => by
      rw [List.foldlM_cons]
      exact refusedAs_bind (hf b a) (fun b' => refusedAs_foldlM f hf l b')

end Transaction

open Transaction

namespace LoadStore

theorem refusedAs_read (addr : Word) (width : Width) :
    RefusedAs .read (DataMemory.read addr width : Transaction Ram Word) := by
  intro ram fault h
  have h : ram.read addr width = .error fault := h
  unfold Ram.read at h
  split at h <;> cases h
  rfl

/-- A load is refused as a read. -/
theorem refusedAs_load (policy : AlignmentPolicy) (addr : Word) (width : Width)
    (signed : Bool) :
    RefusedAs .read (load policy addr width signed : Transaction Ram Word) := by
  have hi := issued policy .read addr width
  unfold load
  generalize issue policy .read addr width = issue at hi
  cases hi with
  | refused => exact refusedAs_throw rfl
  | whole => exact refusedAs_bind (refusedAs_read _ _) (fun _ => refusedAs_pure _)
  | bytewise =>
      refine refusedAs_bind (refusedAs_foldlM _ ?_ _ _) (fun _ => refusedAs_pure _)
      intro acc i
      exact refusedAs_bind (refusedAs_read _ _) (fun _ => refusedAs_pure _)

/-- A store is refused as a write. -/
theorem refusedAs_store (policy : AlignmentPolicy) (addr : Word) (width : Width) (v : Word) :
    RefusedAs .write (store policy addr width v : Transaction Ram Unit) := by
  intro ram fault h
  rw [perform_store] at h
  split at h <;> cases h
  unfold storeFault
  split <;> rfl

end LoadStore

/-- The memory stage refuses loads and stores, and nothing else. -/
theorem ExMem.kind_of_fault {policy : AlignmentPolicy} {dmem : Ram} {x : ExMem} {fault : Fault}
    (h : (x.complete policy dmem).1.fault = some fault) : fault.access.kind ≠ .fetch := by
  unfold complete at h
  split at h
  · split at h
    · cases h
    · rename_i hl
      cases h
      rw [LoadStore.refusedAs_load _ _ _ _ _ _ hl]
      simp
  · split at h
    · cases h
    · rename_i hs
      cases h
      rw [LoadStore.refusedAs_store _ _ _ _ _ _ (congrArg Prod.fst hs)]
      simp
  all_goals cases h

/-- A fault of the program memory is a fetch fault. -/
theorem ProgramMemory.kind_of_fault {program : ProgramMemory} {pc : Word} {fault : Fault}
    (h : program.fetch pc = .error fault) : fault.access.kind = .fetch := by
  cases program with
  | tied w => cases h
  | rom r =>
      have h : r.fetch pc = .error fault := h
      unfold Rom.fetch at h
      split at h
      · cases hw : r.word? (pc.toNat / 4) <;> rw [hw] at h <;> cases h
        rfl
      · cases h
        rfl

/-- It is a fetch that was refused. -/
def FaultRecord.ofFetch (r : FaultRecord) : Bool :=
  r.fault.access.kind == .fetch

namespace Core

variable {p : Platform} {c : Core} {i : Inputs}

/-- A refused data access is not recorded as a fetch. -/
theorem not_ofFetch_of_mem {r : FaultRecord} (hr : r ∈ c.accessFaultsIn p i) :
    r.ofFetch = false := by
  obtain ⟨x, fault, rfl, -, hfault⟩ := eq_of_mem_accessFaultsIn hr
  exact beq_false_of_ne (ExMem.kind_of_fault hfault)

theorem ofFetch_of_mem {r : FaultRecord} (hr : r ∈ c.fetchFaultsIn p i) : r.ofFetch = true := by
  obtain ⟨fault, rfl, hfault⟩ := eq_of_mem_fetchFaultsIn hr
  exact beq_of_eq (ProgramMemory.kind_of_fault hfault)

/-- The faults of a run that are of fetches. -/
theorem faultsAlong_ofFetch (p : Platform) (c : Core) (s : List Inputs) :
    (c.faultsAlong p s).filter (·.ofFetch) = along (fetchFaultsIn p) p c s := by
  unfold faultsAlong along
  rw [List.filter_flatMap]
  congr 1
  funext q
  rw [faultsIn, List.filter_append,
    List.filter_eq_nil_iff.mpr fun r hr => by rw [not_ofFetch_of_mem hr]; exact Bool.false_ne_true,
    List.filter_eq_self.mpr fun r hr => ofFetch_of_mem hr]
  rfl

/-- The faults of a run that are of loads and stores. -/
theorem faultsAlong_ofAccess (p : Platform) (c : Core) (s : List Inputs) :
    (c.faultsAlong p s).filter (!·.ofFetch) = along (accessFaultsIn p) p c s := by
  unfold faultsAlong along
  rw [List.filter_flatMap]
  congr 1
  funext q
  rw [faultsIn, List.filter_append,
    List.filter_eq_self.mpr fun r hr => by rw [not_ofFetch_of_mem hr]; rfl,
    List.filter_eq_nil_iff.mpr fun r hr => by rw [ofFetch_of_mem hr]; exact Bool.false_ne_true,
    List.append_nil]

end Core

end FiveStage
