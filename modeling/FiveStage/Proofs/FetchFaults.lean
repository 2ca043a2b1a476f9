/-
  FiveStage.Proofs.FetchFaults
  ────────────────────────────
  **FETCH FAULTS HOLD THE PC, AND ARE REPORTED SPARINGLY.**

  Fetch remembers one address at which it was refused, and reports it only
  once; neither a redirect nor a good fetch makes it forget.  Still the
  report of one address can push out another.  That it never comes to three
  reports between two interrupts or resets is a matter of where a run can be
  refused at all:

      behind a word      just past the last word of the ROM
      behind a bubble    wherever a jump led; but then nothing is left that
                         could lead away again (`Stranded`)

  So one report of the ROM's end may be followed by one of a bad target, and
  that is all.
-/
import FiveStage.Proofs.Logs

namespace FiveStage

/-! ## §1. Where the ROM ends. -/

namespace Rom

/-- An address fetches exactly if it is a multiple of four below the capacity. -/
theorem fetch_ok_iff (rom : Rom) (pc : Word) :
    (∃ w, rom.fetch pc = .ok w) ↔ pc.toNat % 4 = 0 ∧ pc.toNat / 4 < rom.capacity := by
  unfold fetch word? Width.isAligned Width.bytes
  by_cases ha : pc.toNat % 4 = 0
  · by_cases hc : pc.toNat / 4 < rom.capacity <;> simp [ha, hc]
  · simp [ha]

/-- Past a word that is read, only the end of the ROM is refused. -/
theorem toNat_of_refused {rom : Rom} {pc w : Word} {fault : Fault} (hok : rom.fetch pc = .ok w)
    (hno : rom.fetch (pc + instructionBytes) = .error fault) :
    (pc + instructionBytes).toNat = 4 * rom.capacity := by
  obtain ⟨halign, hlt⟩ := (rom.fetch_ok_iff pc).mp ⟨w, hok⟩
  have hrefused : ¬((pc + instructionBytes).toNat % 4 = 0
      ∧ (pc + instructionBytes).toNat / 4 < rom.capacity) := by
    rw [← fetch_ok_iff, hno]
    rintro ⟨w, hw⟩
    cases hw
  have hnext : (pc + instructionBytes).toNat = (pc.toNat + 4) % 2 ^ 32 :=
    BitVec.toNat_add pc instructionBytes
  have hpc : pc.toNat < 2 ^ 32 := pc.isLt
  -- after the last address comes word 0, and a ROM that holds a word holds that one
  omega

end Rom

namespace Core

variable {p : Platform} {rom : Rom} {c c' : Core} {i : Inputs}

/-! ## §2. What a refused fetch does. -/

/-- A cycle in which fetch is refused: decode goes on, and nothing else of the
front half moves. -/
theorem refused_of_starving (h : c.Ordinary i) (hs : c.starving p = true) :
    (∃ fault, p.program.fetch c.pc = .error fault)
      ∧ (c.tick p i).latches.ifId = none
      ∧ (c.tick p i).latches.idEx = c.latches.ifId.map (·.decode c.settled)
      ∧ (c.tick p i).pc = c.pc ∧ (c.tick p i).lastId = c.lastId := by
  unfold starving at hs
  cases (tick_ordinary p h).front with
  | redirect _ transfer | halt _ transfer => simp [transfer] at hs
  | stopped _ stop => simp [stop] at hs
  | stall _ _ waits => simp [waits] at hs
  | fetched _ _ _ _ fetch => simp [fetch, Except.isOk, Except.toBool] at hs
  | starved fault _ _ _ fetch ifId idEx pc _ lastId =>
      exact ⟨⟨fault, fetch⟩, ifId, idEx, pc, lastId⟩

/-- **A refused fetch counts its cycle, numbers nothing and holds the PC.** -/
theorem held_of_starving (h : c.Ordinary i) (hs : c.starving p = true) :
    (c.tick p i).counters.fetchFaultCycles = c.counters.fetchFaultCycles + 1
      ∧ (c.tick p i).lastId = c.lastId ∧ (c.tick p i).pc = c.pc := by
  have hcount := (fetchFaults_ordinary p h).1
  rw [hs] at hcount
  obtain ⟨-, -, -, hpc, hlastId⟩ := refused_of_starving h hs
  exact ⟨hcount, hlastId, hpc⟩

/-- Fetch remembers the address it failed at; a halted or stalled one leaves the
memory alone. -/
theorem reportedFetch_fetchNext (p : Platform) (c : Core) (stall : Bool) :
    (c.fetchNext p stall).core.reportedFetch
      = if !c.halted && !stall && !(p.program.fetch c.pc).isOk then some c.pc
        else c.reportedFetch := by
  unfold fetchNext
  cases c.halted <;> cases stall <;> try rfl
  -- what is left is a core that fetches
  show (c.fetch p).core.reportedFetch = _
  unfold fetch
  cases p.program.fetch c.pc with
  | ok inst => rfl
  | error fault =>
      dsimp only
      split
      · rename_i hr
        exact hr
      · rfl

/-- Fetch remembers where it is refused, and nothing makes it forget. -/
theorem reportedFetch_ordinary (p : Platform) (h : c.Ordinary i) :
    (c.tick p i).reportedFetch = if c.starving p then some c.pc else c.reportedFetch := by
  unfold starving
  rw [tick_flow p h]
  cases ht : c.latches.transfer? c.traps with
  | some t =>
      rw [flow_transfer p (c := c.retired) (t := t) (by simpa using ht)]
      cases t <;> simp [countCycle, applyTransfer]
  | none =>
      rw [flow_next p (c := c.retired) (by simpa using ht)]
      simp [countCycle, reportedFetch_fetchNext]

/-! ## §3. Where it can be refused. -/

/-- Behind a word that was read, fetch is refused at the end of the ROM only. -/
theorem Coherent.toNat_of_refused (hc : Coherent p c) (hp : p.program = .rom rom) {fault : Fault}
    (hf : p.program.fetch c.pc = .error fault) {f : InFlight} (hi : c.latches.ifId = some f) :
    c.pc.toNat = 4 * rom.capacity := by
  obtain ⟨hread, hpc⟩ := hc.ifId f hi
  rw [hp] at hread hf
  rw [hpc] at hf ⊢
  exact Rom.toNat_of_refused hread hf

/-- Fetch is refused, which it has reported, and nothing is in the front half
that could redirect it. -/
structure Stranded (p : Platform) (c : Core) : Prop where
  ifId : c.latches.ifId = none
  idEx : c.latches.idEx = none
  refused : ∃ fault, p.program.fetch c.pc = .error fault
  reported : c.reportedFetch = some c.pc

/-- A stranded core stays so. -/
theorem Stranded.tick (hs : Stranded p c) (h : c.Ordinary i) : Stranded p (c.tick p i) := by
  have ht := transfer_of_none hs.idEx
  have hreported := reportedFetch_ordinary p h
  rw [hs.reported, ite_self] at hreported
  obtain ⟨fault, hf⟩ := hs.refused
  cases (tick_ordinary p h).front with
  | redirect _ transfer | halt _ transfer =>
      -- nothing is in ID/EX that could send fetch elsewhere
      rw [ht] at transfer
      cases transfer
  | stall _ _ waits =>
      rw [waits_of_bubble hs.idEx] at waits
      cases waits
  | fetched _ _ _ _ fetch =>
      -- the word at the PC is refused still
      rw [hf] at fetch
      cases fetch
  | stopped _ _ ifId idEx pc =>
      refine ⟨ifId, ?_, pc ▸ hs.refused, by rw [hreported, pc]⟩
      rw [idEx, Latches.decoded, hs.ifId]
      split <;> rfl
  | starved _ _ _ _ _ ifId idEx pc =>
      refine ⟨ifId, ?_, pc ▸ hs.refused, by rw [hreported, pc]⟩
      rw [idEx, hs.ifId]
      rfl

/-- A fetch that is refused behind no word leaves the core stranded: what is
in ID/EX transfers control in that cycle, or never. -/
theorem stranded_of_starving (h : c.Ordinary i) (hs : c.starving p = true)
    (hifId : c.latches.ifId = none) : Stranded p (c.tick p i) := by
  have hreported := reportedFetch_ordinary p h
  rw [if_pos hs] at hreported
  obtain ⟨hrefused, hifId', hidEx', hpc, -⟩ := refused_of_starving h hs
  refine ⟨hifId', ?_, hpc ▸ hrefused, by rw [hreported, hpc]⟩
  rw [hidEx', hifId]
  rfl

/-! ## §4. What is reported. -/

/-- At an address already reported nothing more is logged. -/
theorem fetchFaultsIn_of_reported (hr : c.reportedFetch = some c.pc) :
    c.fetchFaultsIn p i = [] := by
  have hnone : c.refusedFetch p = [] := by
    unfold refusedFetch
    split
    · rfl
    · rw [if_pos hr]
  rw [fetchFaultsIn, hnone, ite_self]

/-- An ordinary cycle in which fetch has nothing to fail at logs nothing. -/
theorem fetchFaultsIn_of_not_starving (h : c.Ordinary i) (hs : c.starving p = false) :
    c.fetchFaultsIn p i = [] := by
  rw [fetchFaultsIn_of_ordinary h]
  split
  · rename_i hfetching
    have hok : (!(p.program.fetch c.pc).isOk) = false := by
      unfold starving at hs
      unfold fetching at hfetching
      rwa [hfetching, Bool.true_and] at hs
    unfold refusedFetch
    cases hf : p.program.fetch c.pc with
    | ok inst => rfl
    | error fault =>
        rw [hf] at hok
        cases hok
  · rfl

/-- A refusal at an address that was not reported last is reported. -/
theorem fetchFaultsIn_of_new (h : c.Ordinary i) (hs : c.starving p = true)
    (hr : c.reportedFetch ≠ some c.pc) :
    ∃ fault, p.program.fetch c.pc = .error fault
      ∧ c.fetchFaultsIn p i = [⟨c.counters.cycles, 0, c.pc, fault⟩] := by
  obtain ⟨⟨fault, hf⟩, -⟩ := refused_of_starving h hs
  have hfetching : c.fetching = true := (Bool.and_eq_true_iff.mp hs).1
  refine ⟨fault, hf, ?_⟩
  rw [fetchFaultsIn_of_ordinary h, if_pos hfetching, refusedFetch, hf]
  exact if_neg hr

/-- What an ordinary cycle has to report of fetch. -/
inductive Reports (p : Platform) (rom : Rom) (c : Core) (i : Inputs) : Prop where
  /-- Nothing, or nothing new. -/
  | nothing (reports : c.fetchFaultsIn p i = [])
      (memo : (c.tick p i).reportedFetch = c.reportedFetch)
  /-- Fetch has come to the end of the ROM. -/
  | edge (r : FaultRecord) (reports : c.fetchFaultsIn p i = [r]) (pc : r.pc = c.pc)
      (memo : (c.tick p i).reportedFetch = some r.pc) (edge : r.pc.toNat = 4 * rom.capacity)
  /-- Fetch was led astray. -/
  | astray (r : FaultRecord) (reports : c.fetchFaultsIn p i = [r]) (pc : r.pc = c.pc)
      (stranded : Stranded p (c.tick p i))

/-- **What is reported of fetch** is new, and one of two things. -/
theorem Coherent.reports (hc : Coherent p c) (hp : p.program = .rom rom) (h : c.Ordinary i) :
    Reports p rom c i := by
  have hmemo := reportedFetch_ordinary p h
  cases hs : c.starving p with
  | false =>
      rw [hs] at hmemo
      exact .nothing (fetchFaultsIn_of_not_starving h hs) hmemo
  | true =>
      rw [hs, if_pos rfl] at hmemo
      by_cases hr : c.reportedFetch = some c.pc
      · exact .nothing (fetchFaultsIn_of_reported hr) (hmemo.trans hr.symm)
      · obtain ⟨fault, hf, hreports⟩ := fetchFaultsIn_of_new h hs hr
        -- only behind a word is it known where fetch is
        cases hi : c.latches.ifId with
        | none => exact .astray _ hreports rfl (stranded_of_starving h hs hi)
        | some f => exact .edge _ hreports rfl hmemo (hc.toNat_of_refused hp hf hi)

/-! ## §5. A stretch of ordinary cycles. -/

/-- The run neither applies a reset nor accepts an interrupt. -/
def Undisturbed (p : Platform) (c : Core) (s : List Inputs) : Prop :=
  ∀ q ∈ c.course p s, q.1.Ordinary q.2

theorem undisturbed_cons {s : List Inputs} :
    Undisturbed p c (i :: s) ↔ c.Ordinary i ∧ Undisturbed p (c.tick p i) s :=
  List.forall_mem_cons

theorem undisturbed_quiet (p : Platform) (c : Core) (n : Nat) : Undisturbed p c (quiet n) := by
  induction n generalizing c with
  | zero => exact fun q hq => by cases hq
  | succ n ih => exact undisturbed_cons.mpr ⟨ordinary_quiet c, ih _⟩

/-- The fetch faults that a run reports. -/
def fetchFaultsAlong (p : Platform) (c : Core) (s : List Inputs) : List FaultRecord :=
  along (fetchFaultsIn p) p c s

theorem fetchFaultsAlong_cons (p : Platform) (c : Core) (i : Inputs) (s : List Inputs) :
    c.fetchFaultsAlong p (i :: s) = c.fetchFaultsIn p i ++ (c.tick p i).fetchFaultsAlong p s :=
  rfl

/-- A stranded core has nothing more to report. -/
theorem Stranded.silent {s : List Inputs} (hs : Stranded p c) (h : Undisturbed p c s) :
    c.fetchFaultsAlong p s = [] := by
  induction s generalizing c with
  | nil => rfl
  | cons i s ih =>
      obtain ⟨ho, hrest⟩ := undisturbed_cons.mp h
      rw [fetchFaultsAlong_cons, fetchFaultsIn_of_reported hs.reported, ih (hs.tick ho) hrest]
      rfl

/-- Once the end of the ROM is reported, one other address may follow. -/
theorem Coherent.reports_after_edge {s : List Inputs} {edge : Word} (hc : Coherent p c)
    (hp : p.program = .rom rom) (hedge : edge.toNat = 4 * rom.capacity)
    (hmemo : c.reportedFetch = some edge) (h : Undisturbed p c s) :
    (c.fetchFaultsAlong p s).length ≤ 1 ∧ ∀ r ∈ c.fetchFaultsAlong p s, r.pc ≠ edge := by
  induction s generalizing c with
  | nil => exact ⟨Nat.zero_le 1, fun r hr => by cases hr⟩
  | cons i s ih =>
      obtain ⟨ho, hrest⟩ := undisturbed_cons.mp h
      rw [fetchFaultsAlong_cons]
      -- the address just past the ROM is known, so a new one is another
      have hnew : ∀ r, c.fetchFaultsIn p i = [r] → r.pc = c.pc → r.pc ≠ edge := by
        rintro r hreports hpc rfl
        rw [fetchFaultsIn_of_reported (hmemo.trans (congrArg some hpc))] at hreports
        cases hreports
      cases hc.reports hp ho with
      | nothing reports memo =>
          rw [reports]
          exact ih (hc.tick i) (memo.trans hmemo) hrest
      | edge r reports pc _ end_ =>
          exact absurd (BitVec.eq_of_toNat_eq (end_.trans hedge.symm)) (hnew r reports pc)
      | astray r reports pc stranded =>
          rw [reports, stranded.silent hrest]
          refine ⟨Nat.le_refl 1, ?_⟩
          intro r' hr'
          cases List.mem_singleton.mp hr'
          exact hnew r reports pc

/-- At most two addresses are reported, and of two the first is the end of the
ROM. -/
theorem Coherent.reports_along {s : List Inputs} (hc : Coherent p c) (hp : p.program = .rom rom)
    (h : Undisturbed p c s) :
    (c.fetchFaultsAlong p s).length ≤ 2
      ∧ ∀ a b, c.fetchFaultsAlong p s = [a, b] → a.pc ≠ b.pc ∧ a.pc.toNat = 4 * rom.capacity := by
  induction s generalizing c with
  | nil => exact ⟨Nat.zero_le 2, fun a b hab => by cases hab⟩
  | cons i s ih =>
      obtain ⟨ho, hrest⟩ := undisturbed_cons.mp h
      rw [fetchFaultsAlong_cons]
      cases hc.reports hp ho with
      | nothing reports =>
          rw [reports]
          exact ih (hc.tick i) hrest
      | edge r reports _ memo edge =>
          -- fetch ran past the end: one more report can follow, at another address
          obtain ⟨hlength, hother⟩ := (hc.tick i).reports_after_edge hp edge memo hrest
          rw [reports]
          refine ⟨Nat.succ_le_succ hlength, ?_⟩
          intro a b hab
          rw [List.singleton_append] at hab
          obtain ⟨rfl, hb⟩ := List.cons.inj hab
          exact ⟨(hother b (by rw [hb]; exact List.mem_singleton_self b)).symm, edge⟩
      | astray r reports _ stranded =>
          -- fetch is stuck somewhere else, and stays silent
          rw [reports, stranded.silent hrest]
          exact ⟨Nat.le_succ 1, fun a b hab => by cases hab⟩

/-- **Fetch faults hold the PC and are reported sparingly.**  In a run that
neither applies a reset nor accepts an interrupt, from whatever core can be
reached, over a ROM of any size: a cycle in which fetch is refused counts as
such, gives no number and leaves the PC where it is; of all the faults that
are counted at most two are of fetches; and if there are two, they are at
different addresses, of which the first is just past the last word. -/
theorem fetch_faults_sparse (hr : Reachable p c) (hp : p.program = .rom rom) {s : List Inputs}
    (h : Undisturbed p c s) :
    (∀ q ∈ c.course p s, q.1.starving p = true →
        (q.1.tick p q.2).counters.fetchFaultCycles = q.1.counters.fetchFaultCycles + 1
          ∧ (q.1.tick p q.2).lastId = q.1.lastId ∧ (q.1.tick p q.2).pc = q.1.pc)
      ∧ (c.after p s).faultLog = c.faultLog.note (c.faultsAlong p s)
      ∧ ((c.faultsAlong p s).filter (·.ofFetch)).length ≤ 2
      ∧ ∀ a b, (c.faultsAlong p s).filter (·.ofFetch) = [a, b] →
          a.pc ≠ b.pc ∧ a.pc.toNat = 4 * rom.capacity := by
  rw [faultsAlong_ofFetch]
  refine ⟨?_, (logs_after p c s).2, hr.coherent.reports_along hp h⟩
  intro q hq hs
  exact held_of_starving (h q hq) hs

/-- A ROM of one word, which jumps to where there is none. -/
def astray : Platform where
  program := .rom ⟨#[(Instr.jalr 0 0 100).encode], 1⟩
  misaligned := .fault
  resetVector := 0
  interrupts := {}
  traceInstructions := false

/-- Fetch is refused behind the jump, before that is executed, and then at the
target. -/
theorem fetch_faults_sparse_astray :
    ∃ a b, ((fresh astray ⟨0, 8, {}⟩ .zero).faultsAlong astray (quiet 9)).filter (·.ofFetch)
          = [a, b]
      ∧ b.pc = 100 ∧ a.pc ≠ b.pc ∧ a.pc.toNat = 4 * 1 := by
  obtain ⟨-, -, -, htwo⟩ := fetch_faults_sparse (Reachable.start astray ⟨0, 8, {}⟩ .zero) rfl
    (undisturbed_quiet astray _ 9)
  have hreports : ((fresh astray ⟨0, 8, {}⟩ .zero).faultsAlong astray (quiet 9)).filter (·.ofFetch)
      = [⟨1, 0, 4, .outOfRange .fetch 4 .word⟩, ⟨3, 0, 100, .outOfRange .fetch 100 .word⟩] := by
    decide +kernel
  exact ⟨_, _, hreports, rfl, htwo _ _ hreports⟩

end Core

end FiveStage
