/-
  FiveStage.Proofs.FaultReports
  ─────────────────────────────
  **WHAT A FAULT SAYS OF THE ACCESS THAT WAS REFUSED.**

  A load and a store of the same bytes are refused together, and for the same
  cause.  What the two faults name is the same as long as the access is issued
  whole.  Where it is issued byte by byte, they part:

      store    the access that was requested
      load     the first byte that is missing, as an access of its own

  So a fault in the log of a core has the width of the instruction it was
  recorded for, unless that is a load which was issued byte by byte.
-/
import FiveStage.Proofs.Logs

namespace FiveStage

/-- The same refusal of an access of another kind. -/
def Fault.ofKind (kind : AccessKind) (f : Fault) : Fault :=
  { f with access.kind := kind }

namespace LoadStore

variable {policy : AlignmentPolicy} {addr : Word} {width : Width} {ram : Ram}

/-! ## §1. Whole, and byte by byte. -/

/-- The access is issued byte by byte. -/
def Splits (policy : AlignmentPolicy) (addr : Word) (width : Width) : Prop :=
  policy = .permit ∧ width.isAligned addr = false

instance : Decidable (Splits policy addr width) :=
  inferInstanceAs (Decidable (_ ∧ _))

/-- A split access is issued byte by byte. -/
theorem issue_of_splits (h : Splits policy addr width) (kind : AccessKind) :
    issue policy kind addr width = .ok (.bytewise addr) := by
  unfold issue
  rw [h.1, if_neg (by simp [h.2])]

theorem not_bytewise_of_not_splits (h : ¬Splits policy addr width) (kind : AccessKind) (a : Word) :
    issue policy kind addr width ≠ .ok (.bytewise a) := by
  unfold issue
  intro hissue
  split at hissue
  · cases hissue
  · rename_i hmisaligned
    cases policy with
    | fault | alignDown => cases hissue
    | permit => exact h ⟨rfl, Bool.not_eq_true _ ▸ hmisaligned⟩

/-- A split access begins where it was asked for, and nothing is held against
its address. -/
theorem grants_of_splits (h : Splits policy addr width) :
    Grants policy ram addr width ↔ ram.Covers addr width.bytes := by
  obtain ⟨rfl, -⟩ := h
  exact and_iff_right (Or.inr (by decide))

/-! ## §2. What a load is refused with. -/

/-- A load issued whole is refused as the store of the same bytes is. -/
theorem perform_load_of_not_splits (hs : ¬Splits policy addr width)
    (hg : ¬Grants policy ram addr width) (signed : Bool) :
    (load policy addr width signed).perform ram
      = (.error ((storeFault policy addr width).ofKind .read), ram) := by
  have hi := issued policy .read addr width
  have hnot := not_bytewise_of_not_splits hs .read (start policy addr width)
  unfold load storeFault
  generalize issue policy .read addr width = issue at hi hnot
  cases hi with
  | refused no =>
      rw [if_neg no]
      rfl
  | whole yes aligned =>
      have hcovers : ¬ram.Covers (start policy addr width) width.bytes := fun h => hg ⟨yes, h⟩
      simp only [Transaction.perform_bind, Ram.perform_read_aligned aligned, if_neg hcovers,
        if_pos yes]
      rfl
  | bytewise => exact absurd rfl hnot

/-- A load issued byte by byte is refused with the first byte that is missing. -/
theorem perform_load_of_splits (hs : Splits policy addr width)
    (hg : ¬Grants policy ram addr width) (signed : Bool) :
    ∃ i < width.bytes, ram.Covers addr i ∧ ¬ram.Backs (addr + BitVec.ofNat 32 i)
      ∧ (load policy addr width signed).perform ram
        = (.error (.outOfRange .read (addr + BitVec.ofNat 32 i) .byte), ram) := by
  rw [grants_of_splits hs] at hg
  obtain ⟨i, hi, hbefore, hmissing, hfault⟩ := perform_readBytes_error hg
  refine ⟨i, hi, hbefore, hmissing, ?_⟩
  unfold load
  simp only [issue_of_splits hs, Transaction.perform_bind, readBytes_eq, hfault]

/-- The width that a load is refused with. -/
theorem width_of_load {fault : Fault} {signed : Bool}
    (h : ((load policy addr width signed).perform ram).1 = .error fault) :
    fault.access.width = if Splits policy addr width then .byte else width := by
  have hg : ¬Grants policy ram addr width := by
    intro hg
    rw [perform_load_of_grants hg] at h
    cases h
  by_cases hs : Splits policy addr width
  · obtain ⟨i, -, -, -, hload⟩ := perform_load_of_splits hs hg signed
    rw [hload] at h
    cases h
    exact (if_pos hs).symm
  · rw [perform_load_of_not_splits hs hg] at h
    cases h
    rw [if_neg hs]
    unfold storeFault
    split <;> rfl

/-- A store is refused with the width that was requested. -/
theorem width_of_store {fault : Fault} {v : Word}
    (h : ((store policy addr width v).perform ram).1 = .error fault) :
    fault.access.width = width := by
  rw [perform_store] at h
  split at h <;> cases h
  unfold storeFault
  split <;> rfl

/-- A store faults exactly where the access is not granted, and its report is
the access as requested. -/
theorem store_error_iff {fault : Fault} {v : Word} :
    ((store policy addr width v).perform ram).1 = .error fault
      ↔ ¬Grants policy ram addr width ∧ fault = storeFault policy addr width := by
  rw [perform_store]
  by_cases h : Grants policy ram addr width
  · simp [h]
  · simp [h, eq_comm]

section

variable {fault : Fault} {v : Word} {signed : Bool}

/-- A load and a store of the same bytes are refused together. -/
theorem refused_together :
    (∃ fault, ((load policy addr width signed).perform ram).1 = .error fault)
      ↔ ∃ fault, ((store policy addr width v).perform ram).1 = .error fault := by
  by_cases hg : Grants policy ram addr width
  · rw [perform_load_of_grants hg, perform_store, if_pos hg]
    exact iff_of_false nofun nofun
  · obtain ⟨refusal, hload⟩ := perform_load_of_not_grants hg signed
    exact iff_of_true ⟨refusal, congrArg Prod.fst hload⟩ ⟨_, store_error_iff.mpr ⟨hg, rfl⟩⟩

/-- The faults say the same, but for the kind of access, exactly if the access
is issued whole. -/
theorem load_error_iff (h : ((store policy addr width v).perform ram).1 = .error fault) :
    ((load policy addr width signed).perform ram).1 = .error (fault.ofKind .read)
      ↔ ¬Splits policy addr width := by
  constructor
  · intro hload hs
    have hwidth := width_of_load hload
    rw [if_pos hs] at hwidth
    have hbyte : width = .byte := (width_of_store h).symm.trans hwidth
    -- a byte is never misaligned
    rw [Splits, hbyte, Width.isAligned_iff.mpr (Nat.mod_one addr.toNat)] at hs
    exact absurd hs.2 (by decide)
  · intro hs
    obtain ⟨hg, rfl⟩ := store_error_iff.mp h
    rw [perform_load_of_not_splits hs hg]

/-- Of an access issued byte by byte the store names the whole, and the load
the first byte that is missing. -/
theorem errors_of_splits (hs : Splits policy addr width)
    (h : ((store policy addr width v).perform ram).1 = .error fault) :
    fault = .outOfRange .write addr width
      ∧ ∃ i < width.bytes, ram.Covers addr i ∧ ¬ram.Backs (addr + BitVec.ofNat 32 i)
        ∧ ((load policy addr width signed).perform ram).1
          = .error (.outOfRange .read (addr + BitVec.ofNat 32 i) .byte) := by
  obtain ⟨hg, rfl⟩ := store_error_iff.mp h
  obtain ⟨i, hi, hbefore, hmissing, hload⟩ := perform_load_of_splits hs hg signed
  refine ⟨?_, i, hi, hbefore, hmissing, congrArg Prod.fst hload⟩
  obtain ⟨rfl, -⟩ := hs
  exact if_pos (Or.inr (by decide))

end

end LoadStore

/-! ## §3. What the log says of an instruction. -/

/-- The instruction in EX/MEM is a load that is issued byte by byte. -/
def ExMem.SplitLoad (policy : AlignmentPolicy) (x : ExMem) : Prop :=
  x.control.isLoad = true ∧ LoadStore.Splits policy x.result x.control.width

instance (policy : AlignmentPolicy) (x : ExMem) : Decidable (x.SplitLoad policy) :=
  inferInstanceAs (Decidable (_ ∧ _))

/-- What the memory stage refuses is a load or a store, and the fault has its
width unless it is a split load. -/
theorem ExMem.fault_of_complete {policy : AlignmentPolicy} {dmem : Ram} {x : ExMem}
    {fault : Fault} (hk : x.control = Control.ofWord x.inst)
    (h : (x.complete policy dmem).1.fault = some fault) :
    (x.control.cls = .load ∨ x.control.cls = .store)
      ∧ fault.access.width = if x.SplitLoad policy then .byte else x.control.width := by
  have hload : x.control.isLoad = (x.control.cls == .load) := by
    rw [hk]
    exact Control.isLoad_ofWord _
  unfold complete at h
  cases hcls : x.control.cls with
  | load =>
      simp only [hcls] at h
      split at h
      · cases h
      · rename_i hl
        cases h
        refine ⟨Or.inl rfl, ?_⟩
        rw [LoadStore.width_of_load hl]
        simp [SplitLoad, hload, hcls]
  | store =>
      simp only [hcls] at h
      split at h
      · cases h
      · rename_i hs
        cases h
        refine ⟨Or.inr rfl, ?_⟩
        rw [LoadStore.width_of_store (congrArg Prod.fst hs)]
        simp [SplitLoad, hload, hcls]
  | regReg | regImm | lui | auipc | jal | jalr | branch | halt | mret | illegal =>
      -- no other class accesses memory
      simp only [hcls] at h
      cases h

namespace Core

variable {p : Platform}

/-- A record of a data fault was made in a cycle of the run that had the
instruction in EX/MEM. -/
theorem cycle_of_dataFault (p : Platform) (dmem : Ram) (regs : Registers) (s : List Inputs)
    {r : FaultRecord} (hr : r ∈ ((fresh p dmem regs).after p s).faults)
    (hdata : r.ofFetch = false) :
    ∃ q ∈ (fresh p dmem regs).course p s, ∃ x, q.1.latches.exMem = some x ∧ x.id = r.id
      ∧ x.pc = r.pc ∧ (x.complete p.misaligned q.1.dmem).1.fault = some r.fault := by
  have hlog : ((fresh p dmem regs).after p s).faults
      = ((fresh p dmem regs).faultsAlong p s).take recordLimit :=
    congrArg Log.kept (logs_fresh p dmem regs s).2
  rw [hlog] at hr
  obtain ⟨q, hq, hfound⟩ := List.mem_flatMap.mp (List.mem_of_mem_take hr)
  rcases List.mem_append.mp hfound with haccess | hfetch
  · obtain ⟨x, fault, rfl, hx, hfault⟩ := eq_of_mem_accessFaultsIn haccess
    exact ⟨q, hq, x, hx, rfl, rfl, hfault⟩
  · rw [ofFetch_of_mem hfetch] at hdata
    cases hdata

/-- **What a fault says of the access.**  Let a load and a store go to the
same bytes under one policy.

  * They are refused together.
  * The fault of the store has the width that was requested.  That of the load
    differs from it in the kind of access only, exactly if the access is not
    issued byte by byte.
  * If it is, the store names the access that was requested, and the load the
    first byte that is missing.

And every data fault in the log of a core has the width of the instruction it
was recorded for, unless that is a load issued byte by byte. -/
theorem refusals_agree (ram : Ram) (policy : AlignmentPolicy) (addr : Word) (width : Width)
    (v : Word) (signed : Bool) (p : Platform) (dmem : Ram) (regs : Registers)
    (s : List Inputs) :
    ((∃ fault, ((LoadStore.load policy addr width signed).perform ram).1 = .error fault)
        ↔ ∃ fault, ((LoadStore.store policy addr width v).perform ram).1 = .error fault)
      ∧ (∀ fault, ((LoadStore.store policy addr width v).perform ram).1 = .error fault →
          fault.access.kind = .write ∧ fault.access.width = width
            ∧ (((LoadStore.load policy addr width signed).perform ram).1
                = .error (fault.ofKind .read) ↔ ¬LoadStore.Splits policy addr width)
            ∧ (LoadStore.Splits policy addr width →
                fault = .outOfRange .write addr width
                  ∧ ∃ i < width.bytes, ram.Covers addr i
                    ∧ ¬ram.Backs (addr + BitVec.ofNat 32 i)
                    ∧ ((LoadStore.load policy addr width signed).perform ram).1
                      = .error (.outOfRange .read (addr + BitVec.ofNat 32 i) .byte)))
      ∧ ∀ r ∈ ((fresh p dmem regs).after p s).faults, r.ofFetch = false →
          ∃ q ∈ (fresh p dmem regs).course p s, ∃ x, q.1.latches.exMem = some x
            ∧ x.id = r.id ∧ x.pc = r.pc ∧ x.control = Control.ofWord x.inst
            ∧ (x.control.cls = .load ∨ x.control.cls = .store)
            ∧ r.fault.access.width
                = if x.SplitLoad p.misaligned then .byte else x.control.width := by
  refine ⟨LoadStore.refused_together, ?_, ?_⟩
  · intro fault hstore
    exact ⟨LoadStore.refusedAs_store policy addr width v ram fault hstore,
      LoadStore.width_of_store hstore, LoadStore.load_error_iff hstore,
      fun hs => LoadStore.errors_of_splits hs hstore⟩
  · intro r hr hdata
    -- each record was made in some cycle, for the instruction in EX/MEM then
    obtain ⟨q, hq, x, hx, hid, hpc, hfault⟩ := cycle_of_dataFault p dmem regs s hr hdata
    have hreach : Reachable p q.1 := (Reachable.start p dmem regs).of_mem_course hq
    have hk : x.control = Control.ofWord x.inst := (hreach.coherent.exMem x hx).2.control
    obtain ⟨hcls, hwidth⟩ := ExMem.fault_of_complete hk hfault
    exact ⟨q, hq, x, hx, hid, hpc, hk, hcls, hwidth⟩

/-- A load of the halfword at 1. -/
def overhanging : Platform where
  program := .rom ⟨#[(Instr.load .lh 1 0 1).encode, Encode.halt], 2⟩
  misaligned := .permit
  resetVector := 0
  interrupts := { handlerVector := 0x80 }
  traceInstructions := false

/-- Two bytes of memory, and a halfword that begins in the second: the store
is refused as a halfword at 1, and the load as some byte from there on.  In a
run the fault is logged with the width that the load then has. -/
theorem refusals_agree_at_end :
    LoadStore.Splits .permit 1 .half
      ∧ ((LoadStore.store .permit 1 .half 0).perform (⟨0, 2, {}⟩ : Ram)).1
        = .error (.outOfRange .write 1 .half)
      ∧ (∃ i < 2, ((LoadStore.load .permit 1 .half true).perform (⟨0, 2, {}⟩ : Ram)).1
        = .error (.outOfRange .read (1 + BitVec.ofNat 32 i) .byte))
      ∧ ∃ r ∈ ((fresh overhanging ⟨0, 2, {}⟩ .zero).after overhanging (quiet 5)).faults,
        r.ofFetch = false ∧ ∃ x : ExMem, x.id = r.id
          ∧ r.fault.access.width = if x.SplitLoad .permit then .byte else x.control.width := by
  have hs : LoadStore.Splits .permit 1 .half := by decide
  have hstore : ((LoadStore.store .permit 1 .half 0).perform (⟨0, 2, {}⟩ : Ram)).1
      = .error (.outOfRange .write 1 .half) := by decide +kernel
  have hlogged : ∃ r ∈ ((fresh overhanging ⟨0, 2, {}⟩ .zero).after overhanging (quiet 5)).faults,
      r.ofFetch = false := by decide +kernel
  obtain ⟨r, hr, hdata⟩ := hlogged
  obtain ⟨-, hrefused, hlog⟩ := refusals_agree ⟨0, 2, {}⟩ .permit 1 .half 0 true overhanging
    ⟨0, 2, {}⟩ .zero (quiet 5)
  obtain ⟨-, -, -, hsplit⟩ := hrefused _ hstore
  obtain ⟨-, i, hi, -, -, hload⟩ := hsplit hs
  obtain ⟨-, -, x, -, hid, -, -, -, hwidth⟩ := hlog r hr hdata
  exact ⟨hs, hstore, ⟨i, hi, hload⟩, r, hr, hdata, x, hid, hwidth⟩

/-- The load is refused as the byte at 2, the store as the halfword at 1. -/
theorem split_load_names_byte :
    ((LoadStore.load .permit 1 .half true).perform (⟨0, 2, {}⟩ : Ram)).1
        = .error (.outOfRange .read 2 .byte)
      ∧ ((LoadStore.store .permit 1 .half 0).perform (⟨0, 2, {}⟩ : Ram)).1
        = .error (.outOfRange .write 1 .half) := by
  decide +kernel

end Core

end FiveStage
