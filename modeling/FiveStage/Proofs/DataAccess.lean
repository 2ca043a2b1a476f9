/-
  FiveStage.Proofs.DataAccess
  ───────────────────────────
  **EVERY DATA ACCESS IS MADE ONCE, AND BY AN INSTRUCTION THAT STAYS.**

  Which instructions load and store is told by the events of the memory
  stage.  It works for EX/MEM in ordinary cycles only, and what it has worked
  for is in MEM/WB from then on.  That is where the argument is:

      accesses → MEM/WB → retired, or dropped by a reset

  The accounts of a run hold every number once, so no instruction gets there
  twice, and none that is discarded gets there at all.
-/
import FiveStage.Proofs.Conservation
import Mathlib.Data.List.Nodup

namespace FiveStage

/-! ## §1. Who loads and stores. -/

/-- The number of the instruction whose load or store this event reports, a
refused one too. -/
def Event.accessor? : Event → Option Nat
  | .loaded e _ | .stored e | .loadSuppressed e _ | .storeSuppressed e _ => some e.id
  | _ => none

/-- The instructions whose loads and stores these events report. -/
def Event.accessors (events : List Event) : List Nat :=
  events.filterMap Event.accessor?

@[simp] theorem Event.accessors_append (a b : List Event) :
    accessors (a ++ b) = accessors a ++ accessors b :=
  List.filterMap_append

/-- The instruction in EX/MEM, if it loads or stores. -/
def Latches.accessing (l : Latches) : List Nat :=
  match l.exMem with
  | none => []
  | some x => if x.control.cls = .load ∨ x.control.cls = .store then [x.id] else []

/-- What accesses memory is in EX/MEM. -/
theorem Latches.accessing_sublist (l : Latches) :
    l.accessing.Sublist (l.exMem.map (·.id)).toList := by
  unfold accessing
  split
  · exact List.nil_sublist _
  · rename_i x hx
    rw [hx]
    split
    · exact List.Sublist.refl _
    · exact List.nil_sublist _

namespace Core

variable {p : Platform} {c : Core} {i : Inputs}

/-- The numbers of the instructions that load or store in a cycle. -/
def accesses (p : Platform) (c : Core) (i : Inputs) : List Nat :=
  Event.accessors (c.cycle p i).events

/-- The memory stage reports the access of what is in EX/MEM. -/
theorem accessors_access (p : Platform) (c : Core) :
    Event.accessors (c.access p).events = c.latches.accessing := by
  unfold access Latches.accessing
  cases hx : c.latches.exMem with
  | none => rfl
  | some x =>
      cases hk : x.control.cls with
      | load | store =>
          simp only [hk]
          split <;> rfl
      | regReg | regImm | lui | auipc | branch | jal | jalr | halt | mret | illegal =>
          simp [hk, Event.accessors]

/-- The other stages tell nothing of loads and stores. -/
theorem accessors_writeback (c : Core) : Event.accessors c.writeback.events = [] := by
  unfold writeback
  split
  · rfl
  · rename_i w _
    cases registerWrite? w <;> rfl

/-- Execute reports no access, whatever it decides. -/
theorem accessors_executionEvents (e : IdEx) (o : Operands) (traps : TrapUnit) :
    Event.accessors (executionEvents e o traps) = [] := by
  have hoperands : Event.accessors (o.events e.toInFlight) = [] := by
    unfold Operands.events
    split <;> rfl
  unfold executionEvents
  generalize e.control.transfer? e.pc o traps = t, e.control.cls = k, traps.resume? = r
  dsimp only
  rw [Event.accessors_append, Event.accessors_append, Event.accessors_append, hoperands]
  rcases t with _ | ⟨target⟩ | ⟨resume⟩ <;> cases k <;> cases r <;> rfl

/-- Execute accesses no memory. -/
theorem accessors_execute (c : Core) : Event.accessors c.execute.events = [] := by
  unfold execute
  split
  · rfl
  · exact accessors_executionEvents _ _ _

/-- Decode reports no access. -/
theorem accessors_decode (c : Core) : Event.accessors c.decode.events = [] := by
  unfold decode
  split
  · rfl
  · split
    · rfl
    · dsimp only
      split <;> rfl

/-- Fetch reports no access to data memory. -/
theorem accessors_fetchNext (p : Platform) (c : Core) (stall : Bool) :
    Event.accessors (c.fetchNext p stall).events = [] := by
  unfold fetchNext
  split
  · rfl
  · split
    · rfl
    · unfold fetch
      split
      · rfl
      · dsimp only
        split <;> rfl

/-- Of a cycle's flow only the memory stage reports an access. -/
theorem accessors_flow (p : Platform) (c : Core) :
    Event.accessors (c.flow p).events = c.latches.accessing := by
  unfold flow
  dsimp only
  split <;>
    simp only [Event.accessors_append, accessors_access, accessors_execute, accessors_decode,
      accessors_fetchNext, List.append_nil]

/-- What is reported at the end of a cycle is no access. -/
theorem accessors_endCycle (p : Platform) (c : Core) (events : List Event) :
    Event.accessors (c.endCycle p events).events = Event.accessors events := by
  unfold endCycle
  dsimp only
  split
  · rw [Event.accessors_append]
    exact List.append_nil _
  · rfl

/-- **Data memory is accessed in ordinary cycles only**, and for EX/MEM. -/
theorem accesses_eq (p : Platform) (c : Core) (i : Inputs) :
    (c.Ordinary i → c.accesses p i = c.latches.accessing)
      ∧ (¬ c.Ordinary i → c.accesses p i = []) := by
  unfold accesses cycle
  rcases cycle_cases c i with hr | ⟨cause, hi⟩ | ho
  · refine ⟨fun h => ?_, fun _ => ?_⟩
    · rw [h.1] at hr
      cases hr
    · rw [if_pos hr]
      rfl
  · refine ⟨fun h => ?_, fun _ => ?_⟩
    · have hnone := h.2
      rw [hi.2] at hnone
      cases hnone
    · rw [if_neg (by simp [hi.1])]
      simp only [hi.2, accessors_endCycle, Event.accessors_append, accessors_writeback]
      rfl
  · refine ⟨fun _ => ?_, fun h => absurd ho h⟩
    -- only the memory stage reports accesses, and writeback leaves EX/MEM alone
    rw [if_neg (by simp [ho.1])]
    simp only [ho.2, accessors_endCycle, Event.accessors_append, accessors_writeback,
      accessors_flow, List.nil_append]
    exact congrArg Latches.accessing (retired_frame c).2.1

end Core

/-! ## §2. What becomes of data memory. -/

namespace ExMem

variable {policy : AlignmentPolicy} {dmem : Ram} {x : ExMem}

/-- A store leaves data memory as its transaction does. -/
theorem complete_dmem_of_store (hk : x.control.cls = .store) :
    (x.complete policy dmem).2
      = ((LoadStore.store policy x.result x.control.width x.storeData :
          Transaction Ram Unit).perform dmem).2 := by
  unfold complete
  simp only [hk]
  split
  · rename_i h
    rw [h]
  · rename_i h
    -- the stage keeps the memory it had, which a refused store has not touched
    rw [h]
    exact (LoadStore.perform_store_error h).symm

/-- Nothing else changes data memory. -/
theorem complete_dmem_of_ne (hk : x.control.cls ≠ .store) :
    (x.complete policy dmem).2 = dmem := by
  unfold complete
  split
  · split <;> rfl
  · contradiction
  all_goals rfl

end ExMem

namespace Core

variable {p : Platform} {c : Core} {i : Inputs}

/-- **Only a store in EX/MEM changes data memory**, and only in an ordinary
cycle. -/
theorem store_of_dmem_ne (h : (c.tick p i).dmem ≠ c.dmem) :
    c.Ordinary i ∧ ∃ x, c.latches.exMem = some x ∧ x.control.cls = .store := by
  rcases cycle_cases c i with hr | ⟨cause, hi⟩ | ho
  · rw [tick_reset p c hr] at h
    exact absurd rfl h
  · exact absurd (tick_accept p hi).2.1 h
  · refine ⟨ho, ?_⟩
    rw [(tick_ordinary p ho).dmem] at h
    cases hx : c.latches.exMem with
    | none =>
        rw [hx] at h
        exact absurd rfl h
    | some x =>
        rw [hx] at h
        refine ⟨x, rfl, ?_⟩
        by_contra hk
        exact h (ExMem.complete_dmem_of_ne hk)

/-- An ordinary cycle with a store in EX/MEM performs that store. -/
theorem dmem_of_store (ho : c.Ordinary i) {x : ExMem} (hx : c.latches.exMem = some x)
    (hk : x.control.cls = .store) :
    (c.tick p i).dmem
      = ((LoadStore.store p.misaligned x.result x.control.width x.storeData :
          Transaction Ram Unit).perform c.dmem).2 := by
  rw [(tick_ordinary p ho).dmem, hx]
  exact ExMem.complete_dmem_of_store hk

/-! ## §3. Where the access leads. -/

/-- What has made its access is in MEM/WB. -/
theorem accesses_sublist (p : Platform) (c : Core) (i : Inputs) :
    (c.accesses p i).Sublist ((c.tick p i).latches.memWb.map (·.id)).toList := by
  by_cases ho : c.Ordinary i
  · rw [(accesses_eq p c i).1 ho, (tick_ordinary p ho).memWb, ExMem.complete_ids]
    exact c.latches.accessing_sublist
  · rw [(accesses_eq p c i).2 ho]
    exact List.nil_sublist _

/-- From MEM/WB an instruction retires, or a reset drops it. -/
theorem memWb_sublist (c : Core) (i : Inputs) :
    (c.latches.memWb.map (·.id)).toList.Sublist
      ((c.retiring i).map (·.id) ++ c.dropped i) := by
  cases hi : i.reset with
  | true =>
      rw [retiring_of_reset hi, dropped, if_pos hi, Latches.ids]
      simp only [List.map_nil, List.nil_append, List.append_assoc]
      exact List.sublist_append_left _ _
  | false =>
      rw [retiring_of_running hi]
      refine List.Sublist.trans ?_ (List.sublist_append_left _ _)
      cases c.latches.memWb <;> exact List.Sublist.refl _

/-- Along a run, all that has made an access has retired, or was dropped by a
reset, or is in MEM/WB, and once for each access. -/
theorem count_accesses_le (p : Platform) (c : Core) (s : List Inputs) (n : Nat) :
    (along (accesses p) p c s).count n
      ≤ (c.retiredIds p s).count n + (along dropped p c s).count n
        + (((c.after p s).latches.memWb.map (·.id)).toList).count n := by
  induction s using List.reverseRecOn with
  | nil => exact Nat.zero_le _
  | append_singleton s i ih =>
      have harrive := (accesses_sublist p (c.after p s) i).count_le n
      have hleave := (memWb_sublist (c.after p s) i).count_le n
      rw [List.count_append] at hleave
      rw [along_snoc, along_snoc, after_snoc, retiredIds, retiredIn_snoc, List.map_append,
        List.count_append, List.count_append, List.count_append]
      unfold retiredIds at ih
      omega

/-- **No instruction makes two accesses, and none that is discarded makes one.** -/
theorem nodup_accesses (p : Platform) (dmem : Ram) (regs : Registers) (s : List Inputs) :
    (along (accesses p) p (fresh p dmem regs) s
      ++ along discarded p (fresh p dmem regs) s).Nodup := by
  refine List.nodup_iff_count_le_one.mpr fun n => ?_
  have haccess := count_accesses_le p (fresh p dmem regs) s n
  -- the accounts hold every number at most once
  have htotal := (accounts p dmem regs s).complete.count_eq n
  have hrange := List.nodup_iff_count_le_one.mp
    (List.nodup_range' : (List.range' 1 ((fresh p dmem regs).after p s).lastId).Nodup) n
  simp only [Latches.ids, List.count_append] at htotal haccess ⊢
  omega

/-- An access puts the instruction into MEM/WB, and the next cycle retires it
unless it is a reset. -/
theorem access_retires {n : Nat} (hn : n ∈ c.accesses p i) :
    (c.tick p i).latches.memWb.map (·.id) = some n
      ∧ ∀ j : Inputs, j.reset = false →
          ((c.tick p i).tick p j).lastRetired.map (·.id) = some n := by
  have hmem : (c.tick p i).latches.memWb.map (·.id) = some n :=
    Option.mem_toList.mp ((accesses_sublist p c i).subset hn)
  refine ⟨hmem, ?_⟩
  intro j hj
  rw [lastRetired_tick p _ hj, Option.map_map]
  exact hmem

/-- **Exactly-once memory effects.**  In every run, under any inputs: data
memory changes only in a cycle that neither resets the core nor accepts an
interrupt and finds a store in EX/MEM, and then as the load/store unit stores;
no instruction makes two data accesses; one that has made its access is in
MEM/WB after that cycle and retires in the next, unless that is a reset; and
one that is discarded at any time makes none at any time. -/
theorem effects_exactly_once (p : Platform) (dmem : Ram) (regs : Registers) (s : List Inputs) :
    (∀ q ∈ (fresh p dmem regs).course p s,
        ((q.1.tick p q.2).dmem ≠ q.1.dmem →
          q.1.Ordinary q.2 ∧ ∃ x, q.1.latches.exMem = some x ∧ x.control.cls = .store)
        ∧ (q.1.Ordinary q.2 → ∀ x, q.1.latches.exMem = some x → x.control.cls = .store →
            (q.1.tick p q.2).dmem
              = ((LoadStore.store p.misaligned x.result x.control.width x.storeData :
                  Transaction Ram Unit).perform q.1.dmem).2))
      ∧ (along (accesses p) p (fresh p dmem regs) s).Nodup
      ∧ (∀ q ∈ (fresh p dmem regs).course p s, ∀ n ∈ q.1.accesses p q.2,
          (q.1.tick p q.2).latches.memWb.map (·.id) = some n
            ∧ ∀ j : Inputs, j.reset = false →
                ((q.1.tick p q.2).tick p j).lastRetired.map (·.id) = some n)
      ∧ ∀ n ∈ along discarded p (fresh p dmem regs) s,
          n ∉ along (accesses p) p (fresh p dmem regs) s := by
  -- what accesses and what is discarded are the two parts of a list that repeats no number
  have hnodup := List.nodup_append.mp (nodup_accesses p dmem regs s)
  refine ⟨?_, hnodup.1, ?_, ?_⟩
  · intro q _
    exact ⟨store_of_dmem_ne, fun ho x hx hk => dmem_of_store ho hx hk⟩
  · intro q _ n hn
    exact access_retires hn
  · intro n hd ha
    exact hnodup.2.2 n ha n hd rfl

/-- A program that stores, and a handler that only returns. -/
def resuming : Platform where
  program := .rom ⟨#[(Instr.opImm .add 1 0 5).encode, (Instr.store .word 1 0 0).encode,
    Encode.halt, Encode.halt, Encode.mret], 20⟩
  misaligned := .fault
  resetVector := 0
  interrupts := { handlerVector := 16 }
  traceInstructions := false

/-- The interrupt meets the store just before its access. -/
def untimely : List Inputs :=
  quiet 4 ++ [{ external := true }] ++ quiet 9

/-- The store is discarded, and makes its access after the handler under
another number. -/
theorem effects_exactly_once_resuming :
    2 ∈ along discarded resuming (fresh resuming ⟨0, 64, {}⟩ .zero) untimely
      ∧ 2 ∉ along (accesses resuming) resuming (fresh resuming ⟨0, 64, {}⟩ .zero) untimely
      ∧ (along (accesses resuming) resuming (fresh resuming ⟨0, 64, {}⟩ .zero) untimely).count 7
          = 1 := by
  have hdiscarded : 2 ∈ along discarded resuming (fresh resuming ⟨0, 64, {}⟩ .zero)
      untimely := by decide +kernel
  have haccess : 7 ∈ along (accesses resuming) resuming (fresh resuming ⟨0, 64, {}⟩ .zero)
      untimely := by decide +kernel
  obtain ⟨-, hnodup, -, hnone⟩ := effects_exactly_once resuming ⟨0, 64, {}⟩ .zero untimely
  exact ⟨hdiscarded, hnone 2 hdiscarded, List.count_eq_one_of_mem hnodup haccess⟩

end Core

end FiveStage
