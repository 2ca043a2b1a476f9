/-
  FiveStage.Proofs.LoadStore
  ──────────────────────────
  **WHAT A LOAD OR A STORE LEAVES BEHIND.**

  A load leaves the RAM as it found it, refused or not, and so does a store
  that is refused:

      loads are read-only          perform_load
      a store is all or nothing    perform_store_error

  The second is not obvious for a store issued byte by byte: it would leave a
  part of the value behind if a byte could fail after another was written.
  All bytes are asked for first, and writing one takes no other away.
-/
import FiveStage.LoadStore
import FiveStage.Memory.Ram

namespace FiveStage

/-! ## §1. Read-only transactions. -/

namespace Transaction

variable {σ α β : Type}

/-- The transaction leaves every memory as it found it, also if it fails. -/
def ReadOnly (t : Transaction σ α) : Prop :=
  ∀ m, (t.perform m).2 = m

theorem readOnly_pure (a : α) : ReadOnly (pure a : Transaction σ α) :=
  fun _ => rfl

theorem readOnly_throw (fault : Fault) : ReadOnly (throw fault : Transaction σ α) :=
  fun _ => rfl

/-- Reading and then reading is reading. -/
theorem readOnly_bind {t : Transaction σ α} {f : α → Transaction σ β}
    (ht : ReadOnly t) (hf : ∀ a, ReadOnly (f a)) : ReadOnly (t >>= f) := by
  intro m
  rw [perform_bind]
  have hm : (t.perform m).2 = m := ht m
  rcases h : t.perform m with ⟨_ | a, m'⟩
  · rw [h] at hm
    exact hm
  · rw [h] at hm
    exact (hf a m').trans hm

theorem readOnly_foldlM (f : β → α → Transaction σ β) (hf : ∀ b a, ReadOnly (f b a)) :
    ∀ (l : List α) (b : β), ReadOnly (l.foldlM f b)
  | [], b => by
      rw [List.foldlM_nil]
      exact readOnly_pure b
  | a :: l, b => by
      rw [List.foldlM_cons]
      exact readOnly_bind (hf b a) (fun b' => readOnly_foldlM f hf l b')

end Transaction

open Transaction

/-! ## §2. Loads. -/

namespace Ram

/-- A single read is read-only, also one that faults. -/
theorem readOnly_read (addr : Word) (width : Width) :
    ReadOnly (DataMemory.read addr width : Transaction Ram Word) :=
  fun _ => rfl

@[simp] theorem perform_contains (ram : Ram) (addr : Word) (width : Width) :
    (DataMemory.contains addr width : Transaction Ram Bool).perform ram
      = (.ok (ram.contains addr width), ram) := rfl

theorem perform_write (ram : Ram) (addr : Word) (width : Width) (v : Word) :
    (DataMemory.write addr width v : Transaction Ram Unit).perform ram
      = match ram.write addr width v with
        | .ok ram' => (.ok (), ram')
        | .error fault => (.error fault, ram) := rfl

end Ram

namespace LoadStore

/-- A load byte by byte only reads. -/
theorem readOnly_readBytes (addr : Word) (width : Width) :
    ReadOnly (readBytes addr width : Transaction Ram Word) := by
  apply readOnly_foldlM
  intro acc i
  exact readOnly_bind (Ram.readOnly_read _ _) (fun b => readOnly_pure _)

/-- A load leaves the RAM as it found it. -/
theorem perform_load (policy : AlignmentPolicy) (addr : Word) (width : Width) (signed : Bool)
    (ram : Ram) :
    ((load policy addr width signed : Transaction Ram Word).perform ram).2 = ram := by
  revert ram
  show ReadOnly (load policy addr width signed)
  unfold load
  rcases issue policy .read addr width with fault | a | a
  · exact readOnly_throw fault
  · exact readOnly_bind (Ram.readOnly_read a width) (fun _ => readOnly_pure _)
  · exact readOnly_bind (readOnly_readBytes a width) (fun _ => readOnly_pure _)

end LoadStore

/-! ## §3. Stores. -/

namespace Ram

/-- The other RAM backs the same addresses. -/
def SameBounds (ram ram' : Ram) : Prop :=
  ram'.base = ram.base ∧ ram'.size = ram.size

/-- Within the same bounds the same accesses fit. -/
theorem SameBounds.contains_eq {ram ram' : Ram} (h : SameBounds ram ram') (addr : Word)
    (width : Width) : ram'.contains addr width = ram.contains addr width := by
  unfold contains offset?
  rw [h.1, h.2]

/-- Bytes that are set move no bound. -/
theorem sameBounds_foldl_setByte (o : Nat) (v : Nat → Byte) :
    ∀ (l : List Nat) (ram : Ram),
      SameBounds ram (l.foldl (fun r i => r.setByte (o + i) (v i)) ram)
  | [], _ => ⟨rfl, rfl⟩
  | i :: l, ram => sameBounds_foldl_setByte o v l (ram.setByte (o + i) (v i))

/-- A write that is backed succeeds, and the RAM keeps its place. -/
theorem write_of_contains {ram : Ram} {addr : Word} {width : Width}
    (h : ram.contains addr width = true) (v : Word) :
    ∃ ram', ram.write addr width v = .ok ram' ∧ SameBounds ram ram' := by
  obtain ⟨o, ho⟩ := Option.isSome_iff_exists.mp h
  refine ⟨_, ?_, sameBounds_foldl_setByte o v.byte (List.range width.bytes) ram⟩
  unfold write
  rw [ho]

end Ram

namespace LoadStore

/-- Asking for bytes one by one answers whether all of them are backed. -/
theorem perform_checks (addr : Word) (fault : Fault) (ram : Ram) :
    ∀ l : List Nat,
      (l.forM fun i => do
          unless ← DataMemory.contains (addr + BitVec.ofNat 32 i) .byte do
            throw fault : Transaction Ram Unit).perform ram
        = (if l.all fun i => ram.contains (addr + BitVec.ofNat 32 i) .byte then .ok ()
            else .error fault, ram)
  | [] => rfl
  | i :: l => by
      rw [List.forM, perform_bind, perform_bind, Ram.perform_contains, List.all_cons]
      cases ram.contains (addr + BitVec.ofNat 32 i) .byte with
      | false => rfl
      | true => exact perform_checks addr fault ram l

/-- Writing bytes one by one succeeds if all of them are backed. -/
theorem perform_writes (addr : Word) (v : Nat → Word) :
    ∀ (l : List Nat) (ram : Ram),
      (∀ i ∈ l, ram.contains (addr + BitVec.ofNat 32 i) .byte = true) →
      ∃ ram', (l.forM fun i => DataMemory.write (addr + BitVec.ofNat 32 i) .byte (v i) :
          Transaction Ram Unit).perform ram = (.ok (), ram')
  | [], ram, _ => ⟨ram, rfl⟩
  | i :: l, ram, h => by
      obtain ⟨ram', hw, same⟩ := Ram.write_of_contains (h i List.mem_cons_self) (v i)
      have hl : ∀ j ∈ l, ram'.contains (addr + BitVec.ofNat 32 j) .byte = true := by
        intro j hj
        rw [same.contains_eq]
        exact h j (List.mem_cons_of_mem i hj)
      obtain ⟨last, hlast⟩ := perform_writes addr v l ram' hl
      refine ⟨last, ?_⟩
      rw [List.forM, perform_bind, Ram.perform_write, hw]
      exact hlast

/-- A store byte by byte that is refused changes nothing. -/
theorem perform_writeBytes_error {addr : Word} {width : Width} {v : Word} {fault : Fault}
    {ram ram' : Ram}
    (h : (writeBytes addr width v : Transaction Ram Unit).perform ram = (.error fault, ram')) :
    ram' = ram := by
  unfold writeBytes at h
  rw [perform_bind, perform_checks] at h
  cases hall : (offsets width).all fun i => ram.contains (addr + BitVec.ofNat 32 i) .byte with
  | false =>
      rw [hall] at h
      exact (congrArg Prod.snd h).symm
  | true =>
      obtain ⟨last, hlast⟩ := perform_writes addr (fun i => (v.byte i).setWidth 32)
        (offsets width) ram (List.all_eq_true.mp hall)
      rw [hall] at h
      exact absurd ((congrArg Prod.fst h).symm.trans (congrArg Prod.fst hlast)) (by simp)

/-- **A store that is refused changes nothing**, under any policy. -/
theorem perform_store_error {policy : AlignmentPolicy} {addr : Word} {width : Width} {v : Word}
    {fault : Fault} {ram ram' : Ram}
    (h : (store policy addr width v : Transaction Ram Unit).perform ram = (.error fault, ram')) :
    ram' = ram := by
  unfold store at h
  -- refused, whole or byte by byte: nothing is written before all is known to fit
  rcases hi : issue policy .write addr width with f | a | a
  · rw [hi] at h
    exact (congrArg Prod.snd h).symm
  · rw [hi] at h
    have hw : (DataMemory.write a width v : Transaction Ram Unit).perform ram
        = (.error fault, ram') := h
    rw [Ram.perform_write] at hw
    cases hr : ram.write a width v with
    | ok r =>
        rw [hr] at hw
        exact absurd (congrArg Prod.fst hw) (by simp)
    | error f =>
        rw [hr] at hw
        exact (congrArg Prod.snd hw).symm
  · rw [hi] at h
    exact perform_writeBytes_error h

end LoadStore

end FiveStage
