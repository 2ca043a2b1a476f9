/-
  FiveStage.Proofs.ByteAccess
  ───────────────────────────
  **LOADS AND STORES, BYTE BY BYTE.**

  An access is issued whole or byte by byte, at the address that was asked
  for or at the aligned one below.  The bytes do not show which:

      perform_load_of_grants     a load reads the bytes from `start` on
      perform_store              a store puts the same bytes there

  and each of them is refused exactly where the other is.
-/
import FiveStage.Proofs.RamBytes

namespace FiveStage

namespace LoadStore

variable {policy : AlignmentPolicy} {addr : Word} {width : Width} {ram : Ram}

/-! ## §1. How an access is issued. -/

/-- Where the bytes of an access begin. -/
def start : AlignmentPolicy → Word → Width → Word
  | .alignDown, addr, width => width.alignDown addr
  | _, addr, _ => addr

/-- The policy has nothing against the address. -/
def Tolerates (policy : AlignmentPolicy) (addr : Word) (width : Width) : Prop :=
  width.isAligned addr = true ∨ policy ≠ .fault

instance : Decidable (Tolerates policy addr width) :=
  inferInstanceAs (Decidable (_ ∨ _))

/-- The three ways in which an access is issued. -/
inductive Issued (policy : AlignmentPolicy) (kind : AccessKind) (addr : Word) (width : Width) :
    Except Fault Issue → Prop where
  | refused (no : ¬Tolerates policy addr width) :
      Issued policy kind addr width (.error (.misaligned kind addr width))
  | whole (yes : Tolerates policy addr width)
      (aligned : width.isAligned (start policy addr width) = true) :
      Issued policy kind addr width (.ok (.whole (start policy addr width)))
  | bytewise (yes : Tolerates policy addr width) :
      Issued policy kind addr width (.ok (.bytewise (start policy addr width)))

/-- The three ways in which an access can be issued are all there are. -/
theorem issued (policy : AlignmentPolicy) (kind : AccessKind) (addr : Word) (width : Width) :
    Issued policy kind addr width (issue policy kind addr width) := by
  by_cases h : width.isAligned addr = true
  · -- aligning down an aligned address leaves it where it is
    have hstart : start policy addr width = addr := by
      cases policy with
      | fault | permit => rfl
      | alignDown => exact Width.alignDown_of_isAligned h
    have hissue : issue policy kind addr width = .ok (.whole (start policy addr width)) := by
      simp [issue, h, hstart]
    rw [hissue]
    exact .whole (Or.inl h) (by rw [hstart]; exact h)
  · unfold issue
    rw [if_neg h]
    cases policy with
    | fault => exact .refused (by simp [Tolerates, h])
    | alignDown => exact .whole (Or.inr (by decide)) (Width.isAligned_alignDown width addr)
    | permit => exact .bytewise (Or.inr (by decide))

/-! ## §2. Byte by byte. -/

/-- Read one more byte of an access and put it above the others. -/
def readByte (a : Word) (acc : Word) (i : Nat) : Transaction Ram Word := do
  let b ← DataMemory.read (a + BitVec.ofNat 32 i) .byte
  return acc ||| ((b.setWidth 8).setWidth 32 <<< (8 * i))

theorem readBytes_eq (a : Word) (width : Width) :
    readBytes a width = (List.range width.bytes).foldlM (readByte a) 0 := rfl

/-- Reading one more byte puts it above those read so far, or faults at that
byte. -/
theorem perform_readByte (ram : Ram) (a acc : Word) (i : Nat) :
    (readByte a acc i).perform ram
      = (if ram.Backs (a + BitVec.ofNat 32 i) then
            .ok (acc ||| (ram.byteAt (ram.slot (a + BitVec.ofNat 32 i))).setWidth 32 <<< (8 * i))
          else .error (.outOfRange .read (a + BitVec.ofNat 32 i) .byte), ram) := by
  unfold readByte
  rw [Transaction.perform_bind, Ram.perform_read_byte]
  by_cases h : ram.Backs (a + BitVec.ofNat 32 i)
  · simp [h]
  · simp [h]

/-- Reading byte by byte when all bytes are there. -/
theorem perform_readBytes {a : Word} {n : Nat} (hall : ram.Covers a n) :
    ((List.range n).foldlM (readByte a) 0).perform ram = (.ok (ram.wordAt a n), ram) := by
  induction n with
  | zero => rfl
  | succ n ih =>
      have hn := hall n (Nat.lt_succ_self n)
      rw [List.range_succ, List.foldlM_append, Transaction.perform_bind,
        ih (fun i hi => hall i (Nat.lt_succ_of_lt hi))]
      simp only [List.foldlM_cons, List.foldlM_nil, Transaction.perform_bind, perform_readByte,
        if_pos hn, Transaction.perform_pure, Ram.wordAt_succ]

/-- Reading byte by byte comes to an end at the first byte that is missing. -/
theorem perform_readBytes_error {a : Word} {n : Nat} (hnot : ¬ram.Covers a n) :
    ∃ i < n, ram.Covers a i ∧ ¬ram.Backs (a + BitVec.ofNat 32 i)
      ∧ ((List.range n).foldlM (readByte a) 0).perform ram
        = (.error (.outOfRange .read (a + BitVec.ofNat 32 i) .byte), ram) := by
  induction n with
  | zero => exact absurd (fun i hi => absurd hi (Nat.not_lt_zero i)) hnot
  | succ n ih =>
      rw [List.range_succ, List.foldlM_append, Transaction.perform_bind]
      -- the first byte that is missing is the last of them, or one that is read before it
      by_cases hall : ram.Covers a n
      · have hn : ¬ram.Backs (a + BitVec.ofNat 32 n) := by
          intro hn
          apply hnot
          intro i hi
          rcases Nat.lt_succ_iff_lt_or_eq.mp hi with hlt | rfl
          · exact hall i hlt
          · exact hn
        refine ⟨n, Nat.lt_succ_self n, hall, hn, ?_⟩
        rw [perform_readBytes hall]
        simp only [List.foldlM_cons, Transaction.perform_bind, perform_readByte, if_neg hn]
      · obtain ⟨i, hi, hbefore, hmissing, hfault⟩ := ih hall
        rw [hfault]
        exact ⟨i, Nat.lt_succ_of_lt hi, hbefore, hmissing, rfl⟩

/-- Writing byte by byte when all bytes are there. -/
theorem perform_writes_eq (a : Word) (v : Nat → Word) :
    ∀ (l : List Nat) (ram : Ram), (∀ i ∈ l, ram.Backs (a + BitVec.ofNat 32 i)) →
      (l.forM fun i =>
          DataMemory.write (a + BitVec.ofNat 32 i) .byte (v i) : Transaction Ram Unit).perform ram
        = (.ok (), l.foldl
            (fun r i => r.setByte (ram.slot (a + BitVec.ofNat 32 i)) ((v i).byte 0)) ram)
  | [], _, _ => rfl
  | i :: l, ram, h => by
      have hi := h i List.mem_cons_self
      rw [List.forM, Transaction.perform_bind, Ram.perform_write_byte hi]
      -- the byte written moves neither the base nor the size
      exact perform_writes_eq a v l (ram.setByte _ _) (fun j hj => h j (List.mem_cons_of_mem i hj))

/-- A store byte by byte looks at all bytes before it writes one. -/
theorem perform_writeBytes (ram : Ram) (a : Word) (width : Width) (v : Word) :
    (writeBytes a width v).perform ram
      = if ram.Covers a width.bytes then (.ok (), ram.put a width.bytes v)
        else (.error (.outOfRange .write a width), ram) := by
  have hchecks : ((offsets width).all fun i => ram.contains (a + BitVec.ofNat 32 i) .byte) = true
      ↔ ram.Covers a width.bytes := by
    simp [offsets, Ram.contains_byte, Ram.Covers]
  unfold writeBytes
  rw [Transaction.perform_bind, perform_checks]
  by_cases hall : ram.Covers a width.bytes
  · rw [if_pos hall, if_pos (hchecks.mpr hall)]
    have hmem : ∀ i ∈ offsets width, ram.Backs (a + BitVec.ofNat 32 i) :=
      fun i hi => hall i (List.mem_range.mp hi)
    show ((offsets width).forM _ : Transaction Ram Unit).perform ram = _
    rw [perform_writes_eq a _ (offsets width) ram hmem]
    simp only [Word.byte_setWidth]
    rfl
  · rw [if_neg hall, if_neg (mt hchecks.mp hall)]

/-! ## §3. Loads and stores. -/

/-- The access is performed: the policy tolerates it, and every byte of it is
in the RAM. -/
def Grants (policy : AlignmentPolicy) (ram : Ram) (addr : Word) (width : Width) : Prop :=
  Tolerates policy addr width ∧ ram.Covers (start policy addr width) width.bytes

instance : Decidable (Grants policy ram addr width) :=
  inferInstanceAs (Decidable (_ ∧ _))

/-- A load that is granted gives the extended bytes. -/
theorem perform_load_of_grants (h : Grants policy ram addr width) (signed : Bool) :
    (load policy addr width signed).perform ram
      = (.ok (extend width signed (ram.wordAt (start policy addr width) width.bytes)), ram) := by
  have hi := issued policy .read addr width
  unfold load
  generalize issue policy .read addr width = issue at hi
  cases hi with
  | refused no => exact absurd h.1 no
  | whole _ aligned =>
      simp only [Transaction.perform_bind, Ram.perform_read_aligned aligned, if_pos h.2,
        Transaction.perform_pure]
  | bytewise =>
      simp only [Transaction.perform_bind, readBytes_eq, perform_readBytes h.2,
        Transaction.perform_pure]

/-- A load that is not granted faults, and leaves the memory. -/
theorem perform_load_of_not_grants (h : ¬Grants policy ram addr width) (signed : Bool) :
    ∃ fault, (load policy addr width signed).perform ram = (.error fault, ram) := by
  have hi := issued policy .read addr width
  unfold load
  generalize issue policy .read addr width = issue at hi
  cases hi with
  | refused => exact ⟨_, rfl⟩
  | whole yes aligned =>
      have hnot : ¬ram.Covers (start policy addr width) width.bytes := fun hall => h ⟨yes, hall⟩
      simp only [Transaction.perform_bind, Ram.perform_read_aligned aligned, if_neg hnot]
      exact ⟨_, rfl⟩
  | bytewise yes =>
      have hnot : ¬ram.Covers (start policy addr width) width.bytes := fun hall => h ⟨yes, hall⟩
      obtain ⟨i, -, -, -, hfault⟩ := perform_readBytes_error hnot
      simp only [Transaction.perform_bind, readBytes_eq, hfault]
      exact ⟨_, rfl⟩

/-- What a store that is not performed is refused with. -/
def storeFault (policy : AlignmentPolicy) (addr : Word) (width : Width) : Fault :=
  if Tolerates policy addr width then .outOfRange .write (start policy addr width) width
  else .misaligned .write addr width

/-- A store puts all its bytes if it is granted, else none. -/
theorem perform_store (policy : AlignmentPolicy) (addr : Word) (width : Width) (v : Word)
    (ram : Ram) :
    (store policy addr width v).perform ram
      = if Grants policy ram addr width then
          (.ok (), ram.put (start policy addr width) width.bytes v)
        else (.error (storeFault policy addr width), ram) := by
  have hi := issued policy .write addr width
  unfold store Grants storeFault
  generalize issue policy .write addr width = issue at hi
  cases hi with
  | refused no => simp [no]
  | whole yes aligned =>
      show (DataMemory.write _ _ _ : Transaction Ram Unit).perform ram = _
      simp only [Ram.perform_write_aligned aligned, yes, true_and, if_true]
  | bytewise yes =>
      show (writeBytes _ _ _ : Transaction Ram Unit).perform ram = _
      simp only [perform_writeBytes, yes, true_and, if_true]

/-- A load succeeds exactly if it is granted. -/
theorem load_ok_iff (policy : AlignmentPolicy) (ram : Ram) (addr : Word) (width : Width)
    (signed : Bool) :
    (∃ w, ((load policy addr width signed).perform ram).1 = .ok w)
      ↔ Grants policy ram addr width := by
  constructor
  · rintro ⟨w, hw⟩
    by_contra h
    obtain ⟨fault, hfault⟩ := perform_load_of_not_grants h signed
    rw [hfault] at hw
    cases hw
  · intro h
    exact ⟨_, congrArg Prod.fst (perform_load_of_grants h signed)⟩

theorem store_ok_iff (policy : AlignmentPolicy) (ram : Ram) (addr : Word) (width : Width)
    (v : Word) :
    ((store policy addr width v).perform ram).1 = .ok () ↔ Grants policy ram addr width := by
  rw [perform_store]
  by_cases h : Grants policy ram addr width <;> simp [h]

/-- **An access is performed completely or not at all, and exactly where every
byte of it is in the RAM.**  A load and a store of the same bytes succeed
together: when the access is aligned or need not be, and the RAM backs each of
its addresses.  A store that fails leaves the RAM as it was; one that succeeds
puts the bytes of the value at these addresses, the lowest first, and leaves
every other byte as it was. -/
theorem access_all_or_nothing (ram : Ram) (policy : AlignmentPolicy) (addr : Word)
    (width : Width) (v : Word) (signed : Bool) :
    (((store policy addr width v).perform ram).1 = .ok ()
        ↔ ∃ w, ((load policy addr width signed).perform ram).1 = .ok w)
      ∧ (((store policy addr width v).perform ram).1 = .ok ()
        ↔ (width.isAligned addr = true ∨ policy ≠ .fault)
          ∧ ∀ i < width.bytes, ram.Backs (start policy addr width + BitVec.ofNat 32 i))
      ∧ (∀ fault ram', (store policy addr width v).perform ram = (.error fault, ram') →
          ram' = ram)
      ∧ ∀ ram', (store policy addr width v).perform ram = (.ok (), ram') →
          ram'.base = ram.base ∧ ram'.size = ram.size
            ∧ (∀ i < width.bytes,
                ram'.byte? (start policy addr width + BitVec.ofNat 32 i) = some (v.byte i))
            ∧ ∀ o, (∀ i < width.bytes,
                  o ≠ ram.slot (start policy addr width + BitVec.ofNat 32 i)) →
                ram'.byteAt o = ram.byteAt o := by
  refine ⟨?_, store_ok_iff policy ram addr width v, ?_, ?_⟩
  · rw [store_ok_iff, load_ok_iff]
  · intro fault ram' h
    exact perform_store_error h
  · intro ram' hs
    have h : Grants policy ram addr width :=
      (store_ok_iff policy ram addr width v).mp (congrArg Prod.fst hs)
    rw [perform_store, if_pos h] at hs
    cases hs
    obtain ⟨hbase, hsize⟩ := Ram.sameBounds_put ram (start policy addr width) width.bytes v
    refine ⟨hbase, hsize, ?_, fun o ho => Ram.byteAt_put_of_ne ho⟩
    intro i hi
    have h4 := width.bytes_le
    have hdist : (start policy addr width + BitVec.ofNat 32 i - start policy addr width).toNat
        = i := by
      rw [BitVec.add_comm, BitVec.add_sub_cancel, BitVec.toNat_ofNat]
      omega
    rw [Ram.byte?_put h4 h.2, hdist, if_pos hi]

/-- Under `permit`, what begins at the last address goes on at the first. -/
example : ((store .permit 0xFFFFFFFF .half 0xAABB).perform
    (⟨0, 2 ^ 32, {}⟩ : Ram)).2.byte? 0 = some 0xAA := by
  decide +kernel

end LoadStore

end FiveStage
