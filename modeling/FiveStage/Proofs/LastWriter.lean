/-
  FiveStage.Proofs.LastWriter
  ───────────────────────────
  **DATA MEMORY IS A MAP OF BYTES WHOSE LAST WRITER WINS.**

  A sequence of loads and stores is served one after the other, and the log
  says how each of them ended.  The log alone tells what the memory holds:

      byte?_after     an address holds the byte of the last store in the log
                      that wrote there, or what it held before

  So a load can be checked against the log, whatever the widths, alignments
  and policies of the stores before it, and however they overlap.
-/
import FiveStage.Proofs.ByteAccess

namespace FiveStage

/-! ## §1. Extended values. -/

/-- The low bytes of a word, extended from that width. -/
def Width.extended (width : Width) (signed : Bool) (v : Word) : Word :=
  if signed then (v.setWidth (8 * width.bytes)).signExtend 32
  else (v.setWidth (8 * width.bytes)).setWidth 32

theorem LoadStore.extend_eq (width : Width) (signed : Bool) (raw : Word) :
    extend width signed raw = width.extended signed raw := by
  cases width with
  | byte | half => cases signed <;> rfl
  | word =>
      have hsigned : (raw.setWidth 32).signExtend 32 = raw := by
        rw [BitVec.setWidth_eq, BitVec.signExtend_eq]
      have hunsigned : (raw.setWidth 32).setWidth 32 = raw := by
        rw [BitVec.setWidth_eq, BitVec.setWidth_eq]
      cases signed with
      | true => exact hsigned.symm
      | false => exact hunsigned.symm

/-- The low bytes of a word, put together again, are its low bits. -/
theorem getLsbD_littleEndian (v : Word) (n j : Nat) :
    (littleEndian ((List.range n).map v.byte)).getLsbD j = (decide (j < 8 * n) && v.getLsbD j) := by
  induction n with
  | zero => simp [littleEndian]
  | succ n ih =>
      rw [List.range_succ, List.map_append, List.map_singleton, littleEndian_snoc,
        BitVec.getLsbD_or, ih, List.length_map, List.length_range, BitVec.getLsbD_shiftLeft,
        BitVec.getLsbD_setWidth, Word.getLsbD_byte]
      by_cases hold : j < 8 * n
      · have hnew : j < 8 * (n + 1) := by omega
        simp [hold, hnew]
      · have hsub : 8 * n + (j - 8 * n) = j := by omega
        rw [hsub]
        by_cases h32 : j < 32
        · have hnew : j - 8 * n < 8 ↔ j < 8 * (n + 1) := by omega
          have hless : j - 8 * n < 32 := by omega
          simp [hold, h32, hnew, hless]
        · have htop : v.getLsbD j = false := BitVec.getLsbD_of_ge v j (by omega)
          simp [htop]

/-- Extension to a width reads the bytes of that width only. -/
theorem Width.extended_littleEndian (width : Width) (signed : Bool) (v : Word) :
    width.extended signed (littleEndian ((List.range width.bytes).map v.byte))
      = width.extended signed v := by
  have hlow : (littleEndian ((List.range width.bytes).map v.byte)).setWidth (8 * width.bytes)
      = v.setWidth (8 * width.bytes) := by
    apply BitVec.eq_of_getLsbD_eq
    intro j hj
    rw [BitVec.getLsbD_setWidth, BitVec.getLsbD_setWidth, getLsbD_littleEndian]
    simp [hj]
  unfold extended
  rw [hlow]

/-! ## §2. Sequences of loads and stores. -/

/-- A load or a store, and the policy it is made under. -/
inductive DataOp where
  | load (policy : AlignmentPolicy) (addr : Word) (width : Width) (signed : Bool)
  | store (policy : AlignmentPolicy) (addr : Word) (width : Width) (v : Word)

/-- A load answers the word that was loaded, a store nothing. -/
def DataOp.transaction : DataOp → Transaction Ram (Option Word)
  | .load policy addr width signed => do
      return some (← LoadStore.load policy addr width signed)
  | .store policy addr width v => do
      LoadStore.store policy addr width v
      return none

/-- One line of the log. -/
structure Served where
  op : DataOp
  outcome : Except Fault (Option Word)

/-- The byte that was written at an address, if one was. -/
def Served.wrote? (s : Served) (x : Word) : Option Byte :=
  match s.op, s.outcome with
  | .store policy addr width v, .ok _ =>
      let i := (x - LoadStore.start policy addr width).toNat
      if i < width.bytes then some (v.byte i) else none
  | _, _ => none

/-- The last byte that was written at an address, if one was. -/
def lastWritten (log : List Served) (x : Word) : Option Byte :=
  log.reverse.findSome? (·.wrote? x)

theorem lastWritten_cons (s : Served) (log : List Served) (x : Word) :
    lastWritten (s :: log) x = (lastWritten log x).or (s.wrote? x) := by
  unfold lastWritten
  rw [List.reverse_cons, List.findSome?_append, List.findSome?_singleton]

namespace Ram

/-- The line of the log for one operation. -/
def serve (ram : Ram) (op : DataOp) : Served :=
  ⟨op, (op.transaction.perform ram).1⟩

/-- The RAM after a sequence of operations. -/
def after (ram : Ram) (ops : List DataOp) : Ram :=
  ops.foldl (fun r op => (op.transaction.perform r).2) ram

/-- How each of them ended. -/
def log : Ram → List DataOp → List Served
  | _, [] => []
  | ram, op :: ops => ram.serve op :: (op.transaction.perform ram).2.log ops

theorem take_log (ram : Ram) (ops : List DataOp) (k : Nat) :
    (ram.log ops).take k = ram.log (ops.take k) := by
  induction ops generalizing ram k with
  | nil => simp [log]
  | cons op ops ih =>
      cases k with
      | zero => rfl
      | succ k =>
          show ram.serve op :: ((op.transaction.perform ram).2.log ops).take k = _
          rw [ih]
          rfl

/-- Operation `k` is served by the memory that the `k` operations before it
leave. -/
theorem getElem?_log (ram : Ram) (ops : List DataOp) (k : Nat) :
    (ram.log ops)[k]? = ops[k]?.map (ram.after (ops.take k)).serve := by
  induction ops generalizing ram k with
  | nil => simp [log]
  | cons op ops ih =>
      cases k with
      | zero => rfl
      | succ k =>
          show ((op.transaction.perform ram).2.log ops)[k]? = _
          rw [ih]
          rfl

theorem after_take_succ {ops : List DataOp} {k : Nat} {op : DataOp} (h : ops[k]? = some op)
    (ram : Ram) :
    ram.after (ops.take (k + 1)) = (op.transaction.perform (ram.after (ops.take k))).2 := by
  unfold after
  rw [List.take_add_one, h, List.foldl_append]
  rfl

/-! ## §3. The log tells what the RAM holds. -/

open LoadStore

/-- A load leaves the memory as it was. -/
theorem perform_load_op (ram : Ram) (policy : AlignmentPolicy) (addr : Word) (width : Width)
    (signed : Bool) :
    (DataOp.load policy addr width signed).transaction.perform ram
      = (((load policy addr width signed).perform ram).1.map some, ram) := by
  have hram := perform_load policy addr width signed ram
  show (load policy addr width signed >>= fun w => pure (some w)).perform ram = _
  rw [Transaction.perform_bind]
  rcases h : (load policy addr width signed).perform ram with ⟨_ | w, ram'⟩
  · rw [h] at hram
    exact congrArg (Prod.mk _) hram
  · rw [h] at hram
    exact congrArg (Prod.mk _) hram

/-- A store that is granted puts its bytes; any other leaves the memory as it
was. -/
theorem perform_store_op (ram : Ram) (policy : AlignmentPolicy) (addr : Word) (width : Width)
    (v : Word) :
    (DataOp.store policy addr width v).transaction.perform ram
      = if Grants policy ram addr width then
          (.ok none, ram.put (start policy addr width) width.bytes v)
        else (.error (storeFault policy addr width), ram) := by
  show (store policy addr width v >>= fun _ => pure none).perform ram = _
  rw [Transaction.perform_bind, perform_store]
  by_cases h : Grants policy ram addr width
  · rw [if_pos h, if_pos h]
    rfl
  · rw [if_neg h, if_neg h]

/-- One operation changes what its line of the log says. -/
theorem byte?_transaction (ram : Ram) (op : DataOp) (x : Word) :
    (op.transaction.perform ram).2.byte? x = ((ram.serve op).wrote? x).or (ram.byte? x) := by
  unfold serve
  cases op with
  | load policy addr width signed => rw [perform_load_op]; rfl
  | store policy addr width v =>
      rw [perform_store_op]
      by_cases h : Grants policy ram addr width
      · rw [if_pos h]
        show (ram.put (start policy addr width) width.bytes v).byte? x = _
        rw [byte?_put width.bytes_le h.2]
        show _ = Option.or (if _ then _ else _) _
        split <;> rfl
      · rw [if_neg h]
        rfl

/-- **An address holds the last byte that was written there**, or what it held
before. -/
theorem byte?_after (ram : Ram) (ops : List DataOp) (x : Word) :
    (ram.after ops).byte? x = (lastWritten (ram.log ops) x).or (ram.byte? x) := by
  induction ops generalizing ram with
  | nil => rfl
  | cons op ops ih =>
      show ((op.transaction.perform ram).2.after ops).byte? x = _
      rw [ih, byte?_transaction, log, lastWritten_cons, Option.or_assoc]

/-! ## §4. Loads of a sequence. -/

/-- What a load of these bytes reads is there at each of the addresses. -/
theorem byte?_of_covers {ram : Ram} {a : Word} {n : Nat} (h : ram.Covers a n) :
    ((List.range n).map fun i => ram.byte? (a + BitVec.ofNat 32 i))
      = ((List.range n).map fun i => ram.byteAt (ram.slot (a + BitVec.ofNat 32 i))).map some := by
  rw [List.map_map]
  apply List.map_congr_left
  intro i hi
  rw [byte?_eq, if_pos (h i (List.mem_range.mp hi))]
  rfl

/-- Bytes that were put are read back, in their order. -/
theorem wordAt_put {ram : Ram} {a : Word} {n : Nat} (hn : n ≤ 4) (h : ram.Covers a n) (v : Word) :
    (ram.put a n v).wordAt a n = littleEndian ((List.range n).map v.byte) := by
  unfold wordAt
  congr 1
  apply List.map_congr_left
  intro i hi
  rw [(sameBounds_put ram a n v).slot_eq]
  exact byteAt_put hn h (List.mem_range.mp hi)

/-- A load of what a store has just written, at the same address and width,
gives the value stored, cut to the width and extended. -/
theorem load_after_store {ram : Ram} {policy : AlignmentPolicy} {addr : Word} {width : Width}
    (h : Grants policy ram addr width) (signed : Bool) (v : Word) :
    ((load policy addr width signed).perform
        (ram.put (start policy addr width) width.bytes v)).1 = .ok (width.extended signed v) := by
  have same := sameBounds_put ram (start policy addr width) width.bytes v
  have hput : Grants policy (ram.put (start policy addr width) width.bytes v) addr width :=
    ⟨h.1, fun i hi => (same.backs_iff _).mpr (h.2 i hi)⟩
  rw [perform_load_of_grants hput, wordAt_put width.bytes_le h.2, extend_eq,
    Width.extended_littleEndian]

/-- A load of the sequence is performed on the RAM that the operations before
it left. -/
theorem logged_load {ram : Ram} {ops : List DataOp} {k : Nat} {policy : AlignmentPolicy}
    {addr : Word} {width : Width} {signed : Bool} {outcome : Except Fault (Option Word)}
    (h : (ram.log ops)[k]? = some ⟨.load policy addr width signed, outcome⟩) :
    outcome = ((load policy addr width signed).perform (ram.after (ops.take k))).1.map some := by
  rw [getElem?_log] at h
  obtain ⟨op, -, hserve⟩ := Option.map_eq_some_iff.mp h
  obtain ⟨hop, hout⟩ := Served.mk.inj hserve
  rw [hop, perform_load_op] at hout
  exact hout.symm

/-- A store is served by the memory before it, and leaves its bytes to the operations
after it. -/
theorem logged_store {ram : Ram} {ops : List DataOp} {k : Nat} {policy : AlignmentPolicy}
    {addr : Word} {width : Width} {v : Word}
    (h : (ram.log ops)[k]? = some ⟨.store policy addr width v, .ok none⟩) :
    Grants policy (ram.after (ops.take k)) addr width
      ∧ ram.after (ops.take (k + 1))
        = (ram.after (ops.take k)).put (start policy addr width) width.bytes v := by
  rw [getElem?_log] at h
  obtain ⟨op, hk, hserve⟩ := Option.map_eq_some_iff.mp h
  obtain ⟨hop, hout⟩ := Served.mk.inj hserve
  rw [after_take_succ hk]
  rw [hop, perform_store_op] at hout ⊢
  by_cases hg : Grants policy (ram.after (ops.take k)) addr width
  · exact ⟨hg, by rw [if_pos hg]⟩
  · rw [if_neg hg] at hout
    cases hout

/-- **A load returns what was written last.**  In every sequence of loads and
stores, with any addresses, widths and policies, a load that succeeds returns
its bytes put together, the first lowest, and extended from its width: each of
them is the one that the last successful store to its address left there, or
the one that was there at first.  In particular a load that directly follows a
successful store of the same bytes succeeds, and returns the value stored,
extended from that width. -/
theorem last_writer_wins (ram : Ram) (ops : List DataOp) :
    (∀ k policy addr width signed w,
        (ram.log ops)[k]? = some ⟨.load policy addr width signed, .ok (some w)⟩ →
        ∃ bytes : List Byte,
          ((List.range width.bytes).map fun i =>
              (lastWritten ((ram.log ops).take k)
                  (start policy addr width + BitVec.ofNat 32 i)).or
                (ram.byte? (start policy addr width + BitVec.ofNat 32 i))) = bytes.map some
            ∧ w = width.extended signed (littleEndian bytes))
      ∧ ∀ k policy addr width v signed outcome,
          (ram.log ops)[k]? = some ⟨.store policy addr width v, .ok none⟩ →
          (ram.log ops)[k + 1]? = some ⟨.load policy addr width signed, outcome⟩ →
          outcome = .ok (some (width.extended signed v)) := by
  constructor
  · intro k policy addr width signed w hk
    have hload := logged_load hk
    -- a load that is not granted has no value
    have hg : Grants policy (ram.after (ops.take k)) addr width := by
      by_contra hg
      obtain ⟨fault, hfault⟩ := perform_load_of_not_grants hg signed
      rw [hfault] at hload
      cases hload
    rw [perform_load_of_grants hg, extend_eq] at hload
    refine ⟨_, ?_, Option.some.inj (Except.ok.inj hload)⟩
    -- each byte it reads is the last one written there, or there from the start
    rw [take_log, ← byte?_of_covers hg.2]
    apply List.map_congr_left
    intro i _
    exact (byte?_after ram (ops.take k) _).symm
  · intro k policy addr width v signed outcome hstore hload
    obtain ⟨hg, hput⟩ := logged_store hstore
    rw [logged_load hload, hput, load_after_store hg]
    rfl

/-- A word from one writer and a byte from the next, and a store in between
that was refused. -/
example : ((log ⟨0, 8, {}⟩ [.store .permit 1 .word 0xAABBCCDD, .store .fault 3 .half 0,
    .store .alignDown 2 .byte 0x80, .load .permit 1 .half true]).map (·.outcome))[3]?
      = some (.ok (some 0xFFFF80DD)) := by
  decide +kernel

end Ram

end FiveStage
