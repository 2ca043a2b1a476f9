/-
  FiveStage.Proofs.RamBytes
  ─────────────────────────
  **THE BYTES OF A RAM BY THEIR ADDRESSES.**

  A RAM answers for single addresses, those it backs, and what it does with
  more than one byte at a time can be said byte by byte:

      offset?_aligned     one range check stands for a check of every byte
      perform_read_aligned, perform_write_aligned
      byte?_put           what is put somewhere is there, and nothing else moved

  The first is due to alignment.  An access that is not aligned may run past
  the last address of the address space, and go on at the first.
-/
import FiveStage.Proofs.LoadStore
import Mathlib.Algebra.Group.Nat.Defs
import Mathlib.Data.List.Basic

namespace FiveStage

/-! ## §1. Aligned addresses. -/

/-- Clearing the low bits is shifting them out. -/
theorem and_not_mask (a : Word) (k : Nat) :
    a &&& ~~~BitVec.ofNat 32 (2 ^ k - 1) = a >>> k <<< k := by
  apply BitVec.eq_of_getLsbD_eq
  intro i hi
  rw [BitVec.getLsbD_and, BitVec.getLsbD_not, BitVec.getLsbD_ofNat, Nat.testBit_two_pow_sub_one,
    BitVec.getLsbD_shiftLeft, BitVec.getLsbD_ushiftRight]
  by_cases h : i < k
  · simp [h]
  · simp [h, hi, Nat.add_sub_cancel' (Nat.le_of_not_lt h)]

namespace Width

variable {width : Width} {a : Word}

/-- Aligning down rounds to the multiple of the width below. -/
theorem toNat_alignDown (width : Width) (a : Word) :
    (width.alignDown a).toNat = a.toNat / width.bytes * width.bytes := by
  have key : ∀ k, (a &&& ~~~BitVec.ofNat 32 (2 ^ k - 1)).toNat = a.toNat / 2 ^ k * 2 ^ k := by
    intro k
    rw [and_not_mask, BitVec.toNat_shiftLeft, BitVec.toNat_ushiftRight, Nat.shiftRight_eq_div_pow,
      Nat.shiftLeft_eq]
    exact Nat.mod_eq_of_lt (Nat.lt_of_le_of_lt (Nat.div_mul_le_self _ _) a.isLt)
  cases width with
  | byte => exact key 0
  | half => exact key 1
  | word => exact key 2

/-- An address is aligned to a width if it is a multiple of it. -/
theorem isAligned_iff : width.isAligned a = true ↔ a.toNat % width.bytes = 0 := by
  simp [isAligned]

theorem isAligned_alignDown (width : Width) (a : Word) :
    width.isAligned (width.alignDown a) = true := by
  rw [isAligned_iff, toNat_alignDown]
  exact Nat.mul_mod_left _ _

theorem alignDown_of_isAligned (h : width.isAligned a = true) : width.alignDown a = a := by
  apply BitVec.eq_of_toNat_eq
  rw [toNat_alignDown]
  exact Nat.div_mul_cancel (Nat.dvd_of_mod_eq_zero (isAligned_iff.mp h))

theorem bytes_pos (width : Width) : 0 < width.bytes := by
  cases width <;> decide

theorem bytes_le (width : Width) : width.bytes ≤ 4 := by
  cases width <;> decide

/-- An aligned access does not run past the last address. -/
theorem toNat_add_of_isAligned (h : width.isAligned a = true) {i : Nat} (hi : i < width.bytes) :
    (a + BitVec.ofNat 32 i).toNat = a.toNat + i := by
  have hmod := isAligned_iff.mp h
  have hlt := a.isLt
  rw [BitVec.toNat_add, BitVec.toNat_ofNat]
  cases width <;> simp only [bytes] at hi hmod <;> omega

end Width

/-! ## §2. Addresses and bytes of words. -/

/-- Addresses less than the whole address space apart are different. -/
theorem Word.add_ofNat_inj {a : Word} {i j : Nat} (hi : i < 2 ^ 32) (hj : j < 2 ^ 32) :
    a + BitVec.ofNat 32 i = a + BitVec.ofNat 32 j ↔ i = j := by
  constructor
  · intro h
    have hij := congrArg BitVec.toNat ((BitVec.add_right_inj a).mp h)
    rwa [BitVec.toNat_ofNat, BitVec.toNat_ofNat, Nat.mod_eq_of_lt hi, Nat.mod_eq_of_lt hj] at hij
  · rintro rfl
    rfl

/-- An address is as far on from another as their difference says. -/
theorem Word.add_ofNat_sub (a x : Word) : a + BitVec.ofNat 32 (x - a).toNat = x := by
  rw [BitVec.ofNat_toNat, BitVec.setWidth_eq, BitVec.add_comm, BitVec.sub_add_cancel]

/-- Byte `i` of a word is its bits from `8 * i`. -/
theorem Word.getLsbD_byte (w : Word) (i j : Nat) :
    (w.byte i).getLsbD j = (decide (j < 8) && w.getLsbD (8 * i + j)) := by
  unfold Word.byte
  rw [BitVec.getLsbD_extractLsb']

theorem Word.byte_setWidth (b : Byte) : Word.byte (b.setWidth 32) 0 = b := by
  apply BitVec.eq_of_getLsbD_eq
  intro j hj
  have h32 : j < 32 := by omega
  rw [Word.getLsbD_byte, BitVec.getLsbD_setWidth, Nat.mul_zero, Nat.zero_add]
  simp [hj, h32]

/-- A byte put behind the others is the highest. -/
theorem littleEndian_snoc (bs : List Byte) (b : Byte) :
    littleEndian (bs ++ [b]) = littleEndian bs ||| b.setWidth 32 <<< (8 * bs.length) := by
  induction bs with
  | nil => simp [littleEndian]
  | cons c bs ih =>
      show c.setWidth 32 ||| littleEndian (bs ++ [b]) <<< 8 = _
      rw [ih, BitVec.shiftLeft_or_distrib, ← BitVec.shiftLeft_add, ← BitVec.or_assoc]
      rfl

/-! ## §3. Which addresses a RAM backs. -/

namespace Ram

variable {ram : Ram} {a x : Word} {n : Nat}

/-- The address lies in the RAM. -/
def Backs (ram : Ram) (x : Word) : Prop :=
  ram.base.toNat ≤ x.toNat ∧ x.toNat < ram.base.toNat + ram.size

instance : Decidable (ram.Backs x) :=
  inferInstanceAs (Decidable (_ ∧ _))

/-- Storage backs the `n` addresses from `a` on. -/
def Covers (ram : Ram) (a : Word) (n : Nat) : Prop :=
  ∀ i < n, ram.Backs (a + BitVec.ofNat 32 i)

instance : Decidable (ram.Covers a n) :=
  inferInstanceAs (Decidable (∀ i < n, _))

/-- How far into the RAM an address is. -/
def slot (ram : Ram) (x : Word) : Nat :=
  x.toNat - ram.base.toNat

/-- A byte has an offset if it is backed. -/
theorem offset?_byte (ram : Ram) (x : Word) :
    ram.offset? x .byte = if ram.Backs x then some (ram.slot x) else none := by
  unfold offset?
  refine if_congr ?_ rfl rfl
  unfold Backs
  rw [BitVec.le_def]
  show _ ∧ x.toNat - ram.base.toNat + 1 ≤ ram.size ↔ _
  omega

/-- A byte that is backed is read at its slot. -/
theorem byte?_eq (ram : Ram) (x : Word) :
    ram.byte? x = if ram.Backs x then some (ram.byteAt (ram.slot x)) else none := by
  unfold byte?
  rw [offset?_byte]
  split <;> rfl

theorem contains_byte (ram : Ram) (x : Word) : ram.contains x .byte = decide (ram.Backs x) := by
  unfold contains
  rw [offset?_byte]
  by_cases h : ram.Backs x <;> simp [h]

/-- For an aligned access the check of the range is a check of every byte. -/
theorem offset?_aligned {width : Width} (h : width.isAligned a = true) :
    ram.offset? a width
      = if ram.Covers a width.bytes then some (ram.slot a) else none := by
  unfold offset?
  refine if_congr ?_ rfl rfl
  rw [BitVec.le_def]
  have hpos := width.bytes_pos
  constructor
  · rintro ⟨hlow, hhigh⟩ i hi
    unfold Backs
    rw [Width.toNat_add_of_isAligned h hi]
    omega
  · intro hall
    -- the first byte is not below the RAM, the last not above it
    have hfirst := hall 0 hpos
    have hlast := hall (width.bytes - 1) (by omega)
    unfold Backs at hfirst hlast
    rw [Width.toNat_add_of_isAligned h hpos] at hfirst
    rw [Width.toNat_add_of_isAligned h (by omega)] at hlast
    omega

/-- The bytes of an aligned, covered access lie side by side. -/
theorem slot_aligned {width : Width} (h : width.isAligned a = true)
    (hall : ram.Covers a width.bytes) {i : Nat} (hi : i < width.bytes) :
    ram.slot (a + BitVec.ofNat 32 i) = ram.slot a + i := by
  have hfirst := hall 0 width.bytes_pos
  unfold Backs at hfirst
  rw [Width.toNat_add_of_isAligned h width.bytes_pos] at hfirst
  unfold slot
  rw [Width.toNat_add_of_isAligned h hi]
  omega

/-- Different addresses of the RAM are different places in it. -/
theorem slot_inj {y : Word} (hx : ram.Backs x) (hy : ram.Backs y) (h : ram.slot x = ram.slot y) :
    x = y := by
  unfold Backs at hx hy
  unfold slot at h
  apply BitVec.eq_of_toNat_eq
  omega

theorem SameBounds.backs_iff {ram' : Ram} (h : SameBounds ram ram') (x : Word) :
    ram'.Backs x ↔ ram.Backs x := by
  unfold Backs
  rw [h.1, h.2]

theorem SameBounds.slot_eq {ram' : Ram} (h : SameBounds ram ram') (x : Word) :
    ram'.slot x = ram.slot x := by
  unfold slot
  rw [h.1]

/-! ## §4. Words put into a RAM and read from it. -/

/-- The word that `n` bytes from an address on make up. -/
def wordAt (ram : Ram) (a : Word) (n : Nat) : Word :=
  littleEndian ((List.range n).map fun i => ram.byteAt (ram.slot (a + BitVec.ofNat 32 i)))

/-- One more byte goes above the bytes read so far. -/
theorem wordAt_succ (ram : Ram) (a : Word) (n : Nat) :
    ram.wordAt a (n + 1)
      = ram.wordAt a n
        ||| (ram.byteAt (ram.slot (a + BitVec.ofNat 32 n))).setWidth 32 <<< (8 * n) := by
  unfold wordAt
  rw [List.range_succ, List.map_append, List.map_singleton, littleEndian_snoc, List.length_map,
    List.length_range]

/-- The RAM with the low `n` bytes of a word put at an address and after it. -/
def put (ram : Ram) (a : Word) (n : Nat) (v : Word) : Ram :=
  (List.range n).foldl (fun r i => r.setByte (ram.slot (a + BitVec.ofNat 32 i)) (v.byte i)) ram

/-- One more byte is put after those before it. -/
theorem put_succ (ram : Ram) (a : Word) (n : Nat) (v : Word) :
    ram.put a (n + 1) v
      = (ram.put a n v).setByte (ram.slot (a + BitVec.ofNat 32 n)) (v.byte n) := by
  unfold put
  rw [List.range_succ, List.foldl_append]
  rfl

/-- Putting bytes moves no bound. -/
theorem sameBounds_put (ram : Ram) (a : Word) (n : Nat) (v : Word) :
    SameBounds ram (ram.put a n v) := by
  induction n with
  | zero => exact ⟨rfl, rfl⟩
  | succ n ih =>
      rw [put_succ]
      exact ih

/-- Nothing else is touched. -/
theorem byteAt_put_of_ne {v : Word} {o : Nat}
    (h : ∀ i < n, o ≠ ram.slot (a + BitVec.ofNat 32 i)) :
    (ram.put a n v).byteAt o = ram.byteAt o := by
  induction n with
  | zero => rfl
  | succ n ih =>
      have hn : ram.slot (a + BitVec.ofNat 32 n) ≠ o := (h n (Nat.lt_succ_self n)).symm
      rw [put_succ, byteAt_setByte, if_neg hn]
      apply ih
      intro i hi
      exact h i (Nat.lt_succ_of_lt hi)

/-- Each byte is where it was put: none of the later ones is put over it. -/
theorem byteAt_put {v : Word} (hn : n ≤ 4) (hall : ram.Covers a n) {i : Nat} (hi : i < n) :
    (ram.put a n v).byteAt (ram.slot (a + BitVec.ofNat 32 i)) = v.byte i := by
  induction n with
  | zero => omega
  | succ n ih =>
      rw [put_succ, byteAt_setByte]
      by_cases hin : i = n
      · subst hin
        exact if_pos rfl
      · have hne : ram.slot (a + BitVec.ofNat 32 n) ≠ ram.slot (a + BitVec.ofNat 32 i) := by
          intro heq
          have haddr := slot_inj (hall n (Nat.lt_succ_self n)) (hall i hi) heq
          rw [Word.add_ofNat_inj (by omega) (by omega)] at haddr
          omega
        rw [if_neg hne]
        exact ih (by omega) (fun j hj => hall j (by omega)) (by omega)

/-- After bytes were put, an address holds the one put there, or what it held. -/
theorem byte?_put {v : Word} (hn : n ≤ 4) (hall : ram.Covers a n) (x : Word) :
    (ram.put a n v).byte? x
      = if (x - a).toNat < n then some (v.byte (x - a).toNat) else ram.byte? x := by
  have same := sameBounds_put ram a n v
  rw [byte?_eq, byte?_eq, same.slot_eq]
  simp only [same.backs_iff]
  by_cases hi : (x - a).toNat < n
  · -- the address is one of those written
    have hb := hall _ hi
    have hput := byteAt_put (v := v) hn hall hi
    rw [Word.add_ofNat_sub] at hb hput
    rw [if_pos hi, if_pos hb, hput]
  · rw [if_neg hi]
    by_cases hb : ram.Backs x
    · -- distinct addresses have distinct slots
      have hframe : ∀ i < n, ram.slot x ≠ ram.slot (a + BitVec.ofNat 32 i) := by
        intro i hin heq
        have hxi := slot_inj hb (hall i hin) heq
        rw [← Word.add_ofNat_sub a x, Word.add_ofNat_inj (x - a).isLt (by omega)] at hxi
        omega
      rw [byteAt_put_of_ne hframe]
    · rw [if_neg hb, if_neg hb]

/-! ## §5. Transactions. -/

/-- A byte read succeeds if the byte is backed, and leaves the memory. -/
theorem perform_read_byte (ram : Ram) (x : Word) :
    (DataMemory.read x .byte : Transaction Ram Word).perform ram
      = (if ram.Backs x then .ok ((ram.byteAt (ram.slot x)).setWidth 32)
          else .error (.outOfRange .read x .byte), ram) := by
  show (ram.read x .byte, ram) = _
  unfold read
  rw [offset?_byte]
  by_cases h : ram.Backs x
  · simp [h, Width.bytes, littleEndian, List.range_succ]
  · simp [h]

theorem perform_write_byte (h : ram.Backs x) (v : Word) :
    (DataMemory.write x .byte v : Transaction Ram Unit).perform ram
      = (.ok (), ram.setByte (ram.slot x) (v.byte 0)) := by
  rw [perform_write]
  unfold write
  rw [offset?_byte, if_pos h]
  rfl

/-- An aligned read succeeds if all of its bytes are backed, and gives them in
little-endian order. -/
theorem perform_read_aligned {width : Width} (h : width.isAligned a = true) (ram : Ram) :
    (DataMemory.read a width : Transaction Ram Word).perform ram
      = if ram.Covers a width.bytes then (.ok (ram.wordAt a width.bytes), ram)
        else (.error (.outOfRange .read a width), ram) := by
  show (ram.read a width, ram) = _
  unfold read
  rw [offset?_aligned h]
  by_cases hall : ram.Covers a width.bytes
  · have hbytes : (List.range width.bytes).map (fun i => ram.byteAt (ram.slot a + i))
        = (List.range width.bytes).map fun i => ram.byteAt (ram.slot (a + BitVec.ofNat 32 i)) := by
      apply List.map_congr_left
      intro i hi
      rw [slot_aligned h hall (List.mem_range.mp hi)]
    simp only [if_pos hall, hbytes]
    rfl
  · simp only [if_neg hall]

/-- An aligned write succeeds if all of its bytes are backed, and puts them all;
else it puts none. -/
theorem perform_write_aligned {width : Width} (h : width.isAligned a = true) (ram : Ram)
    (v : Word) :
    (DataMemory.write a width v : Transaction Ram Unit).perform ram
      = if ram.Covers a width.bytes then (.ok (), ram.put a width.bytes v)
        else (.error (.outOfRange .write a width), ram) := by
  rw [perform_write]
  unfold write
  rw [offset?_aligned h]
  by_cases hall : ram.Covers a width.bytes
  · simp only [if_pos hall]
    refine congrArg (Prod.mk (Except.ok ())) (List.foldl_ext _ _ _ ?_)
    intro r i hi
    rw [slot_aligned h hall (List.mem_range.mp hi)]
  · simp only [if_neg hall]

end Ram

end FiveStage
