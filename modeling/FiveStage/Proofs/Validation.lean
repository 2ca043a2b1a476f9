/-
  FiveStage.Proofs.Validation
  ───────────────────────────
  **WHAT VALIDATION ACCEPTS.**

  A constraint on the settings is a matter of numbers without bound:
  `Settings.Has` says of each flaw when settings have it.  Validation checks
  the constraints one after another in machine words, and names the first
  that is broken.

  One of the checks adds two numbers, and the sum can overflow.  Where it fits
  (`EndFits`), every check decides its constraint.  Where it does not,
  validation stops the program, unless it has found a flaw before.

      flaw_eq               when validation answers, and what
      flaw_eq_none_iff      which settings it accepts
-/
import FiveStage.Proofs.RamBytes
import FiveStage.Simulator

namespace FiveStage

namespace SettingsFlaw

/-- The flaws in the order in which they are looked for. -/
def inOrder : List SettingsFlaw :=
  [emptyProgramMemory, emptyDataMemory, dataMemoryTooLarge, resetVectorMisaligned,
    handlerVectorMisaligned]

theorem find_inOrder (p : SettingsFlaw → Bool) :
    inOrder.find? p = if p emptyProgramMemory then some emptyProgramMemory
      else if p emptyDataMemory then some emptyDataMemory
      else if p dataMemoryTooLarge then some dataMemoryTooLarge
      else if p resetVectorMisaligned then some resetVectorMisaligned
      else if p handlerVectorMisaligned then some handlerVectorMisaligned
      else none := by
  have hcons (flaw : SettingsFlaw) (rest : List SettingsFlaw) :
      (flaw :: rest).find? p = if p flaw then some flaw else rest.find? p := by
    rw [List.find?_cons]
    cases p flaw <;> rfl
  unfold inOrder
  simp only [hcons, List.find?_nil]

end SettingsFlaw

namespace Settings

open SettingsFlaw

variable {s : Settings} {flaw : SettingsFlaw}

/-! ## §1. The constraints. -/

/-- The settings have this flaw. -/
def Has (s : Settings) : SettingsFlaw → Prop
  | emptyProgramMemory => s.memory.imemWords.toNat < 1
  | emptyDataMemory => s.memory.dmemSize.toNat < 1
  | dataMemoryTooLarge => 2 ^ 32 < s.memory.dmemBase.toNat + s.memory.dmemSize.toNat
  | resetVectorMisaligned => ¬ 4 ∣ s.general.resetVector.toNat
  | handlerVectorMisaligned => ¬ 4 ∣ s.interrupts.handlerVector.toNat

instance (s : Settings) : DecidablePred s.Has
  | emptyProgramMemory | emptyDataMemory | dataMemoryTooLarge => inferInstanceAs (Decidable (_ < _))
  | resetVectorMisaligned | handlerVectorMisaligned => inferInstanceAs (Decidable (¬ _))

/-- The end of the data RAM is a 64-bit number. -/
def EndFits (s : Settings) : Prop :=
  s.memory.dmemBase.toNat + s.memory.dmemSize.toNat < 2 ^ 64

instance : Decidable s.EndFits :=
  inferInstanceAs (Decidable (_ < _))

/-! ## §2. The checks. -/

theorem eq_zero_iff (n : UInt64) : n = 0 ↔ n.toNat < 1 := by
  rw [← UInt64.toNat_inj]
  exact Nat.lt_one_iff.symm

theorem misaligned_iff (a : Word) : (!Width.word.isAligned a) = true ↔ ¬ 4 ∣ a.toNat := by
  rw [Bool.not_eq_true', ← Bool.not_eq_true, Width.isAligned_iff, Nat.dvd_iff_mod_eq_zero]
  rfl

/-- An address fits in 64 bits. -/
theorem toNat_toUInt64 (a : Word) : a.toNat.toUInt64.toNat = a.toNat := by
  have ha : a.toNat < 2 ^ 64 := Nat.lt_trans a.isLt (by decide)
  exact Nat.mod_eq_of_lt ha

/-- The end of the data RAM, where it is computed, is base plus size. -/
theorem toNat_dataEnd {e : UInt64} (h : s.dataEnd = .value e) :
    e.toNat = s.memory.dmemBase.toNat + s.memory.dmemSize.toNat := by
  rw [← Checked.add64_eq_value_iff.mp h, toNat_toUInt64]

/-- Computing it overflows exactly if it does not fit. -/
theorem dataEnd_eq_overflow_iff : s.dataEnd = .overflow ↔ ¬ s.EndFits := by
  unfold dataEnd EndFits
  rw [Checked.add64_eq_overflow_iff, toNat_toUInt64, Nat.not_lt]
  exact Iff.rfl

/-- The check of the data RAM's end decides its constraint. -/
theorem dataEnd_gt_iff {e : UInt64} (h : s.dataEnd = .value e) :
    e > 0x100000000 ↔ s.Has .dataMemoryTooLarge := by
  have hlt : e > 0x100000000 ↔ 2 ^ 32 < e.toNat := UInt64.lt_iff_toNat_lt
  rw [hlt, toNat_dataEnd h]
  exact Iff.rfl

/-! ## §3. Validation. -/

/-- Once the end of the data RAM is known, validation names the first flaw. -/
theorem flaw_of_value {e : UInt64} (h : s.dataEnd = .value e) :
    s.flaw? = .value (inOrder.find? fun flaw => s.Has flaw) := by
  rw [find_inOrder]
  unfold flaw?
  rw [h]
  simp only [Checked.value_bind, Checked.pure_eq, eq_zero_iff, dataEnd_gt_iff h, misaligned_iff,
    decide_eq_true_eq, apply_ite Checked.value]
  rfl

/-- Where it overflows, only an empty instruction ROM is found before. -/
theorem flaw_of_overflow (h : s.dataEnd = .overflow) :
    s.flaw? = if s.Has .emptyProgramMemory then .value (some .emptyProgramMemory)
      else .overflow := by
  have hbase := s.memory.dmemBase.isLt
  have hend : ¬ s.memory.dmemBase.toNat + s.memory.dmemSize.toNat < 2 ^ 64 :=
    dataEnd_eq_overflow_iff.mp h
  -- the data RAM is not empty, or its end would be its base
  have hsize : ¬ s.memory.dmemSize.toNat < 1 := by omega
  unfold flaw?
  rw [h]
  simp only [Checked.overflow_bind, Checked.pure_eq, eq_zero_iff, hsize, if_false]
  rfl

/-- **Validation in full.**  It names the first flaw, unless it overflows: that
happens if the end of the data RAM does not fit, and the instruction ROM, which
is looked at before, is not empty. -/
theorem flaw_eq (s : Settings) :
    s.flaw? = if s.EndFits ∨ s.Has .emptyProgramMemory then
        .value (inOrder.find? fun flaw => s.Has flaw)
      else .overflow := by
  cases h : s.dataEnd with
  | value e =>
      have hfits : s.EndFits := by
        have hnot : ¬ s.dataEnd = .overflow := by
          rw [h]
          exact nofun
        exact Decidable.not_not.mp (mt dataEnd_eq_overflow_iff.mpr hnot)
      rw [if_pos (.inl hfits)]
      exact flaw_of_value h
  | overflow =>
      have hfits : ¬ s.EndFits := dataEnd_eq_overflow_iff.mp h
      rw [flaw_of_overflow h]
      by_cases hempty : s.Has .emptyProgramMemory
      · rw [if_pos hempty, if_pos (.inr hempty), find_inOrder, if_pos (decide_eq_true hempty)]
      · rw [if_neg hempty, if_neg (not_or.mpr ⟨hfits, hempty⟩)]

/-- When validation overflows. -/
theorem flaw_eq_overflow_iff :
    s.flaw? = .overflow ↔ 1 ≤ s.memory.imemWords.toNat
      ∧ 2 ^ 64 ≤ s.memory.dmemBase.toNat + s.memory.dmemSize.toNat := by
  have hsplit : (1 ≤ s.memory.imemWords.toNat
      ∧ 2 ^ 64 ≤ s.memory.dmemBase.toNat + s.memory.dmemSize.toNat)
        ↔ ¬ (s.EndFits ∨ s.Has .emptyProgramMemory) := by
    unfold EndFits Has
    omega
  rw [hsplit, flaw_eq]
  split
  · rename_i h
    exact iff_of_false nofun (not_not.mpr h)
  · rename_i h
    exact iff_of_true rfl h

/-- An answer of validation is the first flaw. -/
theorem eq_find_of_flaw {found : Option SettingsFlaw} (h : s.flaw? = .value found) :
    found = inOrder.find? fun flaw => s.Has flaw := by
  rw [flaw_eq] at h
  split at h
  · exact (Checked.value.inj h).symm
  · cases h

/-- The setting to blame for the first flaw. -/
theorem field_find (s : Settings) :
    (inOrder.find? fun flaw => s.Has flaw).map SettingsFlaw.field
      = if s.memory.imemWords.toNat < 1 then some "memory.imem_words"
        else if s.memory.dmemSize.toNat < 1 then some "memory.dmem_size"
        else if 2 ^ 32 < s.memory.dmemBase.toNat + s.memory.dmemSize.toNat then
          some "memory.dmem_size"
        else if ¬ 4 ∣ s.general.resetVector.toNat then some "general.reset_vector"
        else if ¬ 4 ∣ s.interrupts.handlerVector.toNat then some "interrupts.handler_vector"
        else none := by
  rw [find_inOrder]
  simp only [decide_eq_true_eq, apply_ite (Option.map SettingsFlaw.field)]
  rfl

/-- The settings that have no flaw. -/
theorem find_eq_none_iff (s : Settings) :
    (inOrder.find? fun flaw => s.Has flaw) = none ↔
      1 ≤ s.memory.imemWords.toNat ∧ 1 ≤ s.memory.dmemSize.toNat
        ∧ s.memory.dmemBase.toNat + s.memory.dmemSize.toNat ≤ 2 ^ 32
        ∧ 4 ∣ s.general.resetVector.toNat ∧ 4 ∣ s.interrupts.handlerVector.toNat := by
  have hall : (inOrder.find? fun flaw => s.Has flaw) = none ↔ ∀ flaw ∈ inOrder, ¬ s.Has flaw := by
    rw [List.find?_eq_none]
    simp only [decide_eq_true_eq]
  rw [hall]
  simp only [inOrder, List.forall_mem_cons, List.not_mem_nil, false_imp_iff, implies_true,
    and_true, Has, Nat.not_lt, not_not]

/-- Settings are accepted exactly if they have no flaw: those that validation
overflows on have one. -/
theorem flaw_eq_none_iff :
    s.flaw? = .value none ↔ 1 ≤ s.memory.imemWords.toNat ∧ 1 ≤ s.memory.dmemSize.toNat
      ∧ s.memory.dmemBase.toNat + s.memory.dmemSize.toNat ≤ 2 ^ 32
      ∧ 4 ∣ s.general.resetVector.toNat ∧ 4 ∣ s.interrupts.handlerVector.toNat := by
  rw [← find_eq_none_iff, flaw_eq]
  split
  · rw [Checked.value.injEq]
  · rename_i h
    refine iff_of_false nofun fun hnone => h (.inl ?_)
    have hsmall := ((find_eq_none_iff s).mp hnone).2.2.1
    exact Nat.lt_of_le_of_lt hsmall (by decide)

/-! ## §4. The data RAM of valid settings. -/

/-- The data RAM of a simulator begins and ends where the settings say. -/
theorem contains_withProgram (s : Settings) (program : ProgramMemory) (x : Word) :
    (Simulator.withProgram s program).core.dmem.contains x .byte = true
      ↔ s.memory.dmemBase.toNat ≤ x.toNat
        ∧ x.toNat < s.memory.dmemBase.toNat + s.memory.dmemSize.toNat := by
  rw [Ram.contains_byte, decide_eq_true_iff]
  exact Iff.rfl

/-- Every number from the base up to base plus size is the address of a byte,
if that is in the address space. -/
theorem backed_iff {program : ProgramMemory} {a : Nat}
    (h : s.memory.dmemBase.toNat + s.memory.dmemSize.toNat ≤ 2 ^ 32) :
    (∃ x : Word, x.toNat = a
        ∧ (Simulator.withProgram s program).core.dmem.contains x .byte = true)
      ↔ s.memory.dmemBase.toNat ≤ a
        ∧ a < s.memory.dmemBase.toNat + s.memory.dmemSize.toNat := by
  constructor
  · rintro ⟨x, rfl, hx⟩
    exact (contains_withProgram s program x).mp hx
  · intro ha
    have hx : (BitVec.ofNat 32 a).toNat = a :=
      (BitVec.toNat_ofNat a 32).trans (Nat.mod_eq_of_lt (Nat.lt_of_lt_of_le ha.2 h))
    refine ⟨BitVec.ofNat 32 a, hx, (contains_withProgram s program _).mpr ?_⟩
    rw [hx]
    exact ha

/-- **What validation says**, of all settings there are.

  * It overflows exactly if the instruction ROM is not empty and the end of the
    data RAM is no 64-bit number.
  * It accepts the settings exactly if neither memory is empty, the data RAM
    ends within the address space, and both vectors are word-aligned.
  * If it answers, it names the first flaw that the settings have, and blames
    the setting that comes first in this order.
  * The data RAM of a simulator with accepted settings has a byte at every
    number from base up to base plus size, all of which are addresses, and
    nowhere else. -/
theorem validation_exact (s : Settings) :
    (s.flaw? = .overflow ↔ 1 ≤ s.memory.imemWords.toNat
        ∧ 2 ^ 64 ≤ s.memory.dmemBase.toNat + s.memory.dmemSize.toNat)
      ∧ (s.flaw? = .value none ↔ 1 ≤ s.memory.imemWords.toNat ∧ 1 ≤ s.memory.dmemSize.toNat
          ∧ s.memory.dmemBase.toNat + s.memory.dmemSize.toNat ≤ 2 ^ 32
          ∧ 4 ∣ s.general.resetVector.toNat ∧ 4 ∣ s.interrupts.handlerVector.toNat)
      ∧ (∀ found, s.flaw? = .value found →
          (found = inOrder.find? fun flaw => s.Has flaw)
            ∧ found.map SettingsFlaw.field
              = if s.memory.imemWords.toNat < 1 then some "memory.imem_words"
                else if s.memory.dmemSize.toNat < 1 then some "memory.dmem_size"
                else if 2 ^ 32 < s.memory.dmemBase.toNat + s.memory.dmemSize.toNat then
                  some "memory.dmem_size"
                else if ¬ 4 ∣ s.general.resetVector.toNat then some "general.reset_vector"
                else if ¬ 4 ∣ s.interrupts.handlerVector.toNat then
                  some "interrupts.handler_vector"
                else none)
      ∧ (s.flaw? = .value none → ∀ (program : ProgramMemory) (a : Nat),
          (∃ x : Word, x.toNat = a
              ∧ (Simulator.withProgram s program).core.dmem.contains x .byte = true)
            ↔ s.memory.dmemBase.toNat ≤ a
              ∧ a < s.memory.dmemBase.toNat + s.memory.dmemSize.toNat) := by
  refine ⟨flaw_eq_overflow_iff, flaw_eq_none_iff, ?_, ?_⟩
  · intro found h
    have hfound := eq_find_of_flaw h
    refine ⟨hfound, ?_⟩
    rw [hfound]
    exact s.field_find
  · intro hvalid program a
    exact backed_iff (flaw_eq_none_iff.mp hvalid).2.2.1

/-- The defaults are accepted: their RAM has its last byte at 0x10000FFF. -/
theorem validation_exact_default :
    ({} : Settings).flaw? = .value none
      ∧ ((∃ x : Word, x.toNat = 0x10000FFF
          ∧ (Simulator.withProgram {} (.tied 0)).core.dmem.contains x .byte = true)
        ↔ 0x10000000 ≤ 0x10000FFF ∧ 0x10000FFF < 0x10000000 + 4096) := by
  obtain ⟨-, haccept, -, hram⟩ := validation_exact {}
  have hvalid : ({} : Settings).flaw? = .value none := haccept.mpr (by decide)
  exact ⟨hvalid, hram hvalid (.tied 0) 0x10000FFF⟩

/-- A data RAM of almost 2⁶⁴ bytes is not refused for its size: validation
overflows. -/
theorem overflow_of_largest_size :
    let s : Settings := { memory := { dmemSize := 0xFFFFFFFFFFFFFFFF } }
    s.flaw? = .overflow ∧ (inOrder.find? fun flaw => s.Has flaw) = some .dataMemoryTooLarge := by
  decide +kernel

end Settings

end FiveStage
