/-
  FiveStage.Settings.Basic
  ────────────────────────
  **SETTINGS OF THE MACHINE.**

  Everything that can be set before a run: the vectors, the sizes of the
  memories, the alignment policy and the cycle budget.  Each setting has a
  default.  `Settings.flaw?` checks the settings against each other and names
  the first that cannot be honoured; settings without a flaw are *valid*.
  One of the checks needs a sum, which may overflow.
-/
import FiveStage.Access
import FiveStage.Checked

namespace FiveStage

/-! ## §1. The settings and their defaults. -/

/-- General settings. -/
structure GeneralSettings where
  /-- Log a diagram of the pipeline after every cycle. -/
  traceInstructions : Bool := false
  /-- PC after reset. -/
  resetVector : Word := 0
  /-- Cycle budget of a run. -/
  maxCycles : UInt64 := 100000
  deriving Repr, DecidableEq

/-- Layout and behaviour of the memories. -/
structure MemorySettings where
  /-- Size of the instruction ROM in words. -/
  imemWords : UInt64 := 1024
  /-- Address of the first byte of the data RAM. -/
  dmemBase : Word := 0x10000000
  /-- Size of the data RAM in bytes. -/
  dmemSize : UInt64 := 4096
  /-- What happens to misaligned loads and stores. -/
  misaligned : AlignmentPolicy := .fault
  deriving Repr, DecidableEq

/-- Settings of the interrupt controller. -/
structure InterruptSettings where
  /-- Where the handler begins. -/
  handlerVector : Word := 0x200
  /-- Interrupts are accepted after reset. -/
  enabledAtReset : Bool := true
  deriving Repr, DecidableEq

/-- All settings. -/
structure Settings where
  /-- General settings. -/
  general : GeneralSettings := {}
  /-- The memories. -/
  memory : MemorySettings := {}
  /-- The interrupt controller. -/
  interrupts : InterruptSettings := {}
  deriving Repr, DecidableEq

/-! ## §2. Validation. -/

/-- A constraint on the settings, by what breaks it. -/
inductive SettingsFlaw where
  /-- The instruction ROM is empty. -/
  | emptyProgramMemory
  /-- The data RAM is empty. -/
  | emptyDataMemory
  /-- The data RAM does not fit below the end of the address space. -/
  | dataMemoryTooLarge
  /-- The reset vector is no instruction address. -/
  | resetVectorMisaligned
  /-- The handler vector is no instruction address. -/
  | handlerVectorMisaligned
  deriving Repr, DecidableEq

namespace SettingsFlaw

/-- The setting to blame. -/
def field : SettingsFlaw → String
  | emptyProgramMemory => "memory.imem_words"
  | emptyDataMemory | dataMemoryTooLarge => "memory.dmem_size"
  | resetVectorMisaligned => "general.reset_vector"
  | handlerVectorMisaligned => "interrupts.handler_vector"

/-- What is wrong with it. -/
def reason : SettingsFlaw → String
  | emptyProgramMemory | emptyDataMemory => "must be at least 1"
  | dataMemoryTooLarge => "data RAM extends past the 32-bit address space"
  | resetVectorMisaligned | handlerVectorMisaligned => "must be word-aligned"

/-- The flaw in words. -/
def message (flaw : SettingsFlaw) : String :=
  "invalid value for `" ++ flaw.field ++ "`: " ++ flaw.reason

end SettingsFlaw

namespace Settings

/-- First byte past the data RAM, as a 64-bit number. -/
def dataEnd (s : Settings) : Checked UInt64 :=
  .add64 s.memory.dmemBase.toNat.toUInt64 s.memory.dmemSize

/-- The first flaw of the settings, if they have one.  The checks go on only
once the end of the data RAM is known. -/
def flaw? (s : Settings) : Checked (Option SettingsFlaw) := do
  if s.memory.imemWords = 0 then return some .emptyProgramMemory
  if s.memory.dmemSize = 0 then return some .emptyDataMemory
  if (← s.dataEnd) > 0x100000000 then return some .dataMemoryTooLarge
  if !Width.word.isAligned s.general.resetVector then return some .resetVectorMisaligned
  if !Width.word.isAligned s.interrupts.handlerVector then return some .handlerVectorMisaligned
  return none

end Settings

end FiveStage
