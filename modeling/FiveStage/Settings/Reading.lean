/-
  FiveStage.Settings.Reading
  ──────────────────────────
  **SETTINGS FROM A DOCUMENT.**

  Settings are written as JSON: an object with the objects `general`,
  `memory` and `interrupts`.  Fields left out keep their defaults, and
  unknown ones do not count.  Numbers are whole and in range, written without
  sign, fraction or exponent.
-/
import FiveStage.Json.Reader
import FiveStage.Settings.Basic

namespace FiveStage

/-! ## §1. Errors. -/

/-- Why settings cannot be used. -/
inductive SettingsError where
  /-- The file cannot be read as text. -/
  | unreadable
  /-- The text is no JSON, or its fields are not those of settings. -/
  | malformed
  /-- The settings have a flaw. -/
  | invalid (flaw : SettingsFlaw)
  deriving Repr, DecidableEq

/-- The error in words. -/
def SettingsError.message : SettingsError → String
  | unreadable => "failed to read configuration"
  | malformed => "invalid configuration JSON"
  | invalid flaw => flaw.message

/-! ## §2. Fields. -/

namespace Json

/-- A truth value. -/
def bool? : Json → Option Bool
  | .bool b => some b
  | _ => none

/-- A whole number below `2 ^ bits`, written with digits only. -/
def nat? (bits : Nat) : Json → Option Nat
  | .number s => (digits? 10 s.toList).filter (· < Nat.pow 2 bits)
  | _ => none

/-- A word. -/
def word? (v : Json) : Option Word :=
  (v.nat? 32).map (BitVec.ofNat 32)

/-- A number of 64 bits. -/
def uint64? (v : Json) : Option UInt64 :=
  (v.nat? 64).map Nat.toUInt64

/-- The policy of a name. -/
def policyOfName? (name : String) : Option AlignmentPolicy :=
  if name = "Fault" then some .fault
  else if name = "AlignDown" then some .alignDown
  else if name = "Permit" then some .permit
  else none

/-- A policy: its name, or an object with the name as key of `null`. -/
def policy? : Json → Option AlignmentPolicy
  | .string (some name) => policyOfName? name
  | .object [(some name, .null)] => policyOfName? name
  | _ => none

/-- Read a field that may be left out. -/
def field {α : Type} (read : Json → Option α) (fallback : α) : Option Json → Option α
  | none => some fallback
  | some v => read v

end Json

/-! ## §3. Records. -/

open Json

/-- Read the general settings. -/
def GeneralSettings.ofJson? (v : Json) : Option GeneralSettings := do
  let [trace, vector, cycles] ←
    v.fields? ["trace_instructions", "reset_vector", "max_cycles"] | none
  let d : GeneralSettings := {}
  return { traceInstructions := ← field bool? d.traceInstructions trace
           resetVector := ← field word? d.resetVector vector
           maxCycles := ← field uint64? d.maxCycles cycles }

/-- Read the settings of the memories. -/
def MemorySettings.ofJson? (v : Json) : Option MemorySettings := do
  let [imem, base, size, misaligned] ←
    v.fields? ["imem_words", "dmem_base", "dmem_size", "misaligned"] | none
  let d : MemorySettings := {}
  return { imemWords := ← field uint64? d.imemWords imem
           dmemBase := ← field word? d.dmemBase base
           dmemSize := ← field uint64? d.dmemSize size
           misaligned := ← field policy? d.misaligned misaligned }

/-- Read the settings of the interrupt controller. -/
def InterruptSettings.ofJson? (v : Json) : Option InterruptSettings := do
  let [vector, enabled] ← v.fields? ["handler_vector", "enabled_at_reset"] | none
  let d : InterruptSettings := {}
  return { handlerVector := ← field word? d.handlerVector vector
           enabledAtReset := ← field bool? d.enabledAtReset enabled }

namespace Settings

/-- Read all settings. -/
def ofJson? (v : Json) : Option Settings := do
  let [general, memory, interrupts] ← v.fields? ["general", "memory", "interrupts"] | none
  return { general := ← field GeneralSettings.ofJson? {} general
           memory := ← field MemorySettings.ofJson? {} memory
           interrupts := ← field InterruptSettings.ofJson? {} interrupts }

/-- Read settings from a text, without looking for flaws. -/
def read? (text : String) : Option Settings :=
  (Json.parse? text).bind ofJson?

/-- Read settings from a text and validate them. -/
def parse (text : String) : Checked (Except SettingsError Settings) :=
  match read? text with
  | none => return .error .malformed
  | some s => do
      match ← s.flaw? with
      | some flaw => return .error (.invalid flaw)
      | none => return .ok s

/-- Read settings from the bytes of a file; `none` if there is no file. -/
def load (file : Option ByteArray) : Checked (Except SettingsError Settings) :=
  match file.bind String.fromUTF8? with
  | none => return .error .unreadable
  | some text => parse text

end Settings

end FiveStage
