/-
  FiveStage.Trap
  ──────────────
  **THE TRAP UNIT.**

  Two level-triggered lines ask for an interrupt; the external line beats the
  software line.  Entering the handler saves where the program resumes and
  masks further interrupts; returning from it takes the saved state back and
  unmasks them.  A return with no handler active does nothing.
-/
import FiveStage.Settings.Basic

namespace FiveStage

/-! ## §1. Causes and inputs. -/

/-- An interrupt line. -/
inductive InterruptCause where
  /-- The external line, of higher priority. -/
  | external
  /-- The software line. -/
  | software
  deriving Repr, DecidableEq

/-- The line as it appears in messages. -/
def InterruptCause.text : InterruptCause → String
  | .external => "external"
  | .software => "software"

/-- Levels of the control inputs during one cycle. -/
structure Inputs where
  /-- Synchronous reset. -/
  reset : Bool := false
  /-- Software interrupt request. -/
  software : Bool := false
  /-- External interrupt request. -/
  external : Bool := false
  deriving Repr, DecidableEq

/-! ## §2. The unit. -/

/-- What is saved when an interrupt is taken. -/
structure Trap where
  /-- Where the interrupted program resumes. -/
  epc : Word
  /-- The line that was served. -/
  cause : InterruptCause
  deriving Repr, DecidableEq

/-- State of the trap unit. -/
structure TrapUnit where
  /-- Interrupts are accepted. -/
  enabled : Bool
  /-- The interrupt being handled, if any. -/
  active : Option Trap
  deriving Repr, DecidableEq

namespace TrapUnit

/-- The state after reset. -/
def atReset (s : InterruptSettings) : TrapUnit :=
  ⟨s.enabledAtReset, none⟩

/-- The interrupt to take, if any: none while masked or halted. -/
def arbitrate (t : TrapUnit) (inputs : Inputs) (halted : Bool) : Option InterruptCause :=
  if !t.enabled || halted then none
  else if inputs.external then some .external
  else if inputs.software then some .software
  else none

/-- Enter the handler. -/
def enter (_ : TrapUnit) (cause : InterruptCause) (epc : Word) : TrapUnit :=
  ⟨false, some ⟨epc, cause⟩⟩

/-- Where a return from the handler resumes, if one is active. -/
def resume? (t : TrapUnit) : Option Word :=
  t.active.map (·.epc)

/-- Leave the handler, if one is active. -/
def leave (t : TrapUnit) : TrapUnit :=
  if t.active.isSome then ⟨true, none⟩ else t

end TrapUnit

end FiveStage
