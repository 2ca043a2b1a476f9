/-
  FiveStage.Core.Run
  ──────────────────
  **MANY CYCLES OF THE CORE.**

  A core is run by a schedule, the list of the inputs of the cycles to come.
  A run is seen through what it retires, in order, and through the core it
  ends with.
-/
import FiveStage.Core.Cycle
import FiveStage.Hart

namespace FiveStage.Core

/-! ## §1. Runs. -/

/-- The core after the cycles of a schedule. -/
def after (p : Platform) (c : Core) (schedule : List Inputs) : Core :=
  schedule.foldl (tick p) c

/-- The instructions retired in the cycles of a schedule, the first first. -/
def retirements (p : Platform) (c : Core) : List Inputs → List Retirement
  | [] => []
  | i :: is => (c.tick p i).lastRetired.toList ++ retirements p (c.tick p i) is

/-- A schedule of `n` cycles with all lines low. -/
def quiet (n : Nat) : List Inputs :=
  List.replicate n {}

/-- The core is one that some schedule leads to, from its first cycle on,
whatever was in its registers and in data memory. -/
def Reachable (p : Platform) (c : Core) : Prop :=
  ∃ dmem regs schedule, c = after p { Core.initial p dmem with regs } schedule

/-! ## §2. The program's view. -/

/-- The architectural state of a core with nothing in flight. -/
def hart (c : Core) : Hart where
  pc := c.pc
  regs := c.regs
  dmem := c.dmem
  halted := c.halted

end FiveStage.Core

namespace FiveStage

/-- What the program sees of a retirement. -/
def Retirement.visible (r : Retirement) : Word × Option (Nat × Word) :=
  (r.pc, r.write)

/-- What the program sees of an instruction performed. -/
def Performed.visible (s : Performed) : Word × Option (Nat × Word) :=
  (s.pc, s.write?)

end FiveStage
