/-
  FiveStage.Simulator
  ───────────────────
  **RUNNING A CORE.**

  A simulator is a core on its platform, the levels of its interrupt lines,
  and a cycle budget.  A run ends when the core has finished or the budget is
  spent, and is observed after every cycle.  The budget counts the cycles of
  the core's whole life, so a run can be taken up again with a larger one.
-/
import FiveStage.Core.Cycle
import FiveStage.Image
import FiveStage.Settings.Reading

namespace FiveStage

/-- A core that can be run. -/
structure Simulator where
  /-- What the core is wired to. -/
  platform : Platform
  /-- The core. -/
  core : Core
  /-- Levels of the interrupt lines. -/
  lines : Inputs := {}
  /-- Cycle budget. -/
  maxCycles : Nat

/-- How a run ended. -/
inductive Outcome where
  /-- The core has finished. -/
  | halted (cycles : Nat)
  /-- The budget was spent first. -/
  | cycleLimit (cycles : Nat)
  deriving Repr, DecidableEq

/-- What there is to tell about having read an image. -/
def Image.events (image : Image) : List Event :=
  [.imageParsed image.words.size]

namespace Simulator

/-! ## §1. Building a simulator. -/

/-- A simulator with this program memory and a data RAM of zeros. -/
def withProgram (s : Settings) (program : ProgramMemory) : Simulator :=
  let platform := Platform.ofSettings s program
  { platform
    core := .initial platform { base := s.memory.dmemBase, size := s.memory.dmemSize.toNat }
    maxCycles := s.general.maxCycles.toNat }

/-- A simulator that runs an image from an instruction ROM. -/
def ofImage (s : Settings) (image : Image) : Simulator :=
  withProgram s (.rom ⟨image.words, s.memory.imemWords.toNat⟩)

/-- Why a simulator cannot be built. -/
inductive LoadError where
  /-- The image cannot be loaded. -/
  | image (e : ImageError)
  /-- The settings have a flaw. -/
  | settings (flaw : SettingsFlaw)
  deriving Repr, DecidableEq

/-- The error in words. -/
def LoadError.message : LoadError → String
  | .image e => e.message
  | .settings flaw => flaw.message

/-- A simulator for the image in a file, and what there is to tell about
loading it.  The settings are validated first. -/
def load (s : Settings) (file : Option ByteArray) :
    Checked (Except LoadError (Simulator × List Event)) := do
  match ← s.flaw? with
  | some flaw => return .error (.settings flaw)
  | none =>
      match Image.load file s.memory.imemWords.toNat with
      | .error e => return .error (.image e)
      | .ok image =>
          return .ok (ofImage s image, image.events ++ [.programLoaded image.words.size])

/-! ## §2. A number of cycles. -/

/-- Install what a cycle of the core answered. -/
def afterCycle (sim : Simulator) (c : Cycle) : Simulator :=
  { sim with core := c.core }

/-- One cycle under the current levels of the lines. -/
def cycle (sim : Simulator) : Cycle :=
  sim.core.cycle sim.platform sim.lines

variable {α : Type}

/-- Exactly `n` cycles under these inputs; `observe` sees each cycle after it
happened. -/
def cyclesUnder (observe : α → Cycle → α) (inputs : Inputs) :
    Nat → Simulator → α → Simulator × α
  | 0, sim, a => (sim, a)
  | n + 1, sim, a =>
      let c := sim.core.cycle sim.platform inputs
      cyclesUnder observe inputs n (sim.afterCycle c) (observe a c)

/-- Exactly `n` cycles under the current levels of the lines. -/
def advance (observe : α → Cycle → α) (n : Nat) (sim : Simulator) (a : α) : Simulator × α :=
  cyclesUnder observe sim.lines n sim a

/-- `n` cycles with reset asserted. -/
def assertReset (observe : α → Cycle → α) (n : Nat) (sim : Simulator) (a : α) : Simulator × α :=
  cyclesUnder observe { sim.lines with reset := true } n sim a

/-! ## §3. Runs. -/

/-- At most `n` cycles, up to the one in which the core finishes; `observe`
sees each cycle after it happened. -/
def runSteps (observe : α → Cycle → α) : Nat → Simulator → α → Simulator × α
  | 0, sim, a => (sim, a)
  | n + 1, sim, a =>
      if sim.core.finished then (sim, a)
      else
        let c := sim.cycle
        runSteps observe n (sim.afterCycle c) (observe a c)

/-- How the run of a simulator ended. -/
def outcome (sim : Simulator) : Outcome :=
  if sim.core.finished then .halted sim.core.counters.cycles
  else .cycleLimit sim.core.counters.cycles

/-- Run until the core finishes or the budget is spent, observing every
cycle. -/
def runObserved (observe : α → Cycle → α) (sim : Simulator) (a : α) : Simulator × α :=
  runSteps observe (sim.maxCycles - sim.core.counters.cycles) sim a

/-- Run until the core finishes or the budget is spent. -/
def run (sim : Simulator) : Simulator :=
  (sim.runObserved (fun (_ : Unit) _ => ()) ()).1

end Simulator

end FiveStage
